import Simultaneous.Algebra.Simplify.Basic
import Simultaneous.Algebra.Wide

/-!
Angles as multiples of the half turn, and what has to be known of an argument before a function is
applied to it: its imaginary coefficient, and whether it is a rounded number.
-/

namespace Simultaneous.Algebra

open Expr

/-- A multiple of the half turn, below two when it is a number. -/
inductive HalfTurns
  | rational (q : Rat)
  | other (x : Expr)

/-- `q` modulo `m`, at least zero for positive `m`. -/
def ratMod (q m : Rat) : Rat := q - m * (q / m).floor

/-- A rounded number that is an exact binary fraction of few bits, as a rational. -/
def binaryFraction? (x : Rounded) : Option Rat :=
  let q := x.toRat
  let part := ratMod (if q < 0 then -q else q) 1
  if part == 0 then some q
  else
    let log := -Float.log2 (Decimal.nearestRat part)
    let steps := (log + 0.5).floor.toUInt64.toNat
    let steps := if log + 0.5 == Float.ofNat steps && steps % 2 == 1 then steps - 1 else steps
    let scaled := q * (Nat.pow 2 steps : Nat)
    if scaled.den == 1 then some q else none

/-- The factor beside exactly one of the wanted kind. -/
def beside? (wanted : Expr → Bool) (fs : List Expr) : Option (List Expr) :=
  if (fs.filter wanted).length == 1 then some (fs.filter (!wanted ·)) else none

def halfTurns? (x : Expr) : Option HalfTurns :=
  match x with
  | const .pi => some (.rational 1)
  | num n => if n.isZero then some (.rational 0) else none
  | .product fs => (beside? isPi fs).map fun rest =>
    let y := rawProduct rest
    let (n, z) := y.coefficient
    let n := match n with
      | .real r => match binaryFraction? r with
        | some q => .rat q
        | none => n
      | n => n
    if z.isOne then match n with
      | .rat q => .rational (ratMod q 2)
      | .real r => .other (num (.ofRounded (.ofRat r.prec (ratMod r.toRat 2))))
      | n => .other (num n)
    else if n.isOne then .other z
    else .other (.product (num n :: z.factors))
  | _ => none

/-- Split a sum into what is left and a multiple of a quarter turn. -/
def peelQuarters (s : Simplifier) (ts : List Expr) : Option (Expr × Rat) :=
  let turns : Expr → Option Rat := fun t => match t with
    | const .pi => some 1
    | .product [num (.rat q), const .pi] => some q
    | _ => none
  let q := ts.foldl (fun q t => q + (turns t).getD 0) 0
  if !ts.any (fun t => (turns t).isSome) || q == 0 then none
  else
    let small := ratMod q half
    let rest := ts.filter fun t => (turns t).isNone
    if q - small == 0 then none
    else some (s.sum (rest ++ [s.product [ofRat small, pi]]), q - small)

/-- The coefficient of the imaginary unit, when the whole is a multiple of it. -/
def imaginary? (s : Simplifier) (x : Expr) : Option Expr :=
  match x with
  | const .i => some 1
  | .product fs => (beside? isI fs).map rawProduct
  | .sum ts => (ts.mapM fun t => match t with
    | const .i => some 1
    | .product fs => (beside? isI fs).map rawProduct
    | _ => none).map s.sum
  | _ => none

/-- A rounded argument, real or complex, with its precision. -/
def rounded? (x : Expr) : Option (Approx × Nat) :=
  match x with
  | num (.real r) => some (⟨r.toFloat, 0⟩, r.prec)
  | .sum [num a, .product [num b, const .i]] => match a, b with
    | .real r, b => some (⟨r.toFloat, b.toFloat⟩, r.prec)
    | a, .real r => some (⟨a.toFloat, r.toFloat⟩, r.prec)
    | _, _ => none
  | .sum [num (.real r), const .i] => some (⟨r.toFloat, 1⟩, r.prec)
  | _ => none

/-- A function applied to a rounded number. -/
def evaluateRounded (s : Simplifier) (f : Fn) (x : Expr) : Option Expr :=
  (rounded? x).bind fun (a, prec) =>
    let wide := match x with
      | num (.real r) => wideValue? f prec r
      | _ => none
    match f.approx a with
    | none => none
    | some z =>
      let inside := a.re.isFinite && (z.re.isFinite && (z.re.abs > 1e-300 || a.re.abs < 500))
      match (if inside then Rounded.ofFloat? prec z.re else wide),
          Rounded.ofFloat? prec z.im with
      | some re, some im =>
        if im.isZero then some (num (.ofRounded re))
        else some (s.sum [num (.ofRounded re), s.product [num (.ofRounded im), i]])
      | _, _ => none

end Simultaneous.Algebra
