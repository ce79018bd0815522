import Simultaneous.Algebra.Simplify.Angle

/-!
Trigonometric and hyperbolic functions and their inverses: parity, exact values at rational parts of
a turn, whole quarter turns in a sum, and compositions with inverse functions.
-/

namespace Simultaneous.Algebra.Simplifier

open Expr

def piTimes (s : Simplifier) (q : Rat) : Expr := s.product [ofRat q, pi]

def isCall (f : Fn) : Expr → Bool
  | .call g _ => f == g
  | _ => false

/-- Denominators whose angle is a difference of two others. -/
def splitDenominator? : Nat → Option (Nat × Nat)
  | 12 => some (3, 4)
  | 20 => some (4, 5)
  | 30 => some (5, 6)
  | 15 => some (6, 10)
  | 24 => some (6, 8)
  | 40 => some (8, 10)
  | 60 => some (20, 30)
  | 120 => some (40, 60)
  | _ => none

/-- `(a + sqrt n * b)` with rational `a` and `b`. -/
def surd (s : Simplifier) (a b : Rat) (n : Nat) : Expr :=
  s.sum [ofRat a, s.product [ofRat b, s.sqrt (ofInt n)]]

/-- The cosine of `q` half turns, where roots express it. -/
def cosTurns (s : Simplifier) (q : Rat) : Option Expr :=
  if q.den == 1 then some (if q.num % 2 == 0 then 1 else ofInt (-1))
  else if q.den == 2 then some 0
  else
    let p := ratMod q 2
    if 1 < p then some (s.call .cos (s.piTimes (q - 1))).negate
    else if half < p then some (s.call .cos (s.piTimes (1 - q))).negate
    else match splitDenominator? q.den with
      | some (a, b) =>
        let n := p * q.den
        let x := s.piTimes (n / a)
        let y := s.piTimes (n / b)
        let right := s.piTimes half
        some (s.sum [s.product [s.call .cos x, s.call .cos y],
          s.product [s.call .cos (s.sub right x), s.call .cos (s.sub right y)]])
      | none =>
        if 12 < q.den then none
        else if q.den == 3 then some (ofRat half)
        else if q.den == 5 then
          some (s.surd (if p == mkRat 1 5 then mkRat 1 4 else mkRat (-1) 4) (mkRat 1 4) 5)
        else if q.den % 2 == 0 then
          let x := s.call .cos (s.piTimes (2 * q))
          let turns := ((2 * q + 1) / 2).floor
          let root := s.sqrt (s.quotient (s.sum [1, x]) 2)
          some (if turns % 2 == 0 then root else root.negate)
        else none

/-- The sine of `q` half turns by way of the cosine. -/
def sinTurns (s : Simplifier) (q : Rat) (x : Expr) : Option Expr :=
  if q.den == 1 then some 0
  else if q.den == 2 then some (if (q - half).num % 2 == 0 then 1 else ofInt (-1))
  else
    let p := ratMod q 2
    if 1 < p then some (s.call .sin (s.piTimes (ratMod p 1))).negate
    else if half < p then some (s.call .sin (s.piTimes (1 - p)))
    else
      let y := s.call .cos (s.piTimes (ratMod (q + mkRat 3 2) 2))
      if !isCall .cos y then some y
      else
        let z := s.piTimes q
        if z.same x then none else some (s.call .sin z)

/-- The tangent of tenths of a half turn. -/
def tanTenths (s : Simplifier) : Nat → Expr
  | 1 => s.sqrt (s.surd 1 (mkRat (-2) 5) 5)
  | 2 => s.sqrt (s.surd 5 (-2) 5)
  | 3 => s.sqrt (s.surd 1 (mkRat 2 5) 5)
  | _ => s.sqrt (s.surd 5 2 5)

def tanTurns (s : Simplifier) (q : Rat) (x : Expr) : Option Expr :=
  if q.den == 1 then some 0
  else
    let p := ratMod q 1
    if q.den == 5 || q.den == 10 then
      let n := (10 * p).num.natAbs
      some (if 5 < n then (s.tanTenths (10 - n)).negate else s.tanTenths n)
    else
      let right := s.piTimes half
      let doubled := s.piTimes (2 * q)
      let c := s.call .cos doubled
      let d := s.call .cos (s.sub doubled right)
      if q.den % 2 == 0 && !isCall .cos c && !isCall .cos d then
        some (if d.isZero then pole else s.sub (s.quotient 1 d) (s.quotient c d))
      else match splitDenominator? q.den with
        | some (a, b) =>
          let u := s.call .tan (s.piTimes (p * q.den / a))
          let v := s.call .tan (s.piTimes (p * q.den / b))
          some (s.quotient (s.sub u v) (s.sum [1, s.product [u, v]]))
        | none =>
          let y := s.piTimes (ratMod (q + half) 1 - half)
          let c := s.call .cos y
          let d := s.call .cos (s.sub y right)
          if !isCall .cos c && !isCall .cos d then
            some (if c.isZero then pole else s.quotient d c)
          else if y.same x then none else some (s.call .tan y)

/-- The shape that the rules of sine, cosine and tangent share: parity, imaginary arguments, parts
of a turn, whole quarter turns in a sum, and last the compositions. -/
def circular (s : Simplifier) (f : Fn) (even : Bool) (x : Expr) (imaginary : Expr → Expr)
    (turns : Rat → Option Expr) (quarters : Expr → Rat → Expr) (compose : Option Expr) :
    Option Expr :=
  if x.startsNegative then
    let y := s.call f x.negate
    some (if even then y else y.negate)
  else match imaginary? s x with
    | some y => some (imaginary y)
    | none => match halfTurns? x with
      | some (.rational q) => turns q
      | some (.other y) =>
        let z := s.product [y, pi]
        if z.same x then none else some (s.call f z)
      | none => match x with
        | .sum ts => match peelQuarters s ts with
          | some (y, q) => some (quarters y q)
          | none => compose
        | _ => compose

def sinRule (s : Simplifier) (x : Expr) : Option Expr :=
  s.circular .sin false x (fun y => s.product [i, s.call .sinh y]) (fun q => s.sinTurns q x)
    (fun y q =>
      let m := s.piTimes q
      s.sum [s.product [s.call .sin m, s.call .cos y], s.product [s.call .cos m, s.call .sin y]])
    (match x with
      | .call .asin [y] => some y
      | .call .atan [y] => some (s.quotient y (s.sqrt (s.sum [1, s.square y])))
      | .call .acos [y] => some (s.sqrt (s.sub 1 (s.square y)))
      | _ => none)

def cosRule (s : Simplifier) (x : Expr) : Option Expr :=
  s.circular .cos true x (fun y => s.call .cosh y) s.cosTurns
    (fun y q =>
      let m := s.piTimes q
      s.sub (s.product [s.call .cos m, s.call .cos y]) (s.product [s.call .sin m, s.call .sin y]))
    (match x with
      | .call .acos [y] => some y
      | .call .atan [y] => some (s.quotient 1 (s.sqrt (s.sum [1, s.square y])))
      | .call .asin [y] => some (s.sqrt (s.sub 1 (s.square y)))
      | _ => none)

def tanRule (s : Simplifier) (x : Expr) : Option Expr :=
  s.circular .tan false x (fun y => s.product [i, s.call .tanh y]) (fun q => s.tanTurns q x)
    (fun y q => if q.den == 1 then s.call .tan y else (s.call (.named "cot") y).negate)
    (match x with
      | .call .atan [y] => some y
      | .call .asin [y] => some (s.quotient y (s.sqrt (s.sub 1 (s.square y))))
      | .call .acos [y] => some (s.quotient (s.sqrt (s.sub 1 (s.square y))) y)
      | _ => none)

def sinhRule (s : Simplifier) (x : Expr) : Option Expr :=
  match imaginary? s x with
  | some y => some (s.product [i, s.call .sin y])
  | none => if x.startsNegative then some (s.call .sinh x.negate).negate else none

def coshRule (s : Simplifier) (x : Expr) : Option Expr :=
  match imaginary? s x with
  | some y => some (s.call .cos y)
  | none => if x.startsNegative then some (s.call .cosh x.negate) else none

def tanhRule (s : Simplifier) (x : Expr) : Option Expr :=
  match imaginary? s x with
  | some y => some (s.product [i, s.call .tan y])
  | none => if x.startsNegative then some (s.call .tanh x.negate).negate else none

/-- Built of exact numbers and roots alone. -/
def isAlgebraic : Expr → Bool
  | num n => n.isRat
  | .sum ts => ts.all fun t => t.factors.all isRoot
  | .product fs => fs.all isRoot
  | x => isRoot x
where
  isRoot : Expr → Bool
    | num n => n.isRat
    | .power (num b) (num q) => b.isRat && q.isRat
    | .power (.sum ts) (num q) => q.isRat && ts.all fun t => t.factors.all isSimpleRoot
    | .sum ts => ts.all fun t => t.factors.all isSimpleRoot
    | _ => false
  isSimpleRoot : Expr → Bool
    | num n => n.isRat
    | .power (num b) (num q) => b.isRat && q.isRat
    | _ => false

/-- The multiple of the half turn that an angle is, among the given parts of it. -/
def knownAngle? (parts : List Rat) (angle : Float) : Option Rat :=
  parts.find? fun q => (Decimal.nearestRat q * Decimal.halfTurn - angle).abs < 1e-14

def arcParts : List Rat := [
  mkRat 1 3, mkRat 1 4, mkRat 1 5, mkRat 2 5, mkRat 1 6, mkRat 1 8, mkRat 3 8, mkRat 1 10,
  mkRat 3 10, mkRat 1 12, mkRat 5 12]

/-- The exact angle of a real algebraic value under an inverse function. -/
def exactAngle (f : Fn) (x : Expr) : Option Rat :=
  if x.hasSymbol || !isAlgebraic x then none
  else (x.approx.bind f.approx).bind fun a =>
    if a.im != 0 then none
    else if a.re < 0 then (knownAngle? arcParts (-a.re)).map (-·)
    else knownAngle? arcParts a.re

/-- The angle of a constant sine, cosine or tangent brought into the range of the inverse. -/
def principal (s : Simplifier) (f : Fn) (outer x : Expr) : Option Expr :=
  if x.hasSymbol || !x.isReal then none
  else match outer.approx.bind f.approx, x.approx with
    | some target, some angle =>
      let turns (sign : Float) : Float := (target.re - sign * angle.re) / Decimal.halfTurn
      let near (t : Float) : Bool := (t - (t + 0.5).floor).abs < 1e-9
      let whole (t : Float) : Int :=
        let r := (t + 0.5).floor
        if r < 0 then -(r.abs.toUInt64.toNat : Int) else r.toUInt64.toNat
      if near (turns 1) then some (s.sum [x, s.piTimes (whole (turns 1))])
      else if near (turns (-1)) then some (s.sum [x.negate, s.piTimes (whole (turns (-1)))])
      else none
    | _, _ => none

def asinRule (s : Simplifier) (x : Expr) : Option Expr :=
  if x.isOne then some (s.piTimes half)
  else if x.same pole then some pole
  else if x.startsNegative then some (s.call .asin x.negate).negate
  else match exactAngle .asin x with
    | some q => some (s.piTimes q)
    | none => match x with
      | .call .sin [y] => s.principal .asin x y
      | .call .cos [y] =>
        if y.hasSymbol then none else some (s.sub (s.piTimes half) (s.call .acos x))
      | _ => none

def acosRule (s : Simplifier) (x : Expr) : Option Expr :=
  if x.isOne then some 0
  else if x.same (ofInt (-1)) then some pi
  else if x.isZero then some (s.piTimes half)
  else if x.same pole then some pole
  else match exactAngle .asin x with
    | some q => some (s.piTimes (half - q))
    | none => match x with
      | .call .cos [y] => s.principal .acos x y
      | .call .sin [y] =>
        if y.hasSymbol then none else some (s.sub (s.piTimes half) (s.call .asin x))
      | _ => none

def atanRule (s : Simplifier) (x : Expr) : Option Expr :=
  if x.isOne then some (s.piTimes (mkRat 1 4))
  else if x.startsNegative then some (s.call .atan x.negate).negate
  else match exactAngle .atan x with
    | some q => some (s.piTimes q)
    | none => match x with
      | .call .tan [y] => s.principal .atan x y
      | _ => none

end Simultaneous.Algebra.Simplifier
