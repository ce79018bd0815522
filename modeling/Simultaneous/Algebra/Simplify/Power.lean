import Simultaneous.Algebra.Simplify.Basic
import Simultaneous.Algebra.Wide

/-!
Canonical powers. Powers of numbers are worked out as far as roots allow, whole powers of products
and powers are multiplied out, and other powers only where no branch is crossed.
-/

namespace Simultaneous.Algebra

namespace Simplifier

open Expr

/-- A natural number above one to a positive rational power below any whole one: what comes out of
the root, the roots with smaller denominators, and what stays under it. Nothing when no part of the
number comes out. -/
def rootOf (s : Simplifier) (n : Nat) (q : Rat) : Option Expr :=
  match exactRoot? n q.den with
  | some r => some (ofInt (Int.pow r q.num.natAbs))
  | none =>
    let fs : List (Nat × Nat) := (primeFactors n).map fun (p, k) => (p, k * q.num.natAbs)
    let out : Nat := fs.foldl (fun acc (p, k) => acc * Nat.pow p (k / q.den)) 1
    let rest := fs.filterMap fun (p, k) => if k % q.den == 0 then none else some (p, k % q.den)
    let roots := rest.filter fun (_, k) => Nat.gcd k q.den != 1
    let plain := rest.filter fun (_, k) => Nat.gcd k q.den == 1
    let g : Nat := plain.foldl (fun g f => Nat.gcd g f.2) 0
    let inside : Nat := plain.foldl (fun acc (p, k) => acc * Nat.pow p (k / g)) 1
    if inside == n && out == 1 && roots.isEmpty then none
    else
      let roots := roots.map fun (p, k) => s.power (ofInt p) (ofRat (mkRat k q.den))
      let inner := s.power (ofInt inside) (ofRat (mkRat g q.den))
      some (s.product (ofInt out :: roots ++ [inner]))

/-- Minus one to a rational power that is not whole. -/
def turned (s : Simplifier) (q : Rat) : Option Expr :=
  if q == half then some i
  else if q.den == 2 then some (s.power i (ofInt q.num))
  else
    let whole := q.floor
    if whole == 0 then none
    else
      let rest := s.power (ofInt (-1)) (ofRat (q - whole))
      some (if whole % 2 == 0 then rest else rest.negate)

/-- An integer other than -1, 0, 1 to a rational power. -/
def integerPower (s : Simplifier) (n : Int) (q : Rat) : Option Expr :=
  if q == half && n < 0 then some (s.product [i, s.power (ofInt (-n)) (ofRat q)])
  else if q < 0 then
    let inverse := ofRat (mkRat 1 n.natAbs)
    if n < 0 then some (s.product [s.power (ofInt (-1)) (ofRat q), s.power inverse (ofRat (-q))])
    else some (s.power inverse (ofRat (-q)))
  else (s.rootOf n.natAbs q).map fun r =>
    if n < 0 then s.product [r, s.power (ofInt (-1)) (ofRat q)] else r

/-- A proper fraction to a rational power: the denominator is made rational. -/
def fractionPower (s : Simplifier) (b q : Rat) : Expr :=
  if q < 0 then
    let inverse := ofRat (mkRat b.den b.num.natAbs)
    if b < 0 then s.product [s.power (ofInt (-1)) (ofRat q), s.power inverse (ofRat (-q))]
    else s.power inverse (ofRat (-q))
  else if q.den == 1 then ofRat (Rat.pow b q.num.natAbs)
  else
    let up := q.floor + 1
    let bottom := [s.power (ofInt b.den) (ofRat (up - q)), ofRat (mkRat 1 (Nat.pow b.den up.toNat))]
    if b.num == 1 then s.product bottom
    else s.product (s.power (ofInt b.num) (ofRat q) :: bottom)

/-- A rounded number to a power that is a finite number. -/
def roundedPower (s : Simplifier) (x : Rounded) (n : Number) : Option Expr :=
  match n with
  | .rat q =>
    if q.den == 1 then some (num (.ofRounded (x.zpow q.num)))
    else if x.isNegative && q.num == 1 && q.den % 2 == 1 then
      some (s.product [.power (ofInt (-1)) (ofRat q),
        num (.ofRounded (x.neg.realPow (.ofRat x.prec q)))])
    else byValue (.ofRat x.prec q)
  | .real y => byValue y
  | _ => none
where
  byValue (y : Rounded) : Option Expr :=
    if !x.isNegative then some (num (.ofRounded (x.realPow y)))
    else
      let z := Approx.pow ⟨x.toFloat, 0⟩ ⟨y.toFloat, 0⟩
      let prec := max x.prec y.prec
      match Rounded.ofFloat? prec z.re, Rounded.ofFloat? prec z.im with
      | some re, some im =>
        some (s.sum [num (.ofRounded re), s.product [num (.ofRounded im), i]])
      | _, _ => none

/-- A finite number to a power. -/
def numberPower (s : Simplifier) (b : Number) (x : Expr) : Option Expr :=
  match b, x with
  | .rat b, num (.rat q) =>
    if b == 0 then some (if q < 0 then pole else 0)
    else if b == -1 then
      if q.den == 1 then some (if q.num % 2 == 0 then 1 else ofInt (-1)) else s.turned q
    else if b.den == 1 then s.integerPower b.num q
    else some (s.fractionPower b q)
  | .rat b, num (.real y) =>
    if b == 0 then some (if y.isNegative then pole else 0)
    else s.roundedPower (.ofRat y.prec b) (.real y)
  | .rat b, x =>
    if b == 0 then
      if x.isPositiveConst then some 0
      else if x.isNegativeConst then some pole
      else if x.sign? == some .notReal then some nan
      else match x.coefficient with
        | (n, y) =>
          if n.isNegative then some (s.power pole y)
          else if n.isOne then none
          else some (s.power 0 y)
    else none
  | .real x, num n =>
    if x.isZero then some (if n.isNegative then pole else num (.real x)) else s.roundedPower x n
  | .infinite neg, num n =>
    if n.isNegative then some 0
    else if !neg then some (num (.infinite false))
    else match n.toInt? with
      | some k => some (num (.infinite (k % 2 == 1)))
      | none => none
  | .pole, num n => some (if n.isPositive then pole else if n.isZero then nan else 0)
  | _, _ => none

/-- The imaginary unit to a rational power. -/
def unitPower (q : Rat) : Expr :=
  if q.den == 1 then
    match q.num % 4 with
    | 0 => 1
    | 1 => i
    | 2 => ofInt (-1)
    | _ => i.negate
  else
    let whole := (q / 2).floor
    let rest := Expr.power i (ofRat (q - 2 * whole))
    if whole % 2 == 0 then rest else .product [ofInt (-1), rest]

/-- The factors of a base that may be taken out of a power without crossing a branch, and those that
stay. Two negative numbers lose their signs together; one leaves its sign behind. -/
def separate (fs : List Expr) : List Expr × List Expr :=
  let out := fs.filter isNonneg
  let rest := fs.filter (!·.isNonneg)
  let negative := rest.filter isNegativeConst
  let other := rest.filter (!·.isNegativeConst)
  match negative with
  | [] => (out, other)
  | [n] =>
    if other.isEmpty then (out, [n])
    else match n with
      | num m =>
        if m == .ofInt (-1) then (out, other ++ [n])
        else (out ++ [num m.neg], other ++ [ofInt (-1)])
      | n => (out, other ++ [n])
  | ns =>
    let flipped := ns.map negate
    if ns.length % 2 == 0 then (out ++ flipped, other)
    else (out ++ flipped, other ++ [ofInt (-1)])

/-- A product to a power that is not whole. -/
def spreadPower (s : Simplifier) (fs : List Expr) (x : Expr) : Expr :=
  let (out, rest) := separate fs
  let taken := out.map fun b => match b with
    | .power (num c) (num (.rat q)) => s.power (.power (num c) (num (.rat q))) x
    | b => .power b x
  let kept := if rest.isEmpty then [] else [.power (s.product rest) x]
  if taken.isEmpty then rawProduct kept else s.product (taken ++ kept)

/-- A sum with rounded coefficients to a power: the largest coefficient is taken out. -/
def sumPower (s : Simplifier) (ts : List Expr) (n : Number) : Option Expr :=
  let parts := ts.map coefficient
  let big := parts.foldl (fun m p => if m.lt p.1.abs then p.1.abs else m) (.ofInt (-1))
  let isUnit := n == 1 || n == .ofInt (-1)
  let whole := !(Expr.sum ts).hasSymbol && n.isRat
  if isUnit || whole || !parts.any (·.1.isReal) || !big.isPositive || big.toRat? == some 1 then none
  else
    let scaled := parts.map fun (c, y) =>
      let c' := if c == big then 1 else if c.neg == big then .ofInt (-1)
        else match s.power (num big) (ofInt (-1)) with
          | num r => c.mul r
          | _ => c
      s.product [num c', y]
    some (s.product [s.power (num big) (num n), s.power (s.sum scaled) (num n)])

/-- Half of a whole turn count: the exponent has the denominator two. -/
def isHalves (x : Expr) : Bool :=
  match x with
  | num (.rat q) => q.den == 2
  | _ => false

def isWholeNumber (x : Expr) : Bool :=
  match x with
  | num (.rat q) => q.den == 1
  | _ => false

/-- The sign that a root of a power of a constant takes. -/
def branchSign (b e x : Expr) : Option Expr :=
  match b.approx, e.approx, x with
  | some b, some e, num (.rat q) =>
    let turns := (0.5 - e.re * b.angle / (2 * Decimal.halfTurn)).floor
    let turns : Int := if turns < 0 then -(turns.abs.toUInt64.toNat : Int) else turns.toUInt64.toNat
    some (if (turns * q.num) % 2 == 0 then 1 else ofInt (-1))
  | _, _, _ => none

/-- A power of a power. -/
def powerPower (s : Simplifier) (b e x : Expr) : Option Expr :=
  let joined (b : Expr) := s.power b (s.product [e, x])
  if isWholeNumber x then some (joined b)
  else if e.isReal then
    if e.same (ofInt (-1)) && isHalves x && b.isNegativeConst then
      some (s.product [s.power (ofInt (-1)) x, s.power b.negate (s.product [e, x])])
    else if e.same (ofInt (-1)) && isHalves x && b.isNonneg then
      some (s.power b (s.product [ofInt (-1), x]))
    else
      let even := match e with
        | num (.rat q) => q.den == 1 && q.num % 2 == 0
        | _ => false
      let b := if even && b.isReal then s.call .abs b else b
      let small := match e.approx with
        | some a => a.re.abs < 1
        | none => false
      if small || b.isNonneg then some (joined b)
      else if isHalves x && !b.hasSymbol then
        (branchSign b e x).map fun sign => s.product [sign, joined b]
      else none
  else none

/-- The exponent divided by the logarithm of the base, when it has that divisor. -/
def withoutLogarithm (s : Simplifier) (b x : Expr) : Option Expr :=
  let isInverse : Expr → Bool := fun f => match f with
    | .power (.call .log [y]) (num (.rat q)) => q == -1 && y.same b
    | _ => false
  let fs := x.factors
  if (fs.filter isInverse).length == 1 then some (s.product (fs.filter (!isInverse ·))) else none

/-- A base to an exponent, neither of which settles the power by itself. -/
def basePower (s : Simplifier) (b x : Expr) : Expr :=
  let kept := Expr.power b x
  match (if x.isAtom || isE b then none else s.withoutLogarithm b x) with
  | some y => s.call .exp y
  | none =>
    match b with
    | num n => (s.numberPower n x).getD kept
    | const .e => s.call .exp x
    | const .i => match x with
      | num (.rat q) => unitPower q
      | _ => kept
    | .sum ts => match x with
      | num n => (s.sumPower ts n).getD kept
      | _ => kept
    | .product fs => match x with
      | num (.rat q) =>
        if q.den == 1 then s.product (fs.map fun f => .power f x) else s.spreadPower fs x
      | num (.real _) => s.spreadPower fs x
      | _ => kept
    | .power c e => (s.powerPower c e x).getD kept
    | .call .exp [y] => (s.powerPower Expr.e y x).getD kept
    | .call .abs [y] => match x with
      | num (.rat q) =>
        if q.den == 1 && y.isReal then
          if q.num % 2 == 0 then s.power y x
          else if q != -1 then s.product [s.power y (ofRat (q - 1)), b] else kept
        else kept
      | _ => kept
    | _ => kept

/-- The canonical power. -/
def powerRule (s : Simplifier) (b x : Expr) : Expr :=
  let isVanishing := match b with
    | num n => n.isZero
    | _ => false
  match x with
  | num .pole => nan
  | num .undefined => nan
  | num (.rat q) =>
    if q == 0 then 1
    else if q == 1 then b
    else if q == -1 && isVanishing then pole
    else match b with
      | num .undefined => nan
      | b =>
        if b.isOne then 1
        else if q.den == 1 && !b.hasSymbol && (b.isNum || b.isProduct) && b.startsNegative then
          if q.num % 2 == 0 then s.basePower b.negate x else (s.power b.negate x).negate
        else s.basePower b x
  | x => match b with
    | num .undefined => nan
    | b => if b.isOne then 1 else s.basePower b x

end Simplifier

end Simultaneous.Algebra
