import Simultaneous.Algebra.Approx

/-!
Powers, exponentials and factorials of rounded numbers, also beyond the range of doubles: a double
gives the digits, and the power of two is kept apart.
-/

namespace Simultaneous.Algebra

/-- A positive rounded number to a rounded power: within the doubles by their power, else by way of
the binary logarithm. -/
def Rounded.realPow (x y : Rounded) : Rounded :=
  let prec := max x.prec y.prec
  let z := Float.pow x.toFloat y.toFloat
  match Rounded.ofFloat? prec z with
  | some r =>
    if 1e-300 < z && x.toFloat.isFinite && 1e-300 < x.toFloat then r else byLogarithm prec
  | none => byLogarithm prec
where
  byLogarithm (prec : Nat) : Rounded :=
    let bits := Rounded.bitLength x.mant.natAbs
    let fraction : Rounded := { x with exp := -(bits : Int) }
    let log := Float.log2 fraction.toFloat + Float.ofInt (x.exp + bits)
    let l := y.toFloat * log
    let whole := l.floor
    if 1e9 < whole.abs then Rounded.make prec 0 0
    else
      let n : Int := if whole < 0 then -(whole.abs.toUInt64.toNat : Int) else whole.toUInt64.toNat
      match Rounded.ofFloat? prec (Float.exp2 (l - whole)) with
      | some r => Rounded.make prec r.mant (r.exp + n)
      | none => Rounded.make prec 0 0

/-- The exponential beyond the range of doubles. -/
def wideExp (prec : Nat) (x : Rounded) : Rounded :=
  Rounded.realPow (.make prec 6121026514868073 (-51)) { x with prec := prec }

/-- The factorial of a large number by descent to smaller ones. -/
def wideFactorial (prec : Nat) : Nat → Rounded → Option Rounded
  | 0, _ => none
  | fuel + 1, x =>
    if x.toFloat < 150 then Rounded.ofFloat? prec (Decimal.gamma (x.toFloat + 1))
    else (wideFactorial prec fuel (.add x (.make prec (-1) 0))).map (·.mul x)

/-- A function of a rounded real number, where doubles do not reach. -/
def wideValue? (f : Fn) (prec : Nat) (x : Rounded) : Option Rounded :=
  let half (r : Rounded) : Rounded := { r with exp := r.exp - 1 }
  match f with
  | .exp => some (wideExp prec x)
  | .sinh => some (half (if x.isNegative then (wideExp prec x.neg).neg else wideExp prec x))
  | .cosh => some (half (wideExp prec x.abs))
  | .factorial => if x.isNegative then none else wideFactorial prec 100000 x
  | .log => if x.isNegative then none else
      let bits := Rounded.bitLength x.mant.natAbs
      Rounded.ofFloat? prec (Float.log ({ x with exp := -(bits : Int) } : Rounded).toFloat +
        0.6931471805599453 * Float.ofInt (x.exp + bits))
  | _ => none

end Simultaneous.Algebra
