import Simultaneous.Decimal.Places
import Simultaneous.Decimal.Significant

/-!
The numbers that matrices and iterations are made of: doubles, and exact rationals beside them.
-/

namespace Simultaneous

class Scalar (α : Type) extends Add α, Sub α, Mul α, Zero α, One α where
  magnitude : α → α
  less : α → α → Bool
  isZero : α → Bool
  /-- The quotient, unless the divisor is zero. -/
  over? : α → α → Option α
  /-- The number to so many decimal places, where it has one. -/
  rounded? : Int → α → Option α
  /-- Some change is larger than this threshold. -/
  exceedable : α → Bool
  /-- The number to three digits. -/
  text : α → String

namespace Scalar

instance : Scalar Float where
  zero := 0
  one := 1
  magnitude := Float.abs
  less x y := x < y
  isZero x := x == 0
  over? x y := if y == 0 then none else some (x / y)
  rounded? places x := (Decimal.roundPlaces? x places).map (· + 0)
  exceedable x := x < Decimal.infinity false
  text := Decimal.general 3

/-- A rational to so many decimal places, a tie to the even neighbour. -/
def roundRat (places : Int) (q : Rat) : Rat :=
  let scale : Rat := if 0 ≤ places then Rat.pow 10 places.toNat else 1 / Rat.pow 10 (-places).toNat
  let x := q * scale
  let n := Decimal.roundDiv x.num.natAbs x.den
  (if x.num < 0 then -(n : Rat) else (n : Rat)) / scale

instance : Scalar Rat where
  zero := 0
  one := 1
  magnitude x := if x < 0 then -x else x
  less x y := x < y
  isZero x := x == 0
  over? x y := if y = 0 then none else some (x / y)
  rounded? places x := some (roundRat places x)
  exceedable _ := true
  text x := Decimal.general 3 (Decimal.nearestRat x)

end Scalar

end Simultaneous
