import Simultaneous.Decimal.Binary

/-!
Rounding a double to decimal places, done on the exact value: the nearest multiple of the place, a
tie to the even one, then the nearest double.
-/

namespace Simultaneous.Decimal

/-- `x` rounded to `places` decimals, or nothing when the rounded value is beyond the doubles.
Past 323 places nothing changes, and left of the 308th digit before the point all is zero. -/
def roundPlaces? (x : Float) (places : Int) : Option Float :=
  match ofFloat? x with
  | none => some x
  | some b =>
    if 323 < places then some x
    else if places < -308 then some (nearest b.neg 0 1)
    else
      let (n, d) := b.ratio
      let y :=
        if 0 ≤ places then
          let scale := Nat.pow 10 places.toNat
          nearest b.neg (roundDiv (n * scale) d) scale
        else
          let scale := Nat.pow 10 (-places).toNat
          nearest b.neg (roundDiv n (d * scale) * scale) 1
      if y.isInf then none else some y

end Simultaneous.Decimal
