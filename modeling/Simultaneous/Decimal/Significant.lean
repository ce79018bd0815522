import Simultaneous.Decimal.Shortest

/-!
Doubles to a given number of significant digits: positional while the exponent is at least -4 and
below the number of digits, zeros at the end dropped.
-/

namespace Simultaneous.Decimal

def generalLayout (digits : Nat) : Layout := ⟨digits, -4, false⟩

/-- The text of `x` with `digits` significant digits; zero digits count as one. -/
def general (digits : Nat) (x : Float) : String :=
  let digits := max digits 1
  match ofFloat? x with
  | none => if x.isNaN then "nan" else if x < 0 then "-inf" else "inf"
  | some b =>
    (if b.neg then "-" else "") ++
      if b.mant == 0 then "0" else
        let (n, d) := b.ratio
        let (c, p) := significant n d digits
        let (c, p) := dropZeros digits c p
        layOut (generalLayout digits) c p

end Simultaneous.Decimal
