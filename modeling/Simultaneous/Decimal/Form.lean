import Simultaneous.Decimal.Significant

/-!
Doubles in the three forms of writing: to a number of places after the point, with an exponent, and
to a number of significant digits. Signs are left out.
-/

namespace Simultaneous.Decimal

inductive Form
  | places
  | exponent
  | digits
  deriving DecidableEq, Repr

/-- The digits of `c`, the last `n` of them after the point. A point that nothing follows is left
out unless `always` is set. -/
def pointed (n : Nat) (always : Bool) (c : Nat) : String :=
  let ds := Nat.toDigits 10 c
  let ds := List.replicate (n + 1 - ds.length) '0' ++ ds
  String.ofList (ds.take (ds.length - n) ++ (if n = 0 && !always then [] else ['.']) ++
    ds.drop (ds.length - n))

def Binary.placesText (b : Binary) (places : Nat) (always : Bool) : String :=
  let (n, d) := b.ratio
  pointed places always (roundDiv (n * Nat.pow 10 places) d)

def Binary.exponentText (b : Binary) (places : Nat) (always : Bool) : String :=
  let (n, d) := b.ratio
  let (c, p) := if b.mant == 0 then (0, -(places : Int)) else significant n d (places + 1)
  pointed places always c ++ Decimal.exponentText (p + places)

/-- To `digits` significant digits, at least one; zeros at the end are kept with `always` only. -/
def Binary.digitsText (b : Binary) (digits : Nat) (always : Bool) : String :=
  let digits := max digits 1
  let (n, d) := b.ratio
  let (c, p) := if b.mant == 0 then (0, 1 - (digits : Int)) else significant n d digits
  let e := p + digits - 1
  if always then
    if -4 ≤ e && e < digits then pointed (digits - 1 - e).toNat true c
    else pointed (digits - 1) true c ++ Decimal.exponentText e
  else if c == 0 then "0"
  else
    let (c, p) := dropZeros digits c p
    layOut (generalLayout digits) c p

def Binary.textIn (b : Binary) : Form → Nat → Bool → String
  | .places => b.placesText
  | .exponent => b.exponentText
  | .digits => b.digitsText

end Simultaneous.Decimal
