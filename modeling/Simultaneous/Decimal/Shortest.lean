import Simultaneous.Decimal.Binary

/-!
The shortest decimal that reads back as a given double, and its text: positional for exponents from
-4 to 15, otherwise with an exponent of at least two digits; a whole number keeps `.0`.
-/

namespace Simultaneous.Decimal

/-- The reals that round to `mant * 2 ^ exp`, as numerators over one denominator. -/
structure Interval where
  low : Nat
  value : Nat
  high : Nat
  den : Nat
  closed : Bool

def Binary.interval (b : Binary) : Interval :=
  let up := Nat.pow 2 (b.exp - 2).toNat
  let den := Nat.pow 2 (2 - b.exp).toNat
  let gap := if b.mant == Nat.pow 2 52 && b.exp != -1074 then 1 else 2
  ⟨(4 * b.mant - gap) * up, 4 * b.mant * up, (4 * b.mant + 2) * up, den, b.mant % 2 == 0⟩

/-- `c * 10 ^ p` lies in the interval. -/
def Interval.holds (i : Interval) (c : Nat) (p : Int) : Bool :=
  let x := if 0 ≤ p then c * Nat.pow 10 p.toNat * i.den else c * i.den
  let scale := if 0 ≤ p then 1 else Nat.pow 10 (-p).toNat
  if i.closed then i.low * scale ≤ x && x ≤ i.high * scale
  else i.low * scale < x && x < i.high * scale

/-- The point of the grid of `10 ^ p` nearest to the value, if one lies in the interval. -/
def Interval.onGrid? (i : Interval) (p : Int) : Option Nat :=
  let (c, r, d) := floorUnits i.value i.den p
  let down := i.holds c p
  let up := i.holds (c + 1) p
  if down && up then some (if 2 * r < d || (2 * r == d && c % 2 == 0) then c else c + 1)
  else if down then some c
  else if up then some (c + 1)
  else none

/-- Try the grids of `digits`, `digits + 1`, … significant digits. -/
def Interval.search (i : Interval) (k : Int) : Nat → Nat → Nat × Int
  | 0, digits => significant i.value i.den digits
  | fuel + 1, digits => match i.onGrid? (k - digits) with
    | some c => (c, k - digits)
    | none => i.search k fuel (digits + 1)

/-- The digits of a number with the zeros at the end removed; `fuel` bounds their count. -/
def dropZeros : Nat → Nat → Int → Nat × Int
  | 0, c, p => (c, p)
  | fuel + 1, c, p => if c != 0 && c % 10 == 0 then dropZeros fuel (c / 10) (p + 1) else (c, p)

/-- The shortest digits of a positive double and the power of ten of the last one. -/
def Binary.shortest (b : Binary) : Nat × Int :=
  let i := b.interval
  let (c, p) := i.search (magnitude i.value i.den) 17 1
  dropZeros 20 c p

/-- How numbers are laid out in text. -/
structure Layout where
  /-- Positional notation reaches up to this exponent. -/
  fixedBelow : Int
  /-- Positional notation starts at this exponent. -/
  fixedFrom : Int
  /-- A whole number in positional notation ends in `.0`. -/
  keepPoint : Bool

def exponentText (e : Int) : String :=
  let n := e.natAbs
  (if e < 0 then "e-" else "e+") ++ (if n < 10 then "0" else "") ++ toString n

/-- Write the digits `c`, the last of which counts `10 ^ p`. -/
def layOut (l : Layout) (c : Nat) (p : Int) : String :=
  let ds := (toString c).toList
  let e := p + ds.length - 1
  if l.fixedFrom ≤ e && e < l.fixedBelow then
    if e < 0 then "0." ++ String.ofList (List.replicate ((-e).toNat - 1) '0' ++ ds)
    else if 0 ≤ p then
      String.ofList (ds ++ List.replicate p.toNat '0') ++ (if l.keepPoint then ".0" else "")
    else
      String.ofList (ds.take (e.toNat + 1)) ++ "." ++ String.ofList (ds.drop (e.toNat + 1))
  else
    String.ofList (ds.take 1) ++ (if ds.length == 1 then "" else ".") ++
      String.ofList (ds.drop 1) ++ exponentText e

/-- The shortest text of a double that reads back as the same one. -/
def shortestIn (l : Layout) (x : Float) : String :=
  match ofFloat? x with
  | none => if x.isNaN then "nan" else if x < 0 then "-inf" else "inf"
  | some b =>
    (if b.neg then "-" else "") ++
      if b.mant == 0 then (if l.keepPoint then "0.0" else "0") else
        let (c, p) := b.shortest
        layOut l c p

/-- Numbers in answers: positional below ten to the sixteenth, and a point in every one. -/
def plainLayout : Layout := ⟨16, -4, true⟩

/-- The same without a point in whole numbers. -/
def briefLayout : Layout := ⟨16, -4, false⟩

def shortest (x : Float) : String := shortestIn plainLayout x

def brief (x : Float) : String := shortestIn briefLayout x

end Simultaneous.Decimal
