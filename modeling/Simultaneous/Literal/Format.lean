import Simultaneous.Literal.Basic
import Simultaneous.Decimal.Significant

/-!
Numbers for display: a value to a number of significant digits. What is no number, or a count of
digits that makes no sense, leaves the value's own text.
-/

namespace Simultaneous

open Decimal

/-- No double has more significant digits than this. -/
def mostDigits : Nat := 1100

/-- Counts of digits beyond this are refused. -/
def maxPrecision : Int := 2147483647

/-- The whole number that a count is given as. -/
def Literal.count? : Literal → Option Int
  | .int n => some n
  | .bool b => some (if b then 1 else 0)
  | .float x => (toRat? x).map fun q => if q < 0 then -((-q).floor) else q.floor
  | .str s => (readInt s.toList).toOption
  | _ => none

/-- A double to a count of significant digits, if that many can be shown. -/
def significantText? (precision : Int) (x : Float) : Option String :=
  if precision < 0 || maxPrecision < precision then none
  else some (general (min precision.toNat mostDigits) x)

/-- The text of a value to `precision` digits, to `fallback` digits where none are given. -/
def formatNumber (fallback : Int) (v : Literal) (precision : Literal) : String :=
  let count := match precision with
    | .null => some fallback
    | p => p.count?
  match count, v.toFloat with
  | some n, .ok x => (significantText? n x).getD v.plain
  | _, _ => v.plain

end Simultaneous
