import Simultaneous.Literal.Format
import Simultaneous.Matrix.Given

/-!
The text of a matrix of doubles: a literal that reads back as the same matrix, or a grid with
columns of one width.
-/

namespace Simultaneous.Matrix

open Decimal Text

/-- The number of digits at the start of a text, and what follows them. -/
def leadingDigits (s : List Char) : List Char × List Char :=
  (s.takeWhile isDigit, s.dropWhile isDigit)

/-- The number of significant digits that a precision is given as, read from its text. -/
def precisionOf (v : Literal) : Except Breakage Nat :=
  let (digits, rest) := leadingDigits v.plain.toList
  if digits.isEmpty then .error .missingPrecision
  else
    let n := digits.foldl (fun n c => 10 * n + (digitValue? c).getD 0) 0
    if Nat.pow 2 63 ≤ n then .error .hugePrecision
    else if !rest.isEmpty then .error .badPrecision
    else if maxPrecision < (n : Int) then .error .precisionTooBig
    else .ok n

def digitsText (precision : Literal) (x : Float) : Attempt String :=
  match precisionOf precision with
  | .error b => .error (.broken b)
  | .ok n => .ok (general (min n mostDigits) x)

/-- A number in a literal, in full or to a precision; numbers that are not finite have names. -/
def literalCell (precision : Literal) (x : Float) : Attempt String :=
  if x.isNaN then .ok "NaN"
  else if x.isInf then .ok (if 0 < x then "Infinity" else "-Infinity")
  else match precision with
    | .null => .ok (brief x)
    | p => digitsText p x

def bracketed (parts : List String) : String := "[" ++ join ", " parts ++ "]"

/-- The matrix as a literal. -/
def literalText (precision : Literal) (m : Matrix Float) : Attempt String := do
  let rows ← m.cells.mapM fun row => row.mapM (literalCell precision)
  return bracketed (rows.map bracketed)

/-- The matrix as a grid, one row a line. -/
def gridText (precision : Literal) (m : Matrix Float) : Attempt String := do
  let rows ← m.cells.mapM fun row => row.mapM (digitsText precision)
  let width := (rows.flatten.map String.length).foldl max 0
  return join "\n" (rows.map fun row => join "  " (row.map (padLeft width)))

/-- The text of a matrix; a grid has a precision of its own where none is given. -/
def text (settings : Settings) (asLiteral : Bool) (precision : Literal) (m : Matrix Float) :
    Attempt String :=
  if asLiteral then m.literalText precision
  else match precision with
    | .null => m.gridText (.int settings.precision)
    | p => m.gridText p

/-- The text that shows a matrix among other values. -/
def shown (m : Matrix Float) : String :=
  "Matrix(" ++ toString m.rows ++ "x" ++ toString m.cols ++ ", " ++ m.toLiteral.shown ++ ")"

end Simultaneous.Matrix
