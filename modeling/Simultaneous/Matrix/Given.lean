import Simultaneous.Literal.Reader
import Simultaneous.Matrix.Basic
import Simultaneous.Random.Twister
import Simultaneous.Settings

/-!
Matrices from data: from sizes and a fill, from a list of rows, from a written literal, and from a
random stream. Data are checked for their shape before any cell is read.
-/

namespace Simultaneous

/-- The whole number above zero that a size is given as; truth values do not count. -/
def Literal.size? : Literal → Option Nat
  | .int n => if 0 < n then some n.toNat else none
  | _ => none

namespace Matrix

def fault {α : Type} (f : MatrixFault) : Attempt α := .error (.matrix f false)

/-- A fill that is no number is reported as given; one beyond the doubles breaks. -/
def fillValue (fill : Literal) : Attempt Float :=
  match fill.toFloat with
  | .ok x => .ok x
  | .error .tooLarge => .error (.broken (.notFloat .tooLarge))
  | .error _ => fault (.badFill fill.shown)

/-- The two sizes that are given. -/
def sizes (rows cols : Literal) : Attempt (Nat × Nat) :=
  match rows.size?, cols.size? with
  | some r, some c => .ok (r, c)
  | _, _ => fault (.badSize rows.shown cols.shown)

def ofSize (rows cols fill : Literal) : Attempt (Matrix Float) := do
  let (r, c) ← sizes rows cols
  let x ← fillValue fill
  return replicate r c x

def identityOfSize (n : Literal) : Attempt (Matrix Float) := do
  let (r, _) ← sizes n n
  identity r

/-- The double of a cell; one beyond the doubles breaks. -/
def cellValue (v : Literal) : Attempt Float :=
  match v.toFloat with
  | .ok x => .ok x
  | .error .tooLarge => .error (.broken (.notFloat .tooLarge))
  | .error e => fault (.badCell e)

/-- The cells of a row that has the same length as the first one. -/
def rowCells (width : Nat) : Literal → Attempt (List Literal)
  | .list cells => if cells.length = width then .ok cells else fault .ragged
  | _ => fault .emptyRow

/-- The cells of a list of rows of one length, none of them empty. -/
def gridOf : Literal → Attempt (List (List Literal))
  | .list [] => fault .notRows
  | .list (first :: rest) => match first with
    | .list [] => fault .emptyRow
    | .list cells => (first :: rest).mapM (rowCells cells.length)
    | _ => fault .emptyRow
  | _ => fault .notRows

/-- The matrix of a list of rows. -/
def ofLiteral (v : Literal) : Attempt (Matrix Float) := do
  let grid ← gridOf v
  let cells ← grid.mapM fun row => row.mapM cellValue
  return ⟨cells.length, (cells.headD []).length, cells⟩

/-- A matrix as a list of rows. -/
def toLiteral (m : Matrix Float) : Literal := .list (m.cells.map fun row => .list (row.map .float))

/-- What a list of entries is given as: a list, the characters of a text, or the names of a record.
-/
def entriesOf : Literal → Attempt (List Literal)
  | .list items => .ok items
  | .str s => .ok (s.toList.map fun c => .str (String.singleton c))
  | .record fields => .ok (fields.map fun (k, _) => .str k)
  | v => .error (.broken (.notIterable v.kind))

/-- A matrix of one column. -/
def columnOf (entries : Literal) : Attempt (Matrix Float) := do
  let items ← entriesOf entries
  ofLiteral (.list (items.map fun v => .list [v]))

/-- A literal on one line. -/
def flattened (text : String) : List Char :=
  Text.trim (text.toList.filter fun c => c != '\r' && c != '\n')

/-- The matrix of a written literal. -/
def parse (text : String) : Attempt (Matrix Float) :=
  if (Text.trim text.toList).isEmpty then fault .missing
  else
    let s := flattened text
    match Literal.read s with
    | .ok v => ofLiteral v
    | .error m =>
      match m.fault with
      | .nestedTooDeep during => .error (.broken (.nestedTooDeep during))
      | _ => fault (.badLiteral (m.message s))

/-- Rows of the given width filled from a stream. -/
def drawRows (width : Nat) (cell : Float → Float) :
    Nat → Random.Twister → List (List Float) × Random.Twister
  | 0, t => ([], t)
  | n + 1, t =>
    let (us, t) := t.units width
    let (rows, t) := drawRows width cell n t
    (us.map cell :: rows, t)

/-- A square matrix of random numbers between two bounds. -/
def random (size : Literal) (low high : Float) (t : Random.Twister) :
    Attempt (Matrix Float) × Random.Twister :=
  match sizes size size with
  | .error f => (.error f, t)
  | .ok (n, _) =>
    let (cells, t) := drawRows n (fun u => low + u * (high - low)) n t
    (.ok ⟨n, n, cells⟩, t)

end Matrix

end Simultaneous
