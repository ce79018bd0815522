import Simultaneous.Failure
import Simultaneous.Matrix.Scalar

/-!
Matrices as lists of rows. Operations that need operands of matching sizes fail otherwise; none
changes its operands but rounding, which keeps what it had done when a cell cannot be rounded.
-/

namespace Simultaneous

structure Matrix (α : Type) where
  rows : Nat
  cols : Nat
  cells : List (List α)
  deriving DecidableEq, Repr

/-- A place in a list counted from its start, or from its end if negative. -/
def placeOf? (i : Int) (length : Nat) : Option Nat :=
  if 0 ≤ i then if i < length then some i.toNat else none
  else if 0 ≤ i + length then some (i + length).toNat else none

namespace Matrix

variable {α : Type}

/-- As many rows and columns as the matrix says, and at least one of each. -/
structure WellFormed (m : Matrix α) : Prop where
  rows_pos : 0 < m.rows
  cols_pos : 0 < m.cols
  length_cells : m.cells.length = m.rows
  length_row : ∀ row ∈ m.cells, row.length = m.cols

def replicate (rows cols : Nat) (x : α) : Matrix α :=
  ⟨rows, cols, List.replicate rows (List.replicate cols x)⟩

/-- A matrix with the same number everywhere. -/
def filled (rows cols : Nat) (x : α) : Attempt (Matrix α) :=
  if 0 < rows ∧ 0 < cols then .ok (replicate rows cols x)
  else .error (.matrix (.badSize (toString rows) (toString cols)) false)

/-- A matrix of one column. -/
def column (entries : List α) : Attempt (Matrix α) :=
  if entries.isEmpty then .error (.matrix .notRows false)
  else .ok ⟨entries.length, 1, entries.map fun x => [x]⟩

def diagonal [Scalar α] (n : Nat) : List (List α) :=
  (List.range n).map fun i => (List.range n).map fun j => if i = j then 1 else 0

def identity [Scalar α] (n : Nat) : Attempt (Matrix α) := do
  let m ← filled n n (0 : α)
  return { m with cells := diagonal n }

def isSquare (m : Matrix α) : Bool := m.rows == m.cols

/-- The cell of a row and a column, counted from either end. -/
def get? (m : Matrix α) (i j : Int) : Option α := do
  let i ← placeOf? i m.cells.length
  let row ← m.cells[i]?
  let j ← placeOf? j row.length
  row[j]?

/-- The entries of the first column. -/
def firstColumn (m : Matrix α) : List α := m.cells.filterMap List.head?

/-- Give one cell a new value. -/
def setCell (m : Matrix α) (i j : Nat) (x : α) : Matrix α :=
  { m with cells := m.cells.modify i (·.set j x) }

/-- Replace cells from the left while that succeeds; the first failure ends it. -/
def replaceCells {ε : Type} (f : α → Except ε α) : List α → List α × Option ε
  | [] => ([], none)
  | x :: xs => match f x with
    | .error e => (x :: xs, some e)
    | .ok y =>
      let (ys, e) := replaceCells f xs
      (y :: ys, e)

def replaceRows {ε : Type} (f : α → Except ε α) : List (List α) → List (List α) × Option ε
  | [] => ([], none)
  | row :: rows => match replaceCells f row with
    | (row, some e) => (row :: rows, some e)
    | (row, none) =>
      let (rows, e) := replaceRows f rows
      (row :: rows, e)

/-- Replace all cells row by row; on a failure the cells before it stay replaced. -/
def replaceAll {ε : Type} (f : α → Except ε α) (m : Matrix α) : Matrix α × Option ε :=
  let (cells, e) := replaceRows f m.cells
  ({ m with cells }, e)

def roundCell [Scalar α] (places : Int) (x : α) : Attempt α :=
  match Scalar.rounded? places x with
  | some y => .ok y
  | none => .error (.broken .roundedTooLarge)

/-- Round every cell to decimal places. -/
def toFixed [Scalar α] (places : Int) (m : Matrix α) : Matrix α × Option Failure :=
  m.replaceAll (roundCell places)

def requireSameShape {β : Type} (a : Matrix α) (b : Matrix β) : Attempt Unit :=
  if a.rows ≠ b.rows then .error (.matrix (.rowsDiffer a.rows b.rows) false)
  else if a.cols ≠ b.cols then .error (.matrix (.colsDiffer a.cols b.cols) false)
  else .ok ()

/-- Combine two matrices cell by cell. -/
def combine (f : α → α → α) (a b : Matrix α) : Attempt (Matrix α) := do
  requireSameShape a b
  return ⟨a.rows, a.cols, a.cells.zipWith (List.zipWith f) b.cells⟩

variable [Scalar α]

def add (a b : Matrix α) : Attempt (Matrix α) := combine (· + ·) a b

def sub (a b : Matrix α) : Attempt (Matrix α) := combine (· - ·) a b

/-- The sum of the products of two rows of numbers, from the left. -/
def dot (xs ys : List α) : α := (xs.zipWith (· * ·) ys).foldl (· + ·) 0

/-- The columns of a list of rows of the given width. -/
def columnsOf (width : Nat) (rows : List (List α)) : List (List α) :=
  (List.range width).map fun j => rows.map fun row => row.getD j 0

def mul (a b : Matrix α) : Attempt (Matrix α) :=
  if a.cols ≠ b.rows then .error (.matrix (.cannotMultiply a.rows a.cols b.rows b.cols) false)
  else .ok ⟨a.rows, b.cols,
    a.cells.map fun row => (columnsOf b.cols b.cells).map (dot row)⟩

end Matrix

end Simultaneous
