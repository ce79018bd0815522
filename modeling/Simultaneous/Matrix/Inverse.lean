import Simultaneous.Matrix.Basic

/-!
Inversion by elimination. The matrix stands beside the identity; each column in turn is reduced to a
unit column with the largest remaining entry as pivot, and the identity becomes the inverse.
-/

namespace Simultaneous.Matrix

variable {α : Type} [Scalar α]

/-- The entry of a list of rows, zero where there is none. -/
def entry (work : List (List α)) (r c : Nat) : α := (work.getD r []).getD c 0

/-- The place of the largest size among `best` and a list of places; the first one on a tie. -/
def largest (size : Nat → α) : Nat → List Nat → Nat
  | best, [] => best
  | best, r :: rs => largest size (if Scalar.less (size best) (size r) then r else best) rs

/-- The row from `c` on with the largest entry in column `c`. -/
def pivotRow (work : List (List α)) (c : Nat) : Nat :=
  largest (fun r => Scalar.magnitude (entry work r c)) c
    ((List.range work.length).drop (c + 1))

def swapRows (i j : Nat) (work : List (List α)) : List (List α) :=
  (work.set i (work.getD j [])).set j (work.getD i [])

/-- Divide a row by one of its entries. -/
def normalize (row : List α) (pivot : α) : Attempt (List α) :=
  row.mapM fun x => match Scalar.over? x pivot with
    | some y => .ok y
    | none => .error (.broken .floatDivisionByZero)

/-- Take the multiple of the pivot row from a row that makes its entry in column `c` vanish. -/
def clear (c : Nat) (pivotRow row : List α) : List α :=
  let factor := row.getD c 0
  if Scalar.isZero factor then row
  else row.zipWith (fun x y => x - factor * y) pivotRow

/-- Reduce column `c` to a unit column. -/
def eliminate (tolerance : α) (work : List (List α)) (c : Nat) : Attempt (List (List α)) :=
  let p := pivotRow work c
  if Scalar.less (Scalar.magnitude (entry work p c)) tolerance then
    .error (.matrix (.noPivot c) false)
  else do
    let work := swapRows c p work
    let unit ← normalize (work.getD c []) (entry work c c)
    return work.mapIdx fun r row => if r = c then unit else clear c unit row

/-- The matrix with the identity beside it. -/
def augmented (m : Matrix α) : List (List α) := m.cells.zipWith (· ++ ·) (diagonal m.rows)

/-- The inverse; pivots smaller than the tolerance count as zero. -/
def inv (tolerance : α) (m : Matrix α) : Attempt (Matrix α) :=
  if m.rows ≠ m.cols then .error (.matrix (.notSquare m.rows m.cols) false)
  else do
    let work ← (List.range m.rows).foldlM (eliminate tolerance) (augmented m)
    return ⟨m.rows, m.rows, work.map (·.drop m.rows)⟩

end Simultaneous.Matrix
