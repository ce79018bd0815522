import Simultaneous.Matrix.Store

/-!
Named matrices as they lie in memory. A matrix knows its rows by their addresses: an operation puts
its result into rows of its own, and rounding and setting overwrite rows where they are, for all
that know them.
-/

namespace Simultaneous.Matrix

/-- A matrix by the addresses of its rows. -/
structure Layout where
  rows : Nat
  cols : Nat
  addresses : List Nat

structure Heap extends Directory Layout where
  /-- Rows by their address. -/
  lines : List (List Float) := []

/-- The matrix is blank at first, and its rows are then filled where they are. -/
def Source.isFilled : Source → Bool
  | identity _ | random .. => true
  | _ => false

namespace Heap

def line (h : Heap) (address : Nat) : List Float := h.lines.getD address []

/-- The matrix that is laid out so. -/
def read (h : Heap) (l : Layout) : Matrix Float := ⟨l.rows, l.cols, l.addresses.map h.line⟩

/-- The matrices under their names. -/
def matrices (h : Heap) : Directory (Matrix Float) := h.toDirectory.map h.read

/-- Put rows behind all others; their addresses. -/
def allocate (h : Heap) (rows : List (List Float)) : Heap × List Nat :=
  ({ h with lines := h.lines ++ rows }, List.range' h.lines.length rows.length)

def overwrite (h : Heap) (address : Nat) (row : List Float) : Heap :=
  { h with lines := h.lines.set address row }

/-- Overwrite one row after the other. -/
def overwriteAll (h : Heap) : List Nat → List (List Float) → Heap
  | a :: as, row :: rows => (h.overwrite a row).overwriteAll as rows
  | _, _ => h

/-- A matrix in rows of its own. -/
def lay (h : Heap) (m : Matrix Float) : Heap × Layout :=
  let (h, addresses) := h.allocate m.cells
  (h, ⟨m.rows, m.cols, addresses⟩)

/-- A matrix in rows of its own that are blank before they are filled. -/
def layBlank (h : Heap) (m : Matrix Float) : Heap × Layout :=
  let (h, l) := h.lay (replicate m.rows m.cols 0)
  (h.overwriteAll l.addresses m.cells, l)

/-- Keep a new matrix under a name, if it is to have one. -/
def keep (target : Option String) : Heap × Layout → Heap
  | (h, l) => { h with toDirectory := h.toDirectory.keep target l }

/-- Give one cell a new value where it is. -/
def write (h : Heap) (l : Layout) (r c : Nat) (x : Float) : Heap :=
  match l.addresses[r]? with
  | none => h
  | some a => h.overwrite a ((h.line a).set c x)

/-- Round rows where they are, cell by cell; the first failure ends it. -/
def roundRows (precision : Literal) : List Nat → Heap → Heap × Option Failure
  | [], h => (h, none)
  | a :: as, h => match replaceCells (Store.rounding precision) (h.line a) with
    | (row, some f) => (h.overwrite a row, some f)
    | (row, none) => roundRows precision as (h.overwrite a row)

def deliver (h : Heap) (target : Option String) (r : Attempt (Matrix Float)) :
    Heap × Attempt (Matrix Float) :=
  match r with
  | .error f => (h, .error f)
  | .ok m => (keep target (h.lay m), .ok m)

/-- Carry out a command; the result goes under the target name, if there is one. -/
def apply (settings : Settings) (h : Heap) (target : Option String) :
    Command → Heap × Attempt (Matrix Float)
  | .build source => match source.matrix with
    | .error f => (h, .error f)
    | .ok m => (keep target (if source.isFilled then h.layBlank m else h.lay m), .ok m)
  | .copy a => match h.demand "copy" a with
    | .error f => (h, .error f)
    | .ok (_, l) => (keep target (h.lay (h.read l)), .ok (h.read l))
  | .operate op a b => h.deliver target (h.matrices.result settings op a b)
  | .combine op a b => match h.operand a with
    | .error f => (h, .error f)
    | .ok none => (h, .error (.broken (.noOperation op.symbol "NoneType" (h.kindOf b))))
    | .ok (some _) => h.deliver target (h.matrices.result settings op.operation a b)
  | .toFixed a precision => match h.demand "to_fixed" a with
    | .error f => (h, .error f)
    | .ok (n, l) => match roundRows precision l.addresses h with
      | (h, some f) => (h, .error f)
      | (h, none) => ({ h with toDirectory := h.bind target n }, .ok (h.read l))
  | .set a i j value => match h.demand "set" a with
    | .error f => (h, .error f)
    | .ok (_, l) => match value.toFloat with
      | .error e => (h, .error (.broken (.notFloat e)))
      | .ok x => match Store.place (h.read l) i j .storeOutOfRange with
        | .error f => (h, .error f)
        | .ok (r, c, _) => (h.write l r c x, .ok ((h.write l r c x).read l))

/-- Carry out commands one after the other, whether they succeed or not. -/
def run (h : Heap) (steps : List Step) : Heap :=
  steps.foldl (fun h step => (h.apply step.settings step.target step.command).1) h

end Heap

end Simultaneous.Matrix
