import Simultaneous.Matrix.Calculator
import Simultaneous.Matrix.Text

/-!
Named matrices. A name refers to an object, and rounding hands on the object it has changed, so that
two names can refer to one object; every other operation makes a new one. An undefined number equals
only itself, which is known by where it comes from.
-/

namespace Simultaneous.Matrix

/-- An operand: the name of an object, or none. -/
abbrev Operand := Option String

/-- Objects by their number, and the object that each name refers to. -/
structure Directory (β : Type) where
  objects : List β := []
  names : List (String × Nat) := []

namespace Directory

variable {β γ : Type} (d : Directory β)

/-- The number of the object that a name refers to. -/
def number? (name : String) : Option Nat := (d.names.find? (·.1 == name)).map (·.2)

/-- The number and the object of a name. -/
def find? (name : String) : Option (Nat × β) := do
  let n ← d.number? name
  let o ← d.objects[n]?
  return (n, o)

/-- The object of an operand, nothing for no operand; an unknown name breaks. -/
def operand : Operand → Attempt (Option (Nat × β))
  | none => .ok none
  | some name => match d.find? name with
    | some o => .ok (some o)
    | none => .error (.broken (.missingKey (Text.quoted name)))

/-- The object of an operand that has to exist for what is asked of it. -/
def demand (ability : String) (a : Operand) : Attempt (Nat × β) := do
  match ← d.operand a with
  | some o => return o
  | none => .error (.broken (.noAttribute "NoneType" ability))

/-- Let a name, if there is one, refer to an object. -/
def bind (target : Option String) (number : Nat) : Directory β :=
  match target with
  | none => d
  | some name => { d with names := (name, number) :: d.names.filter (·.1 != name) }

/-- A new object under a name, if it is to have one. -/
def keep (target : Option String) (o : β) : Directory β :=
  match target with
  | none => d
  | some _ => { d with objects := d.objects ++ [o] }.bind target d.objects.length

/-- Put an object in the place of another. -/
def replace (number : Nat) (o : β) : Directory β := { d with objects := d.objects.set number o }

/-- What the objects are seen as, under the same names. -/
def map (f : β → γ) : Directory γ := ⟨d.objects.map f, d.names⟩

/-- The kind of an operand, as messages name it. -/
def kindOf (a : Operand) : String :=
  match d.operand a with
  | .ok (some _) => "Matrix"
  | _ => "NoneType"

/-- The result of an operation on named operands. -/
def result (d : Directory (Matrix Float)) (settings : Settings) (op : Operation) (a b : Operand) :
    Attempt (Matrix Float) := do
  let x ← d.operand a
  let y ← if op.isUnary then pure none else d.operand b
  operate settings.pivotTolerance op (x.map (·.2)) (y.map (·.2))

end Directory

/-- A matrix with the origin of every cell. -/
structure Object where
  matrix : Matrix Float
  origins : List (List Nat)

structure Store extends Directory Object where
  /-- The next origin that has not been given out. -/
  next : Nat := 1

/-- The origin of every undefined number written as a number. -/
def writtenOrigin : Nat := 0

/-- The operators that stand for operations. -/
inductive Sign
  | plus
  | minus
  | times
  deriving DecidableEq, Repr

def Sign.operation : Sign → Operation
  | plus => .add
  | minus => .sub
  | times => .mul

def Sign.symbol : Sign → String
  | plus => "+"
  | minus => "-"
  | times => "@"

/-- Data that a matrix can be made of. -/
inductive Source
  | size (rows cols fill : Literal)
  | identity (n : Literal)
  | values (rows : Literal)
  | column (entries : Literal)
  | text (s : Literal)
  | random (size : Literal) (low high : Float) (seed : Int)

inductive Command
  | build (source : Source)
  | copy (a : Operand)
  | operate (op : Operation) (a b : Operand)
  | combine (op : Sign) (a b : Operand)
  | toFixed (a : Operand) (precision : Literal)
  | set (a : Operand) (i j value : Literal)

/-- A command with the name its result goes under, if there is one. -/
structure Step where
  settings : Settings := {}
  target : Option String := none
  command : Command

/-- The operand that a command changes where it is. -/
def Command.changed? : Command → Option Operand
  | .toFixed a _ => some a
  | .set a .. => some a
  | _ => none

/-- The list of rows that data give, where they give one. -/
def Source.rows : Source → Attempt Literal
  | values rows => .ok rows
  | column entries => do
    let items ← entriesOf entries
    return .list (items.map fun v => .list [v])
  | text (.str s) => match Literal.read (flattened s) with
    | .ok v => .ok v
    | .error _ => .ok .null
  | _ => .ok .null

/-- The matrix of data. -/
def Source.matrix : Source → Attempt (Matrix Float)
  | size rows cols fill => ofSize rows cols fill
  | identity n => identityOfSize n
  | values rows => ofLiteral rows
  | column entries => columnOf entries
  | text (.str s) => parse s
  | text .null => fault .missing
  | text v => .error (.broken (.noAttribute v.kind "strip"))
  | random n low high seed => (Matrix.random n low high (.ofSeed seed)).1

namespace Object

/-- Cells and origins both match: equal numbers, or one undefined number. -/
def sameCell (x : Float × Nat) (y : Float × Nat) : Bool :=
  x.1 == y.1 || (x.1.isNaN && y.1.isNaN && x.2 == y.2)

def cells (o : Object) : List (Float × Nat) := o.matrix.cells.flatten.zip o.origins.flatten

/-- Equal shapes and equal cells. -/
def same (a b : Object) : Bool :=
  a.matrix.rows == b.matrix.rows && a.matrix.cols == b.matrix.cols &&
    (a.cells.zip b.cells).all fun (x, y) => sameCell x y

end Object

/-- Origins for as many rows and columns, numbered from `first`. -/
def freshOrigins (first rows cols : Nat) : List (List Nat) :=
  (List.range rows).map fun i => (List.range cols).map fun j => first + (i * cols + j)

/-- The origin of a cell that is given as data, if it is written as a number. -/
def originOf (fresh : Nat) : Literal → Nat
  | .float _ => writtenOrigin
  | _ => fresh

namespace Store

/-- The matrices under their names. -/
def matrices (s : Store) : Directory (Matrix Float) := s.toDirectory.map (·.matrix)

/-- Keep a computed matrix, all of whose cells are new. -/
def keepNew (s : Store) (target : Option String) (m : Matrix Float) : Store :=
  { s with
    toDirectory := s.keep target ⟨m, freshOrigins s.next m.rows m.cols⟩
    next := s.next + m.rows * m.cols }

/-- The origins of a matrix made of data: one for all cells of a fill, one for each cell of rows. -/
def originsOf (s : Store) (source : Source) (m : Matrix Float) : List (List Nat) :=
  let fresh := freshOrigins s.next m.rows m.cols
  match source with
  | .size _ _ fill => fresh.map fun row => row.map fun _ => originOf s.next fill
  | source => match source.rows.bind gridOf with
    | .ok grid => fresh.zipWith (List.zipWith originOf) grid
    | .error _ => fresh

/-- Keep a matrix made of data. -/
def keepGiven (s : Store) (target : Option String) (source : Source) (m : Matrix Float) : Store :=
  { s with
    toDirectory := s.keep target ⟨m, s.originsOf source m⟩
    next := s.next + m.rows * m.cols }

/-- How a precision rounds a cell: to places, or to a whole number if none is given. -/
def rounding : Literal → Float → Attempt Float
  | .null, x =>
    if x.isNaN then .error (.broken (.noWholeNumber false))
    else if x.isInf then .error (.broken (.noWholeNumber true))
    else roundCell 0 x
  | .int n, x => roundCell n x
  | .bool b, x => roundCell (if b then 1 else 0) x
  | v, _ => .error (.broken (.notInteger v.kind))

/-- An index into a list. -/
def indexOf : Literal → Attempt Int
  | .int n =>
    if -(Int.pow 2 63) ≤ n ∧ n < Int.pow 2 63 then .ok n else .error (.broken .indexTooLarge)
  | .bool b => .ok (if b then 1 else 0)
  | v => .error (.broken (.badIndex v.kind))

/-- The item of a list at an index that is given as data. -/
def item {β : Type} (beyond : Breakage) (xs : List β) (i : Literal) : Attempt (Nat × β) := do
  let i ← indexOf i
  match placeOf? i xs.length with
  | none => .error (.broken beyond)
  | some n => match xs[n]? with
    | none => .error (.broken beyond)
    | some x => return (n, x)

/-- The place of a cell for reading. -/
def place (m : Matrix Float) (i j : Literal) (beyond : Breakage) : Attempt (Nat × Nat × Float) := do
  let (r, row) ← item (.indexOutOfRange "list") m.cells i
  let (c, x) ← item beyond row j
  return (r, c, x)

/-- The origins of an object after a rounding: new ones for the cells that are rounded. -/
def roundedOrigins (o : Object) (precision : Literal) (fresh : List (List Nat)) :
    List (List Nat) :=
  let cells := (o.matrix.cells.zip (o.origins.zip fresh)).map fun (xs, os, ns) => xs.zip (os.zip ns)
  let round := fun (x, _, new) => (rounding precision x).map fun y => (y, new, new)
  (replaceRows round cells).1.map fun row => row.map fun (_, origin, _) => origin

/-- Round an object where it is; on a failure the cells before it stay rounded. -/
def fix (s : Store) (number : Nat) (o : Object) (precision : Literal) :
    Store × Attempt (Matrix Float) :=
  let (m, e) := o.matrix.replaceAll (rounding precision)
  let origins := roundedOrigins o precision (freshOrigins s.next m.rows m.cols)
  let s := { s with
    toDirectory := s.replace number ⟨m, origins⟩
    next := s.next + m.rows * m.cols }
  match e with
  | some f => (s, .error f)
  | none => (s, .ok m)

/-- Change one cell of an object where it is. The value is read before the place is looked up. -/
def write (s : Store) (number : Nat) (o : Object) (i j value : Literal) :
    Store × Attempt (Matrix Float) :=
  match value.toFloat with
  | .error e => (s, .error (.broken (.notFloat e)))
  | .ok x => match place o.matrix i j .storeOutOfRange with
    | .error f => (s, .error f)
    | .ok (r, c, _) =>
      let m := o.matrix.setCell r c x
      let origins := o.origins.modify r (·.set c (originOf s.next value))
      ({ s with toDirectory := s.replace number ⟨m, origins⟩, next := s.next + 1 }, .ok m)

/-- Keep a computed matrix, unless it could not be computed. -/
def deliver (s : Store) (target : Option String) (r : Attempt (Matrix Float)) :
    Store × Attempt (Matrix Float) :=
  match r with
  | .error f => (s, .error f)
  | .ok m => (s.keepNew target m, .ok m)

/-- Carry out a command; the result goes under the target name, if there is one. -/
def apply (settings : Settings) (s : Store) (target : Option String) :
    Command → Store × Attempt (Matrix Float)
  | .build source => match source.matrix with
    | .error f => (s, .error f)
    | .ok m => (s.keepGiven target source m, .ok m)
  | .copy a => match s.demand "copy" a with
    | .error f => (s, .error f)
    | .ok (_, o) => ({ s with toDirectory := s.keep target o }, .ok o.matrix)
  | .operate op a b => s.deliver target (s.matrices.result settings op a b)
  | .combine op a b => match s.operand a with
    | .error f => (s, .error f)
    | .ok none => (s, .error (.broken (.noOperation op.symbol "NoneType" (s.kindOf b))))
    | .ok (some _) => s.deliver target (s.matrices.result settings op.operation a b)
  | .toFixed a precision => match s.demand "to_fixed" a with
    | .error f => (s, .error f)
    | .ok (n, o) => match s.fix n o precision with
      | (s, .error f) => (s, .error f)
      | (s, .ok m) => ({ s with toDirectory := s.bind target n }, .ok m)
  | .set a i j value => match s.demand "set" a with
    | .error f => (s, .error f)
    | .ok (n, o) => s.write n o i j value

/-- Carry out commands one after the other, whether they succeed or not. -/
def run (s : Store) (steps : List Step) : Store :=
  steps.foldl (fun s step => (s.apply step.settings step.target step.command).1) s

/-- The equality of a named matrix with another one or with nothing. -/
def equals (s : Store) (a b : Operand) : Attempt Bool := do
  match ← s.operand a, ← s.operand b with
  | some (_, x), some (_, y) => return x.same y
  | none, none => return true
  | _, _ => return false

end Store

end Simultaneous.Matrix
