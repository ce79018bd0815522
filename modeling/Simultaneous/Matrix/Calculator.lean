import Simultaneous.Matrix.Given
import Simultaneous.Matrix.Inverse
import Simultaneous.Report
import Simultaneous.Results

/-!
The matrix calculator: an operation by its name on operands given as literals or lists of rows.
-/

namespace Simultaneous.Matrix

inductive Operation
  | add
  | sub
  | mul
  | inv
  deriving DecidableEq, Repr

namespace Operation

def name : Operation → String
  | add => "add"
  | sub => "sub"
  | mul => "mul"
  | inv => "inv"

def all : List Operation := [add, sub, mul, inv]

def ofName? (s : String) : Option Operation := all.find? (·.name == s)

/-- How the operation is written above its result. -/
def title : Operation → String
  | add => "A + B"
  | sub => "A - B"
  | mul => "A x B"
  | inv => "inv(A)"

def isUnary : Operation → Bool
  | inv => true
  | _ => false

end Operation

/-- An operand that has to be there. -/
def require {α : Type} : Option (Matrix α) → Attempt (Matrix α)
  | some m => .ok m
  | none => fault .missing

/-- Carry out an operation on operands that may be missing. -/
def operate {α : Type} [Scalar α] (tolerance : α) (op : Operation) (a b : Option (Matrix α)) :
    Attempt (Matrix α) := do
  let a ← require a
  match op with
  | .inv => a.inv tolerance
  | .add => (← require b) |> a.add
  | .sub => (← require b) |> a.sub
  | .mul => (← require b) |> a.mul

/-- An operand from data: nothing, a written literal, or a list of rows. -/
def operandOf : Literal → Attempt (Option (Matrix Float))
  | .null => .ok none
  | .str s => (parse s).map some
  | v => (ofLiteral v).map some

/-- The operands and the result of an operation; of an inversion only the first operand is read. -/
def calculation (settings : Settings) (op : Operation) (a b : Literal) :
    Attempt (List (Matrix Float) × Matrix Float) := do
  let left ← operandOf a
  let right ← if op.isUnary then pure none else operandOf b
  let result ← operate settings.pivotTolerance op left right
  return (left.toList ++ right.toList, result)

/-- The result that reports a failure of the catalogue; any other failure stays one. -/
def reportOf (operation : String) (f : Failure) : Attempt (MatrixResult Float) :=
  match f.report? with
  | some r => .ok { ok := false, operation, error := some r.message, errorCode := some r.code }
  | none => .error f

/-- Carry out the named operation. -/
def calculate (settings : Settings) (operation : String) (a b : Literal) :
    Attempt (MatrixResult Float) :=
  match Operation.ofName? operation with
  | none => .ok {
      ok := false
      operation
      error := some ("Unknown matrix operation '" ++ operation ++ "'")
      errorCode := some (Report.defaultCode .input) }
  | some op => match calculation settings op a b with
    | .error f => reportOf operation f
    | .ok (operands, result) => .ok {
        ok := true
        operation
        result := some result.cells
        operands := some (operands.map (·.cells)) }

/-- Carry out the named operation on random square matrices. -/
def calculateRandom (settings : Settings) (operation : String) (size : Literal)
    (t : Random.Twister) : Attempt (MatrixResult Float) :=
  let draw := random size settings.randomLow settings.randomHigh
  match draw t with
  | (.error f, _) => reportOf operation f
  | (.ok a, t) =>
    if operation == Operation.inv.name then calculate settings operation a.toLiteral .null
    else match draw t with
      | (.error f, _) => reportOf operation f
      | (.ok b, _) => calculate settings operation a.toLiteral b.toLiteral

end Simultaneous.Matrix
