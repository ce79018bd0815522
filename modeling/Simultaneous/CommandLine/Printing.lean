import Simultaneous.Literal.Writer
import Simultaneous.Matrix.Calculator
import Simultaneous.Matrix.Text

/-!
Results in print. A result is data, so that one from elsewhere can be printed too; what has been
printed before a failure stays.
-/

namespace Simultaneous.CommandLine

open Text

/-- Printed text, and the failure that ended it, if one did. -/
structure Printout where
  text : String
  failure : Option Failure := none

namespace Printout

def line (s : String) : Printout := ⟨s ++ "\n", none⟩

def nothing : Printout := ⟨"", none⟩

/-- One printout after another, unless the first one failed. -/
def andThen (a b : Printout) : Printout :=
  match a.failure with
  | some _ => a
  | none => ⟨a.text ++ b.text, b.failure⟩

def all (ps : List Printout) : Printout := ps.foldl andThen nothing

/-- Print what can be made, or fail. -/
def ofAttempt : Attempt Printout → Printout
  | .ok p => p
  | .error f => ⟨"", some f⟩

end Printout

structure Style where
  asJson : Bool := false
  showOperands : Bool := true
  /-- Matrices as literals, not as grids. -/
  asLiteral : Bool := false

/-- The field of a result, null if it is not there. -/
def fieldOf (name : String) (res : Literal) : Literal := (res.field? name).getD .null

/-- A field that counts as an empty list if it is not there. -/
def entriesAt (name : String) (res : Literal) : Attempt (List Literal) :=
  match res.field? name with
  | none => .ok []
  | some v => Matrix.entriesOf v

/-- A matrix under its title. -/
def printMatrix (settings : Settings) (style : Style) (title : String) (rows : Literal) :
    Printout :=
  (Printout.line title).andThen <| .ofAttempt do
    let m ← Matrix.ofLiteral rows
    let s ← m.text settings style.asLiteral (.int settings.precision)
    return .line s

/-- More than one; only numbers can be compared. -/
def exceedsOne : Literal → Attempt Bool
  | .int n => .ok (1 < n)
  | .float x => .ok (1 < x)
  | .bool _ => .ok false
  | v => .error (.broken (.noOrder ">" v.kind "int"))

/-- The position after a given one, as people count. -/
def successorText : Literal → Attempt String
  | .int n => .ok (toString (n + 1))
  | .float x => .ok (Decimal.shortest (x + 1))
  | .bool b => .ok (if b then "2" else "1")
  | .str _ => .error (.broken (.onlyConcatenates "str" "int"))
  | .list _ => .error (.broken (.onlyConcatenates "list" "int"))
  | v => .error (.broken (.noOperation "+" v.kind "int"))

def printValues (settings : Settings) (res : Literal) : Printout :=
  .ofAttempt do
    let names ← entriesAt "variables" res
    let values ← entriesAt "values" res
    return .all ((names.zip values).map fun (name, v) =>
      .line (name.plain ++ " = " ++ formatNumber settings.precision v .null))

def printIterations (res : Literal) : Printout :=
  match fieldOf "iterations" res with
  | .null => .nothing
  | n => .ofAttempt do
    let attempts := fieldOf "attempts" res
    let several ← if attempts.truthy then exceedsOne attempts else pure false
    return .line ("Converged in " ++ n.plain ++ " iteration(s)" ++
      (if several then " on attempt " ++ attempts.plain else ""))

def printDropped (res : Literal) : Printout :=
  let dropped := fieldOf "dropped" res
  if dropped.truthy then .ofAttempt do
    let items ← Matrix.entriesOf dropped
    let texts ← items.mapM successorText
    return .line ("Verified dropped equations: " ++ join ", " texts)
  else .nothing

def printSystem (settings : Settings) (res : Literal) : Printout :=
  ((printValues settings res).andThen (printIterations res)).andThen (printDropped res)

/-- The operands of a calculation, at most two. -/
def printOperands (settings : Settings) (style : Style) (res : Literal) : Printout :=
  let operands := fieldOf "operands" res
  if style.showOperands && operands.truthy then .ofAttempt do
    let items ← Matrix.entriesOf operands
    return .all ((["Matrix A", "Matrix B"].zip items).map fun (title, rows) =>
      printMatrix settings style title rows)
  else .nothing

/-- The title of a calculation: what it computes, or the name of an unknown operation. -/
def titleOf (operation : Literal) : String :=
  match operation with
  | .str s => ((Matrix.Operation.ofName? s).map Matrix.Operation.title).getD s
  | v => v.plain

def printCalculation (settings : Settings) (style : Style) (res : Literal) : Printout :=
  (printOperands settings style res).andThen
    (printMatrix settings style (titleOf ((res.field? "operation").getD (.str "")))
      (fieldOf "result" res))

/-- A result in the given style. -/
def printResult (settings : Settings) (style : Style) (res : Literal) : Printout :=
  if style.asJson then .line (Literal.indented 0 res)
  else if !(fieldOf "ok" res).truthy then .line ("Error: " ++ (fieldOf "error" res).plain)
  else match fieldOf "type" res with
    | .str "system" => printSystem settings res
    | .str "matrix" => printCalculation settings style res
    | _ => .line res.plain

end Simultaneous.CommandLine
