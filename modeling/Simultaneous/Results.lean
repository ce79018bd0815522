import Simultaneous.Literal.Basic

/-!
Results as callers receive them: a mark of success, then what is known. A failed call has a message
and a code, a successful one its values.
-/

namespace Simultaneous

variable {α : Type}

/-- A field that is left out when it has no value. -/
def optionalField {β : Type} (name : String) (encode : β → Literal) :
    Option β → List (String × Literal)
  | none => []
  | some v => [(name, encode v)]

/-- A text in quotes, or the name of nothing. -/
def quotedOrNone (s : Option String) : String := ((s.map Literal.str).getD .null).shown

/-- The outcome of solving a system. -/
structure SystemResult (α : Type) where
  ok : Bool
  unknowns : Option (List String) := none
  values : Option (List α) := none
  error : Option String := none
  errorCode : Option String := none
  iterations : Option Int := none
  attempts : Option Int := none
  dropped : Option (List Int) := none

namespace SystemResult

/-- The values by variable, each name once, with its last value. -/
def solution (r : SystemResult α) (encode : α → Literal) : List (String × Literal) :=
  match r.ok, r.unknowns, r.values with
  | true, some names, some xs =>
    (names.zip xs).foldl (fun fs (name, x) => Literal.putField name (encode x) fs) []
  | _, _, _ => []

/-- The fields that have a value, in their order. -/
def toFields (r : SystemResult α) (encode : α → Literal) : List (String × Literal) :=
  [("ok", .bool r.ok), ("type", .str "system")] ++
  optionalField "error" .str r.error ++
  optionalField "error_code" .str r.errorCode ++
  optionalField "variables" (fun names => .list (names.map .str)) r.unknowns ++
  optionalField "values" (fun xs => .list (xs.map encode)) r.values ++
  optionalField "iterations" .int r.iterations ++
  optionalField "attempts" .int r.attempts ++
  optionalField "dropped" (fun is => .list (is.map .int)) r.dropped

/-- The text that shows a result. -/
def shown (r : SystemResult α) (encode : α → Literal) : String :=
  if r.ok then "SolveResult(ok=True, solution=" ++ (Literal.record (r.solution encode)).shown ++ ")"
  else "SolveResult(ok=False, error_code=" ++ quotedOrNone r.errorCode ++ ", error=" ++
    quotedOrNone r.error ++ ")"

end SystemResult

/-- The outcome of an operation on matrices. -/
structure MatrixResult (α : Type) where
  ok : Bool
  operation : String
  result : Option (List (List α)) := none
  operands : Option (List (List (List α))) := none
  error : Option String := none
  errorCode : Option String := none

namespace MatrixResult

def encodeRows (encode : α → Literal) (rows : List (List α)) : Literal :=
  .list (rows.map fun row => .list (row.map encode))

def toFields (r : MatrixResult α) (encode : α → Literal) : List (String × Literal) :=
  [("ok", .bool r.ok), ("type", .str "matrix"), ("operation", .str r.operation)] ++
  optionalField "error" .str r.error ++
  optionalField "error_code" .str r.errorCode ++
  optionalField "operands" (fun ms => .list (ms.map (encodeRows encode))) r.operands ++
  optionalField "result" (encodeRows encode) r.result

def shown (r : MatrixResult α) (encode : α → Literal) : String :=
  let operation := Text.quoted r.operation
  if r.ok then "MatrixResult(ok=True, operation=" ++ operation ++ ", result=" ++
    ((r.result.map (encodeRows encode)).getD .null).shown ++ ")"
  else "MatrixResult(ok=False, operation=" ++ operation ++ ", error_code=" ++
    quotedOrNone r.errorCode ++ ")"

end MatrixResult

end Simultaneous
