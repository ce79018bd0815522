import Simultaneous.Decimal.Reading
import Simultaneous.Decimal.Shortest
import Simultaneous.Text.Quoted

/-!
Data of unknown shape, as it stands in a written literal: what callers pass where a number, a text
or a list of rows is expected.
-/

namespace Simultaneous

inductive Literal
  | null
  | bool (b : Bool)
  | int (n : Int)
  | float (x : Float)
  | str (s : String)
  | list (items : List Literal)
  | record (fields : List (String × Literal))
  deriving Inhabited

namespace Literal

open Text Decimal

/-- A field of a record. -/
def field? (name : String) : Literal → Option Literal
  | record fields => (fields.find? (·.1 == name)).map (·.2)
  | _ => none

/-- Set a field, keeping the place of an earlier one of the same name. -/
def putField (name : String) (v : Literal) : List (String × Literal) → List (String × Literal)
  | [] => [(name, v)]
  | (k, w) :: rest => if k == name then (k, v) :: rest else (k, w) :: putField name v rest

/-- Empty containers and texts, zeros, `false` and `null` count as false. -/
def truthy : Literal → Bool
  | null => false
  | bool b => b
  | int n => n != 0
  | float x => x != 0
  | str s => !s.isEmpty
  | list items => !items.isEmpty
  | record fields => !fields.isEmpty

mutual

/-- The text of a value inside a message: names of constants, shortest floats, quoted strings. -/
def shown : Literal → String
  | null => "None"
  | bool true => "True"
  | bool false => "False"
  | int n => toString n
  | float x => shortest x
  | str s => quoted s
  | list items => "[" ++ join ", " (shownItems items) ++ "]"
  | record fields => "\x7b" ++ join ", " (shownFields fields) ++ "\x7d"

def shownItems : List Literal → List String
  | [] => []
  | v :: vs => v.shown :: shownItems vs

def shownFields : List (String × Literal) → List String
  | [] => []
  | (k, v) :: fs => (quoted k ++ ": " ++ v.shown) :: shownFields fs

end

/-- The text of a value that stands alone: strings without quotes. -/
def plain : Literal → String
  | str s => s
  | v => v.shown

/-- The kind of a value, as messages name it. -/
def kind : Literal → String
  | null => "NoneType"
  | bool _ => "bool"
  | int _ => "int"
  | float _ => "float"
  | str _ => "str"
  | list _ => "list"
  | record _ => "dict"

end Literal

/-- Why a value cannot become a double. -/
inductive NotFloat
  | wrongKind (kind : String)
  | unreadable (text : String)
  | tooLarge
  deriving DecidableEq, Repr

def NotFloat.message : NotFloat → String
  | .wrongKind k => "float() argument must be a string or a real number, not '" ++ k ++ "'"
  | .unreadable s => "could not convert string to float: " ++ Text.quoted s
  | .tooLarge => "int too large to convert to float"

/-- A double from a number, a truth value or a numeric text. -/
def Literal.toFloat : Literal → Except NotFloat Float
  | .bool b => .ok (if b then 1 else 0)
  | .int n => match Decimal.ofInt? n with
    | some x => .ok x
    | none => .error .tooLarge
  | .float x => .ok x
  | .str s => match Decimal.readFloat? s.toList with
    | some x => .ok x
    | none => .error (.unreadable s)
  | v => .error (.wrongKind v.kind)

end Simultaneous
