import Simultaneous.Literal.Basic

/-!
Writing a literal so that it can be read again: on one line, or indented by two spaces a level.
-/

namespace Simultaneous.Literal

open Text Decimal

def escapedChar (c : Char) : List Char :=
  if c == '"' then ['\\', '"']
  else if c == '\\' then ['\\', '\\']
  else if c == '\n' then ['\\', 'n']
  else if c == '\r' then ['\\', 'r']
  else if c == '\t' then ['\\', 't']
  else if c.toNat == 8 then ['\\', 'b']
  else if c.toNat == 12 then ['\\', 'f']
  else if c.toNat < 32 then '\\' :: 'u' :: hexDigits 4 c.toNat
  else [c]

def writtenString (s : String) : String :=
  String.ofList ('"' :: s.toList.flatMap escapedChar ++ ['"'])

def writtenFloat (x : Float) : String :=
  if x.isNaN then "NaN"
  else if x.isInf then if x < 0 then "-Infinity" else "Infinity"
  else shortest x

def margin (depth : Nat) : String := "\n" ++ String.ofList (List.replicate (2 * depth) ' ')

mutual

/-- The text of a value, continued lines indented to `depth`. -/
def indented (depth : Nat) : Literal → String
  | null => "null"
  | bool true => "true"
  | bool false => "false"
  | int n => toString n
  | float x => writtenFloat x
  | str s => writtenString s
  | list [] => "[]"
  | list (v :: vs) => "[" ++ margin (depth + 1) ++
      join ("," ++ margin (depth + 1)) (indentedItems (depth + 1) (v :: vs)) ++ margin depth ++ "]"
  | record [] => "\x7b\x7d"
  | record (f :: fs) => "\x7b" ++ margin (depth + 1) ++
      join ("," ++ margin (depth + 1)) (indentedFields (depth + 1) (f :: fs)) ++ margin depth ++
      "\x7d"

def indentedItems (depth : Nat) : List Literal → List String
  | [] => []
  | v :: vs => indented depth v :: indentedItems depth vs

def indentedFields (depth : Nat) : List (String × Literal) → List String
  | [] => []
  | (k, v) :: fs => (writtenString k ++ ": " ++ indented depth v) :: indentedFields depth fs

end

mutual

/-- The text of a value on one line, without spacing. -/
def compact : Literal → String
  | null => "null"
  | bool true => "true"
  | bool false => "false"
  | int n => toString n
  | float x => writtenFloat x
  | str s => writtenString s
  | list items => "[" ++ join "," (compactItems items) ++ "]"
  | record fields => "\x7b" ++ join "," (compactFields fields) ++ "\x7d"

def compactItems : List Literal → List String
  | [] => []
  | v :: vs => compact v :: compactItems vs

def compactFields : List (String × Literal) → List String
  | [] => []
  | (k, v) :: fs => (writtenString k ++ ":" ++ compact v) :: compactFields fs

end

end Simultaneous.Literal
