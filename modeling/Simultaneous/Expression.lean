import Simultaneous.Formula.Parse
import Simultaneous.Program.Compile

/-!
Expressions of an equation: a tree, the names of its variables in order of appearance, and the text
it came from. A value is a finite real number or a failure with its reason.
-/

namespace Simultaneous

open Algebra Formula Program Text

structure Expression where
  tree : Expr
  unknowns : List String
  source : String
  code : Code := compile tree
  code_eq : code = compile tree := by rfl

namespace Expression

def beginsIdentifier (c : Char) : Bool := isAsciiLetter c || c == '_'

def continuesIdentifier (c : Char) : Bool := beginsIdentifier c || isAsciiDigit c

/-- The identifiers of a text from left to right; `word` is the one being read, in reverse. -/
def identifiers : List Char → List Char → List String
  | word, [] => if word.isEmpty then [] else [String.ofList word.reverse]
  | word, c :: s =>
    if word.isEmpty then identifiers (if beginsIdentifier c then [c] else []) s
    else if continuesIdentifier c then identifiers (c :: word) s
    else String.ofList word.reverse :: identifiers [] s

/-- Insert into a list of names in alphabetical order, unless it is there. -/
def insertName (s : String) : List String → List String
  | [] => [s]
  | t :: ts => if s < t then s :: t :: ts else if s == t then t :: ts else t :: insertName s ts

/-- The symbols of a tree in alphabetical order. -/
def symbolNames (e : Expr) : List String :=
  joinRuns (· == ·) (fun a _ => a) (sortBy (fun a b => decide (a < b)) e.symbols)

/-- First the names of `order` that are symbols, then the other symbols. -/
def orderVariables (order symbols : List String) : List String :=
  let first := order.eraseDups.filter symbols.contains
  first ++ symbols.filter fun s => !first.contains s

/-- An expression with a preferred order of variables. -/
def ofTree (e : Expr) (order : List String) (source : String) : Expression :=
  { tree := e, unknowns := orderVariables order (symbolNames e), source }

/-- The expression as its own source. -/
def wrap (e : Expr) : Expression := ofTree e [] e.text

def describe (text : List Char) (plain : List Char) (e : Expr) : Expression :=
  ofTree e (identifiers [] plain) (String.ofList (trim text))

/-- The expression of a text. -/
def parse (limits : Settings) (text : List Char) : Attempt Expression := do
  let s ← (plain limits text).mapError .refused
  let e ← parsePlain limits s
  return describe text s e

/-- The same with expressions remembered. -/
def parseWith (m : Memory) (limits : Settings) (text : List Char) : Attempt Expression × Memory :=
  match plain limits text with
  | .error r => (.error (.refused r), m)
  | .ok s => match m.parse limits s with
    | (.ok e, m) => (.ok (describe text s e), m)
    | (.error f, m) => (.error f, m)

def zero : Expression := wrap 0

/-- The value of each variable, and of no other name. -/
def restrict (e : Expression) (env : Bindings) : Bindings := fun s =>
  if e.unknowns.contains s then env s else none

/-- The first variable without a value. -/
def unbound? (e : Expression) (env : Bindings) : Option String :=
  e.unknowns.find? fun s => (env s).isNone

def floatText (x : Float) : String := Decimal.shortest x

def fails {α : Type} (detail : String) : Attempt α := .error (.unsolved (.evaluation detail))

/-- The finite value under the given bindings. -/
def evaluate (e : Expression) (env : Bindings) : Attempt Float :=
  if !e.code.isWritable then .error (.broken (.longInt none))
  else match e.unbound? env with
    | some s => fails ("no value bound for " ++ quoted s)
    | none => match e.code.run (e.restrict env) >>= realResult with
      | .error f => fails (e.source ++ ": " ++ f.message)
      | .ok x =>
        if x.isFinite then .ok x
        else fails (e.source ++ ": non-finite value " ++ floatText x)

/-- The text that shows an expression among other values. -/
def shown (e : Expression) : String := "Expression(" ++ quoted e.source ++ ")"

end Expression

end Simultaneous
