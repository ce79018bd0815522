import Simultaneous.Literal.Template

/-!
Everything an operation can fail with: the catalogue of messages, the causes, and the report a
caller sees. A refusal concerns input, an `Unsolved` or matrix fault the computation; a breakage is
a failure that no check foresees.
-/

namespace Simultaneous

open Text

/-- Messages by error code. -/
def catalog : List (String × String) := [
  ("decomposition", "Singular Matrix provided"),
  ("matrix.missing", "Matrix not provided"),
  ("matrix.initialization.incorrect",
    "Wrong initialization parameters used for Matrix initialization"),
  ("matrix.varying.size", "Number of columns in each row are changing"),
  ("size.mismatch", "Matrix sizes do not match"),
  ("size.mismatch.rows", "Rows do not match"),
  ("size.mismatch.cols", "Columns do not match"),
  ("equation.incorrect.format", "Equations provided in an incorrect format"),
  ("variable.mismatch", "Number of equations does not match the number of variables"),
  ("no.variables", "No unknown variables found in the equations"),
  ("inconsistent.system", "Could not find enough redundant equations to reduce the system"),
  ("under.determined.system", "System has fewer equations than unknown variables"),
  ("overdetermined.no.solution",
    "No solution satisfies every equation of the over-determined system"),
  ("no.convergence", "Newton-Raphson iteration did not converge"),
  ("expression.parse", "Expression could not be parsed"),
  ("expression.evaluation", "Expression could not be evaluated to a real number")]

/-- The message of a code, empty for an unknown one. -/
def messageOf (code : String) : String := ((catalog.find? (·.1 == code)).map (·.2)).getD ""

/-- A code's message, or the code itself where there is none, followed by the detail if any. -/
def describe (code detail : String) : String :=
  let m := messageOf code
  let m := if m.isEmpty then code else m
  if detail.isEmpty then m else m ++ ": " ++ detail

/-- Input that is not accepted. -/
inductive Refusal
  | empty
  | tooLong (limit : Int)
  | forbiddenToken (token : String) (length : Nat)
  | unbalanced (position : Nat) (excerpt : String)
  | unreadable (text : String)
  | tooComplex (limit : Int)
  | tooDeep (limit : Int)
  | forbiddenFunction (name : String)
  | notScalarKind (kind : String)
  | notScalar (shown : String)
  | notUsable (shown : String)
  | manyEquals (text : String)
  | notPair (items : Nat)
  | unsupported (shown : String)
  deriving DecidableEq, Repr

namespace Refusal

def code : Refusal → String
  | empty => "EMPTY_INPUT"
  | tooLong _ => "TOO_LONG"
  | forbiddenToken .. => "FORBIDDEN_TOKEN"
  | unbalanced .. => "UNBALANCED_PARENS"
  | unreadable _ | notScalarKind _ | notScalar _ | notUsable _ => "expression.parse"
  | tooComplex _ => "TOO_COMPLEX"
  | tooDeep _ => "TOO_DEEP"
  | forbiddenFunction _ => "FORBIDDEN_FUNCTION"
  | manyEquals _ | notPair _ | unsupported _ => "equation.incorrect.format"

def message : Refusal → String
  | empty => "Input cannot be empty"
  | tooLong limit => "Input too long (>" ++ toString limit ++ " characters)"
  | forbiddenToken token _ => "Input contains forbidden token: " ++ token
  | unbalanced position excerpt => "Mismatched or unbalanced parentheses/brackets at position " ++
      toString position ++ ": ..." ++ excerpt ++ "..."
  | unreadable text => "Could not parse expression '" ++ text ++ "'"
  | tooComplex limit => "Expression too complex (>" ++ toString limit ++ " nodes)"
  | tooDeep limit => "Expression too deeply nested (>" ++ toString limit ++ " levels)"
  | forbiddenFunction name => "Function '" ++ name ++ "' not allowed"
  | notScalarKind kind => "Expression type '" ++ kind ++ "' is not a scalar expression"
  | notScalar shown => shown ++ " is not a scalar expression"
  | notUsable shown => "Cannot use " ++ shown ++ " as an expression"
  | manyEquals text =>
      describe "equation.incorrect.format" ("more than one '=' in " ++ quoted text)
  | notPair items => describe "equation.incorrect.format"
      ("expected a (lhs, rhs) pair, got " ++ toString items ++ " items")
  | unsupported shown =>
      describe "equation.incorrect.format" ("unsupported equation input " ++ shown)

end Refusal

/-- Why a system or one of its expressions has no answer. -/
inductive Unsolved
  | noVariables
  | underdetermined (equations unknowns : Nat)
  | mismatch (equations unknowns : Nat)
  | inconsistent (needed found : Int)
  | gaveUp (attempts : Nat)
  | noConvergence (iterations : Nat) (change : String)
  | evaluation (detail : String)
  deriving DecidableEq, Repr

namespace Unsolved

def code : Unsolved → String
  | noVariables => "no.variables"
  | underdetermined .. => "under.determined.system"
  | mismatch .. => "variable.mismatch"
  | inconsistent .. => "inconsistent.system"
  | gaveUp _ => "overdetermined.no.solution"
  | noConvergence .. => "no.convergence"
  | evaluation _ => "expression.evaluation"

def detail : Unsolved → String
  | noVariables => ""
  | underdetermined e v => toString e ++ " equations for " ++ toString v ++ " variables"
  | mismatch e v => toString e ++ " equations, " ++ toString v ++ " variables"
  | inconsistent needed found =>
      "need to drop " ++ toString needed ++ ", found " ++ toString found ++ " redundant"
  | gaveUp attempts => "gave up after " ++ toString attempts ++ " attempt(s)"
  | noConvergence iterations change =>
      toString iterations ++ " iterations, last change " ++ change
  | evaluation detail => detail

end Unsolved

/-- Why a matrix cannot be built or an operation on matrices cannot be carried out. -/
inductive MatrixFault
  | missing
  | badSize (rows cols : String)
  | badFill (shown : String)
  | notRows
  | emptyRow
  | ragged
  | badCell (reason : NotFloat)
  | badLiteral (reason : String)
  | rowsDiffer (a b : Nat)
  | colsDiffer (a b : Nat)
  | cannotMultiply (aRows aCols bRows bCols : Nat)
  | notSquare (rows cols : Nat)
  | noPivot (column : Nat)
  deriving DecidableEq, Repr

namespace MatrixFault

def code : MatrixFault → String
  | missing => "matrix.missing"
  | badSize .. | badFill _ | notRows | emptyRow | badCell _ | badLiteral _ =>
      "matrix.initialization.incorrect"
  | ragged => "matrix.varying.size"
  | rowsDiffer .. => "size.mismatch.rows"
  | colsDiffer .. => "size.mismatch.cols"
  | cannotMultiply .. | notSquare .. => "size.mismatch"
  | noPivot _ => "decomposition"

def sizeText (r c : Nat) : String := toString r ++ "x" ++ toString c

def detail : MatrixFault → String
  | missing | ragged => ""
  | badSize rows cols => "rows=" ++ rows ++ ", cols=" ++ cols
  | badFill shown => "fill=" ++ shown
  | notRows => "expected a non-empty list of rows"
  | emptyRow => "rows must be non-empty lists"
  | badCell reason => reason.message
  | badLiteral reason => "invalid literal: " ++ reason
  | rowsDiffer a b => toString a ++ " != " ++ toString b
  | colsDiffer a b => toString a ++ " != " ++ toString b
  | cannotMultiply ar ac br bc => sizeText ar ac ++ " cannot multiply " ++ sizeText br bc
  | notSquare r c => "cannot invert " ++ sizeText r c
  | noPivot column => "no pivot in column " ++ toString column

end MatrixFault

/-- Failures outside the catalogue. -/
inductive Breakage
  | undefinedName (name : String)
  | floatDivisionByZero
  | quotientByZero
  | remainderByZero
  | moduloByZero
  | divisionByZeroNumber
  | indexOutOfRange (container : String)
  | storeOutOfRange
  | badIndex (kind : String)
  | notFloat (reason : NotFloat)
  | roundedTooLarge
  | notInteger (kind : String)
  | noWholeNumber (infinite : Bool)
  | missingPrecision
  | badPrecision
  | hugePrecision
  | precisionTooBig
  | notInList (shown : String)
  | notIterable (kind : String)
  | noOperation (symbol left right : String)
  | noAttribute (kind name : String)
  | noOrder (symbol left right : String)
  | onlyConcatenates (kind other : String)
  | malformedInt (text : String)
  | longInt (digits : Option Nat)
  | malformedFloat (text : String)
  | badTemplate (reason : Misfit)
  | missingKey (shown : String)
  | nestedTooDeep (during : String)
  | indexTooLarge
  /-- An iteration without a limit that has not ended. -/
  | endless
  deriving DecidableEq, Repr

def Breakage.message : Breakage → String
  | undefinedName name => "name " ++ quoted name ++ " is not defined"
  | floatDivisionByZero => "float division by zero"
  | quotientByZero => "integer division or modulo by zero"
  | remainderByZero => "integer modulo by zero"
  | moduloByZero => "Modulo by zero"
  | divisionByZeroNumber => "modulo by zero"
  | indexOutOfRange container => container ++ " index out of range"
  | storeOutOfRange => "list assignment index out of range"
  | badIndex kind => "list indices must be integers or slices, not " ++ kind
  | notFloat reason => reason.message
  | roundedTooLarge => "rounded value too large to represent"
  | notInteger kind => "'" ++ kind ++ "' object cannot be interpreted as an integer"
  | noWholeNumber infinite =>
      "cannot convert float " ++ (if infinite then "infinity" else "NaN") ++ " to integer"
  | missingPrecision => "Format specifier missing precision"
  | badPrecision => "Invalid format specifier"
  | precisionTooBig => "precision too big"
  | hugePrecision => "Too many decimal digits in format string"
  | notInList shown => shown ++ " is not in list"
  | notIterable kind => "'" ++ kind ++ "' object is not iterable"
  | noOperation symbol left right =>
      "unsupported operand type(s) for " ++ symbol ++ ": '" ++ left ++ "' and '" ++ right ++ "'"
  | noAttribute kind name => "'" ++ kind ++ "' object has no attribute '" ++ name ++ "'"
  | noOrder symbol left right =>
      "'" ++ symbol ++ "' not supported between instances of '" ++ left ++ "' and '" ++ right ++ "'"
  | onlyConcatenates kind other =>
      "can only concatenate " ++ kind ++ " (not \"" ++ other ++ "\") to " ++ kind
  | malformedInt text => "invalid literal for int() with base 10: " ++ quoted text
  | longInt none => "Exceeds the limit (4300 digits) for integer string conversion; " ++
      "use sys.set_int_max_str_digits() to increase the limit"
  | longInt (some digits) => "Exceeds the limit (4300 digits) for integer string conversion: " ++
      "value has " ++ toString digits ++ " digits; " ++
      "use sys.set_int_max_str_digits() to increase the limit"
  | malformedFloat text => "could not convert string to float: " ++ quoted text
  | badTemplate reason => reason.message
  | missingKey shown => shown
  | nestedTooDeep during => "maximum recursion depth exceeded" ++ during
  | indexTooLarge => "cannot fit 'int' into an index-sized integer"
  | endless => "iteration does not end"

/-- Any failure. A matrix fault is transient when it arose in one reduction of a larger system. -/
inductive Failure
  | refused (reason : Refusal)
  | unsolved (reason : Unsolved)
  | matrix (reason : MatrixFault) (transient : Bool)
  | broken (reason : Breakage)
  deriving DecidableEq, Repr

namespace Failure

def message : Failure → String
  | refused r => r.message
  | unsolved u => describe u.code u.detail
  | matrix m _ => describe m.code m.detail
  | broken b => b.message

/-- A failure that no check foresees. -/
def isBroken : Failure → Bool
  | broken _ => true
  | _ => false

/-- The code of a failure of the catalogue or of refused input. -/
def code? : Failure → Option String
  | refused r => some r.code
  | unsolved u => some u.code
  | matrix m _ => some m.code
  | broken _ => none

end Failure

/-- Results that may fail. -/
abbrev Attempt (α : Type) := Except Failure α

end Simultaneous
