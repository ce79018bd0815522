import Simultaneous.Literal.Basic

/-!
Log entries and the threshold below which they are dropped.
-/

namespace Simultaneous

namespace Log

inductive Level
  | debug
  | info
  | warning
  | error
  | critical
  deriving DecidableEq, Repr

namespace Level

def rank : Level → Nat
  | debug => 10
  | info => 20
  | warning => 30
  | error => 40
  | critical => 50

def name : Level → String
  | debug => "DEBUG"
  | info => "INFO"
  | warning => "WARNING"
  | error => "ERROR"
  | critical => "CRITICAL"

/-- The name of a rank; a rank between the levels is named by its number. -/
def nameOfRank (n : Int) : String :=
  match [debug, info, warning, error, critical].find? fun l => (l.rank : Int) == n with
  | some l => l.name
  | none => if n == 0 then "NOTSET" else "Level " ++ toString n

/-- The names by which a level can be set, with their ranks. -/
def settable : List (String × Nat) := [
  ("DEBUG", 10), ("INFO", 20), ("WARNING", 30), ("WARN", 30), ("ERROR", 40), ("CRITICAL", 50),
  ("FATAL", 50), ("NOTSET", 0)]

/-- The rank that a name in any case sets; `WARNING` for an unknown one. -/
def rankOf (name : String) : Nat :=
  match settable.find? fun (n, _) => n.toList.map Char.toLower == Text.lower name.toList with
  | some (_, r) => r
  | none => warning.rank

end Level

/-- The name of the logger of a part of the program. -/
def loggerName (part : String) : String := "eqsolver." ++ part

structure Entry where
  rank : Int
  part : String
  text : String
  deriving DecidableEq, Repr

/-- The lowest rank that is written when the level is set to some rank; without a level the common
default holds. -/
def threshold (set : Nat) : Int := if set = 0 then (Level.warning.rank : Int) else set

namespace Entry

def isWritten (set : Nat) (e : Entry) : Bool := threshold set ≤ e.rank

/-- The line of an entry without its time. -/
def line (e : Entry) : String :=
  "[" ++ Level.nameOfRank e.rank ++ "] " ++ loggerName e.part ++ ": " ++ e.text

def of (l : Level) (part text : String) : Entry := ⟨l.rank, part, text⟩

end Entry

/-- The entries that reach a log, as lines. -/
def linesOf (set : Nat) (entries : List Entry) : List String :=
  (entries.filter (Entry.isWritten set)).map Entry.line

end Log

end Simultaneous
