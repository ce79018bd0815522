import Simultaneous.Expression

/-!
Expressions read one after the other, while settings are assigned in between and what was read is
remembered.
-/

namespace Simultaneous

open Formula

/-- The settings in force, and the expressions remembered. -/
structure Session where
  settings : Settings := {}
  memory : Memory := {}

namespace Session

/-- A session with nothing read yet. How much it remembers is settled for good when it begins. -/
def begun (settings : Settings) : Session :=
  { settings, memory := { capacity := settings.cacheSize.toNat } }

inductive Request
  | assign (name : String) (value : Literal)
  | parse (text : List Char)

/-- The expression of a text, as the session reads it now. -/
def parse (s : Session) (text : List Char) : Attempt Expression :=
  (Expression.parseWith s.memory s.settings text).1

/-- The session after a request. -/
def next (s : Session) : Request → Session
  | .assign name value => { s with settings := s.settings.assign name value }
  | .parse text => { s with memory := (Expression.parseWith s.memory s.settings text).2 }

/-- The session after several requests. -/
def after (s : Session) (rs : List Request) : Session := rs.foldl next s

end Session

end Simultaneous
