import Simultaneous.Equation.Given
import Simultaneous.Text.Splitting

/-!
Systems of equations. The variables stand in order of first appearance, which is also the order of
the coordinates of every point. Equations without variables are left out.
-/

namespace Simultaneous

open Text

structure EquationSystem where
  equations : List Equation
  unknowns : List String

namespace EquationSystem

/-- The equations that are given, up to the first failure. -/
def readAll (limits : Settings) : List Equation.Given → Attempt (List Equation)
  | [] => .ok []
  | g :: gs => do
    let e ← g.read limits
    let es ← readAll limits gs
    return e :: es

/-- The equation contains an unknown. -/
def isActive (e : Equation) : Bool := !e.unknowns.isEmpty

/-- The variables of all equations in order of first appearance. -/
def registry (es : List Equation) : List String := (es.flatMap Equation.unknowns).eraseDups

/-- The system of the equations that contain unknowns. -/
def ofEquations (es : List Equation) : Attempt EquationSystem :=
  let kept := es.filter isActive
  match registry kept with
  | [] => .error (.unsolved .noVariables)
  | vs => .ok ⟨kept, vs⟩

def ofGiven (limits : Settings) (gs : List Equation.Given) : Attempt EquationSystem := do
  let es ← readAll limits gs
  ofEquations es

/-- The equations of a block of text. -/
def givenIn (text : String) : List Equation.Given :=
  (splitEquations text.toList).map fun s => .text (String.ofList s)

/-- Equations beyond the number of variables, negative if there are fewer. -/
def excess (s : EquationSystem) : Int := (s.equations.length : Int) - s.unknowns.length

/-- How the number of equations compares with the number of variables. -/
inductive Kind
  | square
  | overdetermined
  | underdetermined
  deriving DecidableEq, Repr

def Kind.text : Kind → String
  | square => "square"
  | overdetermined => "overdetermined"
  | underdetermined => "underdetermined"

def kind (s : EquationSystem) : Kind :=
  if s.excess = 0 then .square
  else if 0 < s.excess then .overdetermined
  else .underdetermined

/-- How many reductions of an over-determined system are tried. -/
def maxTrials (s : EquationSystem) : Nat := max 1 (s.unknowns.length / 2)

/-- The text that shows a system. -/
def shown (s : EquationSystem) : String :=
  "EquationSet(" ++ toString s.equations.length ++ " equations, variables=" ++
    (Literal.list (s.unknowns.map .str)).shown ++ ")"

end EquationSystem

end Simultaneous
