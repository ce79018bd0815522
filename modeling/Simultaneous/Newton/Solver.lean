import Simultaneous.Equation
import Simultaneous.Newton.Iteration
import Simultaneous.Random.Twister

/-!
A solver keeps a problem, the state of its latest run and the latest result. A run is refused before
it begins if there are not as many residuals as variables or there is no starting point.
-/

namespace Simultaneous

/-- The residual of an equation, by the doubles bound to its variables. -/
def Equation.toResidual (e : Equation) : Residual Float :=
  ⟨e.unknowns, fun env => e.residual fun name => (env name).map .real⟩

namespace Newton

def Options.ofSettings (s : Settings) : Options Float :=
  ⟨s.epsilon, s.stopping, s.maxIterations, s.patience, s.roundDigits, s.pivotTolerance⟩

def Problem.ofEquations (s : Settings) (es : List Equation) (unknowns : List String) :
    Problem Float :=
  ⟨es.map Equation.toResidual, unknowns, .ofSettings s⟩

inductive Phase
  | initialized
  | iterating
  | converged
  | failed
  deriving DecidableEq, Repr

def Phase.text : Phase → String
  | initialized => "initialized"
  | iterating => "iterating"
  | converged => "converged"
  | failed => "failed"

structure Solver (α : Type) where
  problem : Problem α
  phase : Phase := .initialized
  iterations : Nat := 0
  result : Option (Matrix α) := none

namespace Solver

variable {α : Type} [Scalar α]

/-- Why a run cannot begin, whatever its starting point. -/
def mismatch? (s : Solver α) : Option Failure :=
  let (n, m) := (s.problem.residuals.length, s.problem.unknowns.length)
  if n = m then none else some (.unsolved (.mismatch n m))

/-- The state after a run that took `steps` steps and was not completed. A failure of the catalogue
ends the run; any other one leaves it as it stood. -/
def abandon (s : Solver α) (steps : Nat) (f : Failure) : Solver α :=
  { s with phase := if f.isBroken then .iterating else .failed, iterations := steps }

/-- Iterate from a starting point and round the result. -/
def runFrom (s : Solver α) (start : Matrix α) : Solver α × Attempt (Matrix α) :=
  match s.problem.run start with
  | (steps, .error f) => (s.abandon steps f, .error f)
  | (steps, .ok x) => match x.toFixed s.problem.options.roundDigits with
    | (_, some f) => (s.abandon steps f, .error f)
    | (x, none) =>
      ({ s with phase := .converged, iterations := steps, result := some x }, .ok x)

/-- A run from a starting point, which may be missing for a reason. -/
def solveFrom (s : Solver α) (start : Attempt (Matrix α)) : Solver α × Attempt (Matrix α) :=
  match s.mismatch?, start with
  | some f, _ => (s, .error f)
  | none, .error f => (s, .error f)
  | none, .ok x => s.runFrom x

/-- A run from the point with the given coordinates. -/
def solveAt (s : Solver α) (point : List α) : Solver α × Attempt (Matrix α) :=
  s.solveFrom (Matrix.column point)

/-- The coordinates of the latest result by name, later ones of a name in the place of earlier. -/
def named (s : Solver α) : List (String × α) :=
  match s.result with
  | none => []
  | some x => s.problem.unknowns.zip x.firstColumn

end Solver

/-- A random point: each coordinate uniform over a range of some width from some offset. -/
def draw (settings : Settings) (count : Nat) (t : Random.Twister) :
    Attempt (Matrix Float) × Random.Twister :=
  match Matrix.filled count 1 (0 : Float) with
  | .error f => (.error f, t)
  | .ok m =>
    let (us, t) := t.units count
    (.ok { m with cells := us.map fun u => [u * settings.rangeWidth + settings.rangeOffset] }, t)

/-- A run from a random point; a run that is refused takes nothing from the stream. -/
def Solver.solve (settings : Settings) (s : Solver Float) (t : Random.Twister) :
    (Solver Float × Random.Twister) × Attempt (Matrix Float) :=
  match s.mismatch? with
  | some f => ((s, t), .error f)
  | none =>
    let (start, t) := draw settings s.problem.unknowns.length t
    let (s, r) := s.solveFrom start
    ((s, t), r)

end Newton

end Simultaneous
