import Simultaneous.Log.Search
import Simultaneous.Report
import Simultaneous.Results

/-!
Solving and checking systems as they are given. Failures of the catalogue become part of the result;
any other failure remains one.
-/

namespace Simultaneous

/-- The result of a search. -/
def SystemResult.ofSolution (s : Solution) : SystemResult Float :=
  { ok := true
    unknowns := some s.unknowns
    values := some s.values
    iterations := some s.iterations
    attempts := some s.attempts
    dropped := some (s.dropped.map Int.ofNat) }

/-- The result that reports a failure. -/
def SystemResult.ofReport (r : Report) : SystemResult Float :=
  { ok := false, error := some r.message, errorCode := some r.code }

/-- Solve a system, with random points from a stream. -/
def search (settings : Settings) (stream : Random.Twister) (gs : List Equation.Given) :
    Attempt Solution := do
  let system ← EquationSystem.ofGiven settings gs
  ({ system, settings, stream : Search }).solve.2

/-- Solve a system and report the outcome. -/
def solveSystem (settings : Settings) (stream : Random.Twister) (gs : List Equation.Given) :
    Attempt (SystemResult Float) :=
  match search settings stream gs with
  | .ok s => .ok (.ofSolution s)
  | .error f => match f.report? with
    | some r => .ok (.ofReport r)
    | none => .error f

/-- Whether the equations can be read and contain unknowns, with the message if not. -/
def validate (settings : Settings) (gs : List Equation.Given) : Attempt (Option String) :=
  match EquationSystem.ofGiven settings gs with
  | .ok _ => .ok none
  | .error f => match f.report? with
    | some r => .ok (some r.message)
    | none => .error f

namespace Log

/-- The last entry about a call that failed. -/
def ofFailure (f : Failure) : List Entry :=
  match f.report? with
  | some r => [.of .debug "api" ("Solve failed with " ++ r.code ++ ": " ++ r.message)]
  | none => []

/-- Everything that solving a system writes. -/
def ofSolving (settings : Settings) (stream : Random.Twister) (gs : List Equation.Given) :
    List Entry :=
  ofReading settings 0 gs ++
  (match EquationSystem.ofGiven settings gs with
    | .error _ => []
    | .ok system => ofSearch { system, settings, stream }) ++
  (match search settings stream gs with
    | .ok _ => []
    | .error f => ofFailure f)

end Log

end Simultaneous
