import Simultaneous.Search.Trial

/-!
The search for a solution. A square system is solved at once; an over-determined one by trials, each
beginning its circle at the last equation left out before, until one succeeds or the allowed number
is used up.
-/

namespace Simultaneous

/-- A system with what calls have left behind: the random stream, the number of trials of the latest
call, and the latest solution. -/
structure Search where
  system : EquationSystem
  settings : Settings
  stream : Random.Twister
  attempts : Nat := 0
  solution : Option Solution := none

namespace Search

/-- What a series of trials came to. -/
structure Outcome where
  trials : List Trial
  attempts : Nat
  stream : Random.Twister
  result : Attempt Solution

/-- Put a trial before the others of a series. -/
def Outcome.after (t : Trial) (o : Outcome) : Outcome := { o with trials := t :: o.trials }

/-- Trials until one decides, at most `remaining` of them after the `made` before. -/
def series (system : EquationSystem) (settings : Settings) :
    (remaining made start : Nat) → Random.Twister → Outcome
  | 0, made, _, t => ⟨[], made, t, .error (.unsolved (.gaveUp made))⟩
  | remaining + 1, made, start, t =>
    match attempt system settings start t with
    | .error u => ⟨[], made + 1, t, .error (.unsolved u)⟩
    | .ok (trial, t) =>
      let removed := trial.reduction.removed
      match trial.ending.decision? settings.retrySingular with
      | none =>
        (series system settings remaining (made + 1) (removed.getLastD 0) t).after trial
      | some r =>
        let found x : Solution := ⟨system.unknowns, x, trial.iterations, made + 1, removed⟩
        ⟨[trial], made + 1, t, r.map found⟩

/-- The run over a square system. -/
structure SquareRun where
  origin : Attempt (Matrix Float)
  iterations : Nat
  stream : Random.Twister
  found : Attempt (Matrix Float)

def squareRun (s : Search) : SquareRun :=
  let ((solver, t), found) :=
    (solver s.system s.settings s.system.equations).solve s.settings s.stream
  ⟨(Newton.draw s.settings s.system.unknowns.length s.stream).1, solver.iterations, t, found⟩

def seriesOf (s : Search) : Outcome := series s.system s.settings s.system.maxTrials 0 0 s.stream

/-- Solve the system. -/
def solve (s : Search) : Search × Attempt Solution :=
  match s.system.kind with
  | .underdetermined =>
    (s, .error (.unsolved (.underdetermined s.system.equations.length s.system.unknowns.length)))
  | .square =>
    let run := s.squareRun
    let s := { s with stream := run.stream }
    match run.found with
    | .error f => (s, .error f)
    | .ok x =>
      let found : Solution := ⟨s.system.unknowns, x, run.iterations, 1, []⟩
      ({ s with attempts := 1, solution := some found }, .ok found)
  | .overdetermined =>
    let o := s.seriesOf
    let s := { s with stream := o.stream, attempts := o.attempts }
    match o.result with
    | .error f => (s, .error f)
    | .ok found => ({ s with solution := some found }, .ok found)

/-- The positions all hold at a point, as far as the tolerance goes. -/
def holdsAt (s : Search) (indexes : List Int) (point : Matrix Float) : Attempt Bool :=
  (verify s.system s.settings.tolerance point indexes).map Verdict.holds

/-- A search over a system with a random stream of its own. -/
def start (system : EquationSystem) (settings : Settings) : Search :=
  { system, settings, stream := .ofSeed (settings.seed.getD 0) }

end Search

end Simultaneous
