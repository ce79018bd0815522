import Simultaneous.Proofs.EquationSystem
import Simultaneous.Proofs.Newton.Breakage
import Simultaneous.Proofs.Search.Verification
import Simultaneous.Search.Basic

/-!
The trials of a search. Each runs the iteration over the equations that a reduction keeps, in their
order; a series of them ends with the first that decides, or is given up after the allowed number.
-/

namespace Simultaneous

open Attempt Reduction

namespace Search

section

variable {system : EquationSystem} {settings : Settings}

/-- As many equations as unknowns are solved by a point with a coordinate for each unknown. -/
theorem solver_ensures {es : List Equation} (hes : es ⊆ system.equations)
    (hlength : es.length = system.unknowns.length) (hpos : 0 < system.unknowns.length)
    (t : Random.Twister) :
    Ensures (Matrix.HasShape · system.unknowns.length 1)
      (Newton.RunFailure system.equations settings) ((solver system settings es).solve settings t).2 := by
  have hsquare : (solver system settings es).problem.IsSquare :=
    ⟨(List.length_map _).trans hlength, hpos⟩
  exact (Newton.Solver.solve_ensures settings hsquare t).imp (fun _ h => h)
    fun _ => Newton.runFailure_of_fault hes

/-- A trial leaves out as many equations as there are too many, runs the iteration over the others,
and ends as that run decides. -/
structure IsTrial (system : EquationSystem) (settings : Settings) (trial : Trial) : Prop where
  conserves : Conserves Equation.unknowns system.unknowns.length system.equations
    (others trial.reduction.removed system.equations) trial.reduction.removed
  run : ∃ t, ((solver system settings (others trial.reduction.removed system.equations)).solve
      settings t).2 = trial.found ∧
    ((solver system settings (others trial.reduction.removed system.equations)).solve
      settings t).1.1.iterations = trial.iterations
  ending_eq : trial.ending = judge system settings trial.reduction.removed trial.found

theorem exists_attempt (settings : Settings) {es : List Equation}
    (h : EquationSystem.ofEquations es = .ok system)
    (hover : system.unknowns.length ≤ system.equations.length) (start : Nat)
    (t : Random.Twister) : ∃ trial t', attempt system settings start t = .ok (trial, t') ∧
      trial.start = start ∧ IsTrial system settings trial := by
  obtain ⟨rest, r, hr⟩ := EquationSystem.exists_reduce h start
  have hc := reduce_conserves hr (by omega)
  obtain rfl := hc.rest_eq
  rw [attempt, hr]
  exact ⟨_, _, rfl, rfl, hc, ⟨t, rfl, rfl⟩, rfl⟩

variable {trial : Trial}

theorem IsTrial.length_others (h : IsTrial system settings trial) :
    (others trial.reduction.removed system.equations).length = system.unknowns.length := by
  have hn : trial.reduction.removed.Nodup :=
    h.conserves.ascending.imp fun hlt => Nat.ne_of_lt hlt
  have hsum := length_others_add hn h.conserves.valid
  have hlength := h.conserves.length_removed
  omega

theorem IsTrial.found_ensures (h : IsTrial system settings trial)
    (hpos : 0 < system.unknowns.length) :
    Ensures (Matrix.HasShape · system.unknowns.length 1)
      (Newton.RunFailure system.equations settings) trial.found := by
  obtain ⟨t, hfound, -⟩ := h.run
  rw [← hfound]
  exact solver_ensures (others_subset _ _) h.length_others hpos t

theorem IsTrial.decided (h : IsTrial system settings trial) :
    Decided system settings trial.reduction.removed trial.found
      (trial.ending.decision? settings.retrySingular) := by
  rw [h.ending_eq]
  exact Search.decided h.conserves.valid _

theorem IsTrial.undecided (h : IsTrial system settings trial)
    (hnone : trial.ending.decision? settings.retrySingular = none) :
    Undecided system settings trial.reduction.removed trial.found := by
  have hd := h.decided
  rw [hnone] at hd
  generalize trial.found = found at hd
  cases hd with
  | again undecided => exact undecided

end

/-- A series of trials, at most `remaining` after the `made` before, the first of them from `start`.
Each trial but the last is undecided, and the next one begins at the last equation that it left out.
-/
inductive IsSeries (system : EquationSystem) (settings : Settings) :
    (remaining made start : Nat) → Outcome → Prop
  | exhausted (made start : Nat) (t : Random.Twister) :
      IsSeries system settings 0 made start ⟨[], made, t, .error (.unsolved (.gaveUp made))⟩
  | decided (remaining made : Nat) {trial : Trial} (t : Random.Twister)
      {r : Attempt (Matrix Float)} (isTrial : IsTrial system settings trial)
      (decision : trial.ending.decision? settings.retrySingular = some r) :
      IsSeries system settings (remaining + 1) made trial.start ⟨[trial], made + 1, t,
        r.map fun x => ⟨system.unknowns, x, trial.iterations, made + 1, trial.reduction.removed⟩⟩
  | again {remaining made : Nat} {trial : Trial} {o : Outcome}
      (isTrial : IsTrial system settings trial)
      (undecided : trial.ending.decision? settings.retrySingular = none)
      (rest : IsSeries system settings remaining (made + 1)
        (trial.reduction.removed.getLastD 0) o) :
      IsSeries system settings (remaining + 1) made trial.start (o.after trial)

theorem isSeries {es : List Equation} {system : EquationSystem} (settings : Settings)
    (h : EquationSystem.ofEquations es = .ok system)
    (hover : system.unknowns.length ≤ system.equations.length) (remaining made start : Nat)
    (t : Random.Twister) : IsSeries system settings remaining made start
      (series system settings remaining made start t) := by
  induction remaining generalizing made start t with
  | zero => exact .exhausted made start t
  | succ remaining ih =>
    obtain ⟨trial, t', htrial, rfl, his⟩ := exists_attempt settings h hover start t
    rw [series, htrial]
    simp only
    split
    next hd => exact .again his hd (ih _ _ _)
    next r hd => exact .decided remaining made t' his hd

/-- The trials of a search over a system with enough equations. -/
theorem isSeries_seriesOf {es : List Equation} {s : Search}
    (h : EquationSystem.ofEquations es = .ok s.system)
    (hover : s.system.unknowns.length ≤ s.system.equations.length) :
    IsSeries s.system s.settings s.system.maxTrials 0 0 s.seriesOf :=
  isSeries s.settings h hover s.system.maxTrials 0 0 s.stream

end Search

end Simultaneous
