import Simultaneous.Newton.Solver
import Simultaneous.Proofs.Newton.Sizes

/-!
What a solver comes to. A result is the last point of an iteration, rounded; over as many residuals
as variables it is a column with an entry for each variable.
-/

namespace Simultaneous.Newton

open Attempt

/-- A random point has as many coordinates as asked for. -/
theorem draw_eq_ok (settings : Settings) {n : Nat} (hn : 0 < n) (t : Random.Twister) :
    ∃ x, (draw settings n t).1 = .ok x ∧ x.HasShape n 1 := by
  rw [draw, Matrix.filled_eq_ok hn Nat.one_pos]
  have hg := Matrix.isGrid_column
    ((t.units n).1.map fun u => u * settings.rangeWidth + settings.rangeOffset)
  rw [List.length_map, Random.Twister.length_units, List.map_map] at hg
  exact ⟨_, rfl, hg.hasShape hn Nat.one_pos⟩

namespace Solver

section

variable {α : Type} {s : Solver α}

theorem mismatch?_eq_none_iff :
    s.mismatch? = none ↔ s.problem.residuals.length = s.problem.unknowns.length := by
  simp [mismatch?]

variable [Scalar α]

theorem runFrom_eq_ok {start x : Matrix α} (h : (s.runFrom start).2 = .ok x) :
    ∃ steps y, s.problem.run start = (steps, .ok y) ∧
      y.toFixed s.problem.options.roundDigits = (x, none) := by
  rw [runFrom] at h
  split at h
  · cases h
  next steps y hrun =>
    split at h
    · cases h
    next hfixed => cases h; exact ⟨steps, y, hrun, hfixed⟩

/-- How a run from a point ends: in a result, by a failure of the catalogue, or broken off where it
stands. An earlier result is kept until there is a new one. -/
inductive Ends (s : Solver α) (start : Matrix α) : Solver α × Attempt (Matrix α) → Prop
  | converged {steps : Nat} {x : Matrix α} (fits : s.problem.Fits start → s.problem.Fits x) :
      Ends s start ({ s with phase := .converged, iterations := steps, result := some x }, .ok x)
  | failed {steps : Nat} {f : Failure} (catalogued : f.isBroken = false)
      (halt : s.problem.Halt start f) :
      Ends s start ({ s with phase := .failed, iterations := steps }, .error f)
  | brokenOff {steps : Nat} {reason : Breakage} (halt : s.problem.Halt start (.broken reason)) :
      Ends s start ({ s with phase := .iterating, iterations := steps }, .error (.broken reason))

theorem ends_of_halt {start : Matrix α} {f : Failure} (h : s.problem.Halt start f) (steps : Nat) :
    Ends s start (s.abandon steps f, .error f) := by
  rw [abandon]
  cases f with
  | broken reason => exact .brokenOff h
  | _ => exact .failed rfl h

theorem runFrom_ends (hp : s.problem.IsSquare) (start : Matrix α) :
    Ends s start (s.runFrom start) := by
  have hrun := Problem.run_ensures hp start
  rw [runFrom]
  split
  next steps f h => exact ends_of_halt (hrun.of_eq_error (congrArg Prod.snd h)) steps
  next steps x h =>
    have hx := hrun.of_eq_ok (congrArg Prod.snd h)
    split
    next f hf =>
      obtain ⟨rfl, x, hnone⟩ := Matrix.toFixed_eq_some (congrArg Prod.snd hf)
      exact ends_of_halt (.fault (.tooLarge hnone)) steps
    next y hy =>
      refine .converged fun hstart => ?_
      have hshape := Matrix.toFixed_hasShape s.problem.options.roundDigits (hx hstart)
      rwa [hy] at hshape

theorem runFrom_ensures (hp : s.problem.IsSquare) {start : Matrix α}
    (hstart : s.problem.Fits start) :
    Ensures s.problem.Fits s.problem.Fault (s.runFrom start).2 := by
  have hends := runFrom_ends hp start
  generalize s.runFrom start = out at hends ⊢
  cases hends with
  | converged fits => exact .ok (fits hstart)
  | failed _ halt | brokenOff halt => exact .error (halt.fault_of_fits hstart)

/-- A run that gives a point was not refused: there are as many residuals as variables. -/
theorem solveFrom_eq_ok {start : Attempt (Matrix α)} {x : Matrix α}
    (h : (s.solveFrom start).2 = .ok x) :
    s.problem.residuals.length = s.problem.unknowns.length ∧
      ∃ y, start = .ok y ∧ (s.runFrom y).2 = .ok x := by
  unfold solveFrom at h
  split at h
  · cases h
  · cases h
  next y hm => exact ⟨mismatch?_eq_none_iff.mp hm, y, rfl, h⟩

end

variable {s : Solver Float}

/-- A run from a random point over as many residuals as variables ends in a point of their size, or
fails for one of the reasons foreseen. -/
theorem solve_ensures (settings : Settings) (hp : s.problem.IsSquare) (t : Random.Twister) :
    Ensures (Matrix.HasShape · s.problem.unknowns.length 1) s.problem.Fault
      (s.solve settings t).2 := by
  have hm : s.mismatch? = none := mismatch?_eq_none_iff.mpr hp.length_residuals
  obtain ⟨start, hd, hstart⟩ := draw_eq_ok settings hp.pos t
  have hsolve : (s.solve settings t).2 = (s.runFrom start).2 := by
    simp only [solve, solveFrom, hm, hd]
  rw [hsolve]
  exact runFrom_ensures hp hstart

end Solver

end Simultaneous.Newton
