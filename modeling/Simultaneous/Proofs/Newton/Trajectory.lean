import Mathlib.Logic.Relation
import Simultaneous.Newton.Iteration
import Simultaneous.Proofs.Attempt

/-!
The iterates of a run. A run takes steps as long as it is neither settled nor exhausted, and what it
comes to is decided by the last iterate that it reaches.
-/

namespace Simultaneous.Newton.Problem

variable {α : Type} [Scalar α]

/-- The iteration goes on from one iterate to the next. -/
structure Continues (p : Problem α) (s s' : Iterate α) : Prop where
  unsettled : p.isSettled s = false
  unexhausted : p.isExhausted s = false
  advance_eq : p.advance s = .ok s'

/-- The iteration comes from one iterate to another, in any number of steps. -/
def Reaches (p : Problem α) : Iterate α → Iterate α → Prop := Relation.ReflTransGen p.Continues

variable {p : Problem α} {s last : Iterate α}

/-- What holds of an iterate and is kept by every step holds of all that are reached from it. -/
theorem Reaches.invariant {P : Iterate α → Prop} (h : p.Reaches s last) (hs : P s)
    (hstep : ∀ s s', P s → p.advance s = .ok s' → P s') : P last := by
  induction h with
  | refl => exact hs
  | tail _ hc ih => exact hstep _ _ ih hc.advance_eq

/-- A last iterate is either the one at the start or comes from one before it. -/
theorem Reaches.eq_or_prev (h : p.Reaches s last) :
    last = s ∨ ∃ prev, p.Reaches s prev ∧ p.Continues prev last := by
  obtain h | h := Relation.ReflTransGen.cases_tail h
  · exact .inl h
  · exact .inr h

theorem iterate_eq_ok {fuel steps : Nat} {x : Matrix α}
    (h : p.iterate fuel s = (steps, .ok x)) :
    ∃ last, p.Reaches s last ∧ p.isSettled last = true ∧ x = last.point ∧ steps = last.steps := by
  induction fuel generalizing s with
  | zero => cases h
  | succ fuel ih =>
    rw [iterate] at h
    split at h
    next hs => cases h; exact ⟨s, .refl, hs, rfl, rfl⟩
    next hs =>
      split at h
      · cases h
      next he =>
        split at h
        · cases h
        next s' ha =>
          obtain ⟨last, hr, hlast⟩ := ih h
          exact ⟨last, .head ⟨by simpa using hs, by simpa using he, ha⟩ hr, hlast⟩

theorem steps_first {start : Matrix α} (h : p.first start = .ok s) : s.steps = 0 := by
  obtain ⟨here, -, h⟩ := Attempt.bind_eq_ok.mp h
  cases h
  rfl

theorem steps_advance {s' : Iterate α} (h : p.advance s = .ok s') : s'.steps = s.steps + 1 := by
  obtain ⟨slopes, -, h⟩ := Attempt.bind_eq_ok.mp h
  obtain ⟨inverse, -, h⟩ := Attempt.bind_eq_ok.mp h
  obtain ⟨step, -, h⟩ := Attempt.bind_eq_ok.mp h
  obtain ⟨point, -, h⟩ := Attempt.bind_eq_ok.mp h
  obtain ⟨residuals, -, h⟩ := Attempt.bind_eq_ok.mp h
  obtain ⟨change, -, h⟩ := Attempt.bind_eq_ok.mp h
  cases h
  rfl

/-- There is fuel for all steps that are allowed, if their number is limited. -/
def Fuelled (p : Problem α) (fuel : Nat) (s : Iterate α) : Prop :=
  0 < p.options.maxIterations →
    s.steps ≤ p.options.maxIterations ∧ p.options.maxIterations < fuel + s.steps

theorem fuelled_first {start : Matrix α} (h : p.first start = .ok s) : p.Fuelled p.fuel s := by
  intro hmax
  rw [steps_first h, fuel, if_pos hmax]
  omega

/-- An iteration fails because it is not limited and does not end, is exhausted, or cannot take a
step. -/
theorem iterate_eq_error {fuel steps : Nat} {f : Failure} (hfuel : p.Fuelled fuel s)
    (h : p.iterate fuel s = (steps, .error f)) :
    ∃ last, p.Reaches s last ∧ (f = .broken .endless ∧ p.options.maxIterations ≤ 0 ∨
      f = last.exhausted ∨ p.advance last = .error f) := by
  induction fuel generalizing s with
  | zero =>
    cases h
    refine ⟨s, .refl, .inl ⟨rfl, Int.not_lt.mp fun hmax => ?_⟩⟩
    have := hfuel hmax
    omega
  | succ fuel ih =>
    rw [iterate] at h
    split at h
    · cases h
    next hs =>
      split at h
      · cases h
        exact ⟨s, .refl, .inr (.inl rfl)⟩
      next he =>
        split at h
        next ha => cases h; exact ⟨s, .refl, .inr (.inr ha)⟩
        next s' ha =>
          have hfuel' : p.Fuelled fuel s' := by
            intro hmax
            have := hfuel hmax
            have : ¬ p.options.maxIterations ≤ s.steps := fun hle => he (decide_eq_true ⟨hmax, hle⟩)
            rw [steps_advance ha]
            omega
          obtain ⟨last, hr, hlast⟩ := ih hfuel' h
          exact ⟨last, .head ⟨by simpa using hs, by simpa using he, ha⟩ hr, hlast⟩

theorem run_eq_ok {start x : Matrix α} {steps : Nat} (h : p.run start = (steps, .ok x)) :
    ∃ first last, p.first start = .ok first ∧ p.Reaches first last ∧ p.isSettled last = true ∧
      x = last.point ∧ steps = last.steps := by
  rw [run] at h
  split at h
  · cases h
  next first hf => exact ⟨first, (iterate_eq_ok h).imp fun _ hlast => ⟨hf, hlast⟩⟩

theorem run_eq_error {start : Matrix α} {steps : Nat} {f : Failure}
    (h : p.run start = (steps, .error f)) :
    p.first start = .error f ∨
      ∃ first last, p.first start = .ok first ∧ p.Reaches first last ∧
        (f = .broken .endless ∧ p.options.maxIterations ≤ 0 ∨ f = last.exhausted ∨
          p.advance last = .error f) := by
  rw [run] at h
  split at h
  next hf => cases h; exact .inl hf
  next first hf =>
    obtain ⟨last, hlast⟩ := iterate_eq_error (fuelled_first hf) h
    exact .inr ⟨first, last, hf, hlast⟩

end Simultaneous.Newton.Problem
