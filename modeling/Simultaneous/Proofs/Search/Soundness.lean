import Simultaneous.Proofs.Search.Trials

/-!
The search over an over-determined system is sound and bounded. A solution that it gives comes from
the last of its trials and holds in every equation left out, and it gives up only after the allowed
number of trials, none of which decided.
-/

namespace Simultaneous.Search

section

variable {system : EquationSystem} {settings : Settings} {remaining made start : Nat} {o : Outcome}

theorem IsSeries.length_le (h : IsSeries system settings remaining made start o) :
    o.trials.length ≤ remaining := by
  induction h with
  | exhausted made start t => exact Nat.le_refl 0
  | decided remaining made t isTrial decision => exact Nat.succ_le_succ (Nat.zero_le remaining)
  | again isTrial undecided rest ih => exact Nat.succ_le_succ ih

theorem IsSeries.attempts_eq (h : IsSeries system settings remaining made start o) :
    o.attempts = made + o.trials.length := by
  induction h with
  | exhausted made start t => rfl
  | decided remaining made t isTrial decision => rfl
  | @again remaining made trial o isTrial undecided rest ih =>
    change o.attempts = made + (o.trials.length + 1)
    omega

/-- A solution comes from the point of the last trial, where all that it left out passes. -/
theorem IsSeries.result_eq_ok (h : IsSeries system settings remaining made start o)
    {found : Solution} (hr : o.result = .ok found) : ∃ last x, o.trials.getLast? = some last ∧
      IsTrial system settings last ∧ last.found = .ok x ∧
      (∀ i ∈ last.reduction.removed, ∃ e, system.equations[i]? = some e ∧
        e.PassesAt system.unknowns settings.tolerance x) ∧
      found = ⟨system.unknowns, x, last.iterations, o.attempts, last.reduction.removed⟩ := by
  induction h with
  | exhausted made start t => cases hr
  | @decided remaining made trial t r isTrial decision =>
    have hd := isTrial.decided
    rw [decision] at hd
    generalize hf : trial.found = f at hd
    cases hd with
    | @accepted x passes =>
      cases hr
      exact ⟨trial, x, rfl, isTrial, hf, passes, rfl⟩
    | singular | failed | tooLong => cases hr
  | @again remaining made trial o isTrial undecided rest ih =>
    obtain ⟨last, x, hlast, hfound⟩ := ih hr
    refine ⟨last, x, ?_, hfound⟩
    change (trial :: o.trials).getLast? = some last
    rw [List.getLast?_cons, hlast]
    rfl

/-- A series fails as one of its runs can, or is given up when all trials are used up undecided. -/
theorem IsSeries.result_eq_error (hpos : 0 < system.unknowns.length)
    (h : IsSeries system settings remaining made start o) {f : Failure}
    (hr : o.result = .error f) : Newton.RunFailure system.equations settings f ∨
      f = .unsolved (.gaveUp o.attempts) ∧ o.trials.length = remaining ∧
        ∀ trial ∈ o.trials, IsTrial system settings trial ∧
          Undecided system settings trial.reduction.removed trial.found := by
  induction h with
  | exhausted made start t =>
    cases hr
    exact .inr ⟨rfl, rfl, by simp⟩
  | @decided remaining made trial t r isTrial decision =>
    left
    have hd := isTrial.decided
    rw [decision] at hd
    generalize hf : trial.found = g at hd
    cases hd with
    | accepted => cases hr
    | singular column => cases hr; exact .noPivot column true
    | failed => cases hr; exact (isTrial.found_ensures hpos).of_eq_error hf
    | tooLong mem unwritable => cases hr; exact .broken (.tooLong mem unwritable)
  | @again remaining made trial o isTrial undecided rest ih =>
    obtain hrun | ⟨hf, hlength, hall⟩ := ih hr
    · exact .inl hrun
    refine .inr ⟨hf, congrArg (· + 1) hlength, fun other hother => ?_⟩
    obtain rfl | hother := List.mem_cons.mp hother
    · exact ⟨isTrial, isTrial.undecided undecided⟩
    · exact hall other hother

end

theorem solve_overdetermined_eq {s : Search}
    (h : s.system.unknowns.length < s.system.equations.length) :
    s.solve.2 = s.seriesOf.result := by
  rw [solve, EquationSystem.kind_eq_overdetermined_iff.mpr h]
  simp only
  split
  next hr => exact hr.symm
  next hr => exact hr.symm

/-- A solution of an over-determined system, as the search is to give it: a point of the size of the
unknowns, found by the last trial from the equations that it did not leave out, and no equation that
it left out fails there. -/
structure IsSolution (s : Search) (found : Solution) : Prop where
  unknowns_eq : found.unknowns = s.system.unknowns
  hasShape : found.point.HasShape s.system.unknowns.length 1
  attempts_eq : found.attempts = s.seriesOf.trials.length
  ascending : found.dropped.Pairwise (· < ·)
  valid : ∀ i ∈ found.dropped, i < s.system.equations.length
  length_dropped : found.dropped.length = s.system.equations.length - s.system.unknowns.length
  last : ∃ trial, s.seriesOf.trials.getLast? = some trial ∧
    trial.reduction.removed = found.dropped ∧ trial.found = .ok found.point
  run : ∃ t, ((solver s.system s.settings (Reduction.others found.dropped s.system.equations)).solve
      s.settings t).2 = .ok found.point ∧
    ((solver s.system s.settings (Reduction.others found.dropped s.system.equations)).solve
      s.settings t).1.1.iterations = found.iterations
  holds : ∀ i ∈ found.dropped, ∃ e, s.system.equations[i]? = some e ∧
    e.HoldsAt s.system.unknowns s.settings.tolerance found.point

theorem code?_ne_of_runFailure {es : List Equation} {settings : Settings} {f : Failure}
    (h : Newton.RunFailure es settings f) : f.code? ≠ some "overdetermined.no.solution" := by
  cases h with
  | evaluation detail => simp [Failure.code?, Unsolved.code]
  | broken h => simp [Failure.code?]
  | noPivot column transient => simp [Failure.code?, MatrixFault.code]
  | noConvergence steps change => simp [Failure.code?, Unsolved.code]

/-- A search over an over-determined system makes no more trials than allowed, with one run each.
What it gives is a solution, and it gives up only when all trials are used up undecided. -/
theorem solve_overdetermined_sound {es : List Equation} {s : Search}
    (hsystem : EquationSystem.ofEquations es = .ok s.system)
    (hover : s.system.unknowns.length < s.system.equations.length)
    (htol : s.settings.tolerance.isNaN = false) :
    s.seriesOf.trials.length ≤ max 1 (s.system.unknowns.length / 2) ∧
    (∀ found, s.solve.2 = .ok found → IsSolution s found) ∧
    ∀ f, s.solve.2 = .error f → f.code? = some "overdetermined.no.solution" →
      f = .unsolved (.gaveUp s.seriesOf.trials.length) ∧
      s.seriesOf.trials.length = max 1 (s.system.unknowns.length / 2) ∧
      ∀ trial ∈ s.seriesOf.trials, IsTrial s.system s.settings trial ∧
        Undecided s.system s.settings trial.reduction.removed trial.found := by
  obtain ⟨-, -, hpos⟩ := EquationSystem.ofEquations_eq_ok hsystem
  have hseries := isSeries_seriesOf hsystem (Nat.le_of_lt hover)
  have hattempts := hseries.attempts_eq
  rw [Nat.zero_add] at hattempts
  rw [solve_overdetermined_eq hover]
  refine ⟨hseries.length_le, fun found hfound => ?_, fun f hf hcode => ?_⟩
  · obtain ⟨last, x, hlast, his, hx, hpasses, rfl⟩ := hseries.result_eq_ok hfound
    have hlength := his.conserves.length_removed
    exact {
      unknowns_eq := rfl
      hasShape := (his.found_ensures hpos).of_eq_ok hx
      attempts_eq := hattempts
      ascending := his.conserves.ascending
      valid := his.conserves.valid
      length_dropped := by
        change last.reduction.removed.length = _
        omega
      last := ⟨last, hlast, rfl, hx⟩
      run := hx ▸ his.run
      holds := fun i hi => (hpasses i hi).imp fun e he => ⟨he.1, (e.passesAt_iff htol).mp he.2⟩ }
  · obtain hrun | ⟨rfl, hlength, hall⟩ := hseries.result_eq_error hpos hf
    · exact absurd hcode (code?_ne_of_runFailure hrun)
    · exact ⟨by rw [hattempts], hlength, hall⟩

/-- An unknown is to be one, and so is its size. -/
def unitSearch : Search :=
  let x : Expression := .ofTree (.sym "x") ["x"] "x"
  let size : Expression := .ofTree (.call .abs [.sym "x"]) ["x"] "abs(x)"
  { system := ⟨[⟨x, .wrap (.ofInt 1)⟩, ⟨size, .wrap (.ofInt 1)⟩], ["x"]⟩
    settings := {}
    stream := ⟨#[], 0⟩ }

theorem solve_overdetermined_sound_unit :
    EquationSystem.ofEquations unitSearch.system.equations = .ok unitSearch.system ∧
    unitSearch.system.unknowns.length < unitSearch.system.equations.length ∧
    unitSearch.settings.tolerance.isNaN = false ∧
    unitSearch.seriesOf.trials.length ≤ 1 ∧
    ∃ found, unitSearch.solve.2 = .ok found ∧ found.dropped = [1] ∧
      IsSolution unitSearch found := by
  have hsystem : EquationSystem.ofEquations unitSearch.system.equations =
      .ok unitSearch.system := by
    rfl
  have hover : unitSearch.system.unknowns.length < unitSearch.system.equations.length := by decide
  have htol : unitSearch.settings.tolerance.isNaN = false := by decide
  have hok : Attempt.passes (·.dropped == [1]) unitSearch.solve.2 = true := by decide +kernel
  obtain ⟨hlength, hsound, -⟩ := solve_overdetermined_sound hsystem hover htol
  obtain ⟨found, hfound, hdropped⟩ := Attempt.exists_of_passes hok
  exact ⟨hsystem, hover, htol, hlength, found, hfound, eq_of_beq hdropped, hsound found hfound⟩

end Simultaneous.Search
