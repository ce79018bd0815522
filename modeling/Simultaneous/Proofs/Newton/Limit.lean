import Simultaneous.Proofs.Newton.Calls

/-!
The limit of steps. It bounds a run and does nothing else to it: a run that converges under one
limit goes the same way under any other that leaves it its steps, and is stopped at one that does
not.
-/

namespace Simultaneous

/-- The same settings with another limit of steps, and another patience for runs without one. -/
def Settings.limited (s : Settings) (limit : Int) (patience : Nat) : Settings :=
  { s with maxIterations := limit, patience }

namespace Newton

open Attempt

variable {α : Type}

def Problem.limited (p : Problem α) (limit : Int) (patience : Nat) : Problem α :=
  { p with options := { p.options with maxIterations := limit, patience } }

def Solver.limited (s : Solver α) (limit : Int) (patience : Nat) : Solver α :=
  { s with problem := s.problem.limited limit patience }

variable [Scalar α]

namespace Problem

variable {p : Problem α} {s : Iterate α} {x start : Matrix α} {limit : Int}
  {fuel fuel' patience steps : Nat}

theorem first_limited (p : Problem α) (limit : Int) (patience : Nat) (start : Matrix α) :
    (p.limited limit patience).first start = p.first start := rfl

theorem advance_limited (p : Problem α) (limit : Int) (patience : Nat) (s : Iterate α) :
    (p.limited limit patience).advance s = p.advance s := rfl

theorem isSettled_limited (p : Problem α) (limit : Int) (patience : Nat) (s : Iterate α) :
    (p.limited limit patience).isSettled s = p.isSettled s := rfl

omit [Scalar α] in
theorem isExhausted_limited_iff :
    (p.limited limit patience).isExhausted s = true ↔ 0 < limit ∧ limit ≤ s.steps :=
  decide_eq_true_iff

theorem steps_le_of_iterate {r : Attempt (Matrix α)} (h : p.iterate fuel s = (steps, r)) :
    s.steps ≤ steps := by
  induction fuel generalizing s with
  | zero => cases h; exact le_rfl
  | succ fuel ih =>
    rw [iterate] at h
    split at h
    · cases h; exact le_rfl
    split at h
    · cases h; exact le_rfl
    split at h
    · cases h; exact Nat.le_succ _
    next s' ha =>
      have hle := ih h
      rw [steps_advance ha] at hle
      exact Nat.le_of_succ_le hle

/-- No more steps are begun than are allowed. -/
theorem iterate_fst_le (hmax : 0 < p.options.maxIterations)
    (hs : s.steps ≤ p.options.maxIterations) :
    (p.iterate fuel s).1 ≤ p.options.maxIterations := by
  induction fuel generalizing s with
  | zero => exact hs
  | succ fuel ih =>
    rw [iterate]
    split
    · exact hs
    split
    · exact hs
    next hexhausted =>
      have hlt : s.steps < p.options.maxIterations := by
        by_contra hge
        exact hexhausted (decide_eq_true ⟨hmax, Int.not_lt.mp hge⟩)
      split
      · push_cast
        omega
      next s' ha =>
        apply ih
        rw [steps_advance ha]
        push_cast
        omega

/-- Where an iteration settles, it settles under every limit that allows as many steps. -/
theorem iterate_limited_eq_ok (h : p.iterate fuel s = (steps, .ok x))
    (hlimit : 0 < limit → steps ≤ limit) (hfuel : steps < fuel' + s.steps) :
    (p.limited limit patience).iterate fuel' s = (steps, .ok x) := by
  induction fuel generalizing s fuel' with
  | zero => cases h
  | succ fuel ih =>
    have hsteps := steps_le_of_iterate h
    obtain ⟨n, rfl⟩ : ∃ n, fuel' = n + 1 := ⟨fuel' - 1, by omega⟩
    rw [iterate] at h
    rw [iterate, isSettled_limited]
    split at h
    next hsettled => rw [if_pos hsettled, h]
    next hsettled =>
      split at h
      · cases h
      split at h
      · cases h
      next s' ha =>
        have hsteps' := steps_le_of_iterate h
        rw [steps_advance ha] at hsteps'
        have hgoes : ¬ (p.limited limit patience).isExhausted s = true := by
          rw [isExhausted_limited_iff]
          rintro ⟨hpos, hle⟩
          have := hlimit hpos
          omega
        rw [if_neg hsettled, if_neg hgoes, advance_limited, ha]
        apply ih h
        rw [steps_advance ha]
        omega

/-- An iteration that needs more steps than are allowed uses these up. -/
theorem iterate_limited_eq_error {limit : Nat} (h : p.iterate fuel s = (steps, .ok x))
    (hpos : 0 < limit) (hs : s.steps ≤ limit) (hlt : limit < steps)
    (hfuel : limit < fuel' + s.steps) :
    ∃ change, (p.limited limit patience).iterate fuel' s =
      (limit, .error (.unsolved (.noConvergence limit change))) := by
  induction fuel generalizing s fuel' with
  | zero => cases h
  | succ fuel ih =>
    obtain ⟨n, rfl⟩ : ∃ n, fuel' = n + 1 := ⟨fuel' - 1, by omega⟩
    rw [iterate] at h
    split at h
    next hsettled =>
      cases h
      exact absurd hs (Nat.not_le.mpr hlt)
    next hsettled =>
      rw [iterate, isSettled_limited, if_neg hsettled]
      by_cases hend : s.steps = limit
      · have hexhausted : (p.limited limit patience).isExhausted s = true :=
          isExhausted_limited_iff.mpr (by omega)
        rw [if_pos hexhausted, Iterate.exhausted, hend]
        exact ⟨_, rfl⟩
      · have hgoes : ¬ (p.limited limit patience).isExhausted s = true := by
          rw [isExhausted_limited_iff]
          omega
        split at h
        · cases h
        split at h
        · cases h
        next s' ha =>
          rw [if_neg hgoes, advance_limited, ha]
          have hsteps := steps_advance ha
          exact ih h (by omega) (by omega)

theorem run_fst_le (hmax : 0 < p.options.maxIterations) (start : Matrix α) :
    (p.run start).1 ≤ p.options.maxIterations := by
  rw [run]
  split
  · exact hmax.le
  next s hs =>
    apply iterate_fst_le hmax
    rw [steps_first hs]
    exact hmax.le

theorem run_limited_eq_ok (h : p.run start = (steps, .ok x)) (hlimit : 0 < limit → steps ≤ limit)
    (hpatience : limit ≤ 0 → steps < patience) :
    (p.limited limit patience).run start = (steps, .ok x) := by
  rw [run] at h ⊢
  rw [first_limited]
  split at h
  · cases h
  next s hs =>
    apply iterate_limited_eq_ok h hlimit
    rw [steps_first hs, fuel]
    change steps < (if 0 < limit then limit.toNat + 1 else patience) + 0
    split
    next hpos =>
      have := hlimit hpos
      omega
    next hpos => exact hpatience (Int.not_lt.mp hpos)

theorem run_limited_eq_error {limit : Nat} (h : p.run start = (steps, .ok x)) (hpos : 0 < limit)
    (hlt : limit < steps) :
    ∃ change, (p.limited limit patience).run start =
      (limit, .error (.unsolved (.noConvergence limit change))) := by
  rw [run] at h ⊢
  rw [first_limited]
  split at h
  · cases h
  next s hs =>
    have hsteps := steps_first hs
    apply iterate_limited_eq_error h hpos (by omega) hlt
    change limit < (if 0 < (limit : Int) then (limit : Int).toNat + 1 else patience) + s.steps
    rw [if_pos (by omega)]
    omega

end Problem

namespace Solver

variable {s : Solver α} {start x : Matrix α} {limit : Int} {patience : Nat}

/-- A run that converges, under every limit. -/
theorem runFrom_limited (h : (s.runFrom start).2 = .ok x) :
    ∃ steps, s.runFrom start =
      ({ s with phase := .converged, iterations := steps, result := some x }, .ok x) ∧
    (∀ (limit : Int) (patience : Nat), (0 < limit → steps ≤ limit) →
      (limit ≤ 0 → steps < patience) → (s.limited limit patience).runFrom start =
        ({ s.limited limit patience with
          phase := .converged, iterations := steps, result := some x }, .ok x)) ∧
    ∀ limit : Nat, 0 < limit → limit < steps → ∀ patience, ∃ change,
      (s.limited limit patience).runFrom start =
        ({ s.limited limit patience with phase := .failed, iterations := limit },
          .error (.unsolved (.noConvergence limit change))) := by
  obtain ⟨steps, y, hrun, hfixed⟩ := runFrom_eq_ok h
  refine ⟨steps, ?_, fun limit patience hlimit hpatience => ?_, fun limit hpos hlt patience => ?_⟩
  · simp only [runFrom, hrun, hfixed]
  · have hsame : (s.limited limit patience).problem.run start = (steps, .ok y) :=
      Problem.run_limited_eq_ok hrun hlimit hpatience
    have hrounds : (s.limited limit patience).problem.options.roundDigits =
      s.problem.options.roundDigits := rfl
    simp only [runFrom, hsame, hrounds, hfixed]
  · obtain ⟨change, hstopped⟩ : ∃ change, (s.limited limit patience).problem.run start =
        (limit, .error (.unsolved (.noConvergence limit change))) :=
      Problem.run_limited_eq_error hrun hpos hlt
    refine ⟨change, ?_⟩
    simp only [runFrom, hstopped]
    rfl

end Solver

section

variable {settings : Settings} {es : List Equation} {unknowns : List String}
  {st : Solver Float × Random.Twister} {limit : Int} {patience : Nat}

/-- A call of a solver under another limit. -/
def Solver.callLimited (settings : Settings) (st : Solver Float × Random.Twister) (limit : Int)
    (patience : Nat) (c : Call) : (Solver Float × Random.Twister) × Attempt (Matrix Float) :=
  call (settings.limited limit patience) (st.1.limited limit patience, st.2) c

/-- The stream after a call: only a random point takes from it. -/
def Call.stream (settings : Settings) (unknowns : Nat) (t : Random.Twister) :
    Call → Random.Twister
  | .random => (draw settings unknowns t).2
  | .start _ => t

namespace Solver

theorem callLimited_eq (hs : st.1.problem.residuals.length = st.1.problem.unknowns.length)
    {x : Matrix Float} {c : Call} (hc : c.point settings st.1.problem.unknowns.length st.2 = .ok x)
    (limit : Int) (patience : Nat) :
    callLimited settings st limit patience c =
      ((((st.1.limited limit patience).runFrom x).1,
        c.stream settings st.1.problem.unknowns.length st.2),
        ((st.1.limited limit patience).runFrom x).2) := by
  have hm : (st.1.limited limit patience).mismatch? = none := mismatch?_eq_none_iff.mpr hs
  cases c with
  | start point =>
    cases hc
    simp only [callLimited, call, solveFrom, hm, Call.stream]
  | random =>
    have hdraw : draw (settings.limited limit patience) st.1.problem.unknowns.length st.2 =
        (.ok x, (draw settings st.1.problem.unknowns.length st.2).2) := Prod.ext hc rfl
    have hunknowns : (st.1.limited limit patience).problem.unknowns = st.1.problem.unknowns := rfl
    simp only [callLimited, call, solve, solveFrom, hm, hunknowns, hdraw, Call.stream]

theorem iterations_runFrom {α : Type} [Scalar α] (s : Solver α) (start : Matrix α) :
    (s.runFrom start).1.iterations = (s.problem.run start).1 := by
  rw [runFrom]
  split
  next h => rw [h, abandon]
  next h =>
    split
    · rw [h, abandon]
    · rw [h]

/-- Under a limit a run over equations ends. -/
theorem runFrom_ne_endless {s : Solver Float} (hs : s.problem = .ofEquations settings es unknowns)
    (square : es.length = unknowns.length) (hmax : 0 < settings.maxIterations) (x : Matrix Float) :
    (s.runFrom x).2 ≠ .error (.broken .endless) := by
  intro hend
  have heffect := runFrom_effect hs square x
  generalize s.runFrom x = out at hend heffect
  cases heffect with
  | mismatched h => exact h square
  | unstarted _ h => cases h
  | converged => cases hend
  | failed _ _ catalogued =>
    cases hend
    cases catalogued
  | brokenOff _ _ cause =>
    cases hend
    cases cause with
    | run h =>
      cases h with
      | endless unlimited => exact absurd hmax (not_lt.mpr unlimited)

/-- The limit bounds a call and changes nothing else. Under a limit a call takes no more steps and
comes to an end; and if it converges under one limit, or without any, it does so in the same steps
to the same point wherever it is given these steps, and fails at a limit that is smaller. -/
theorem callLimited_outcome (hs : st.1.problem = .ofEquations settings es unknowns)
    (square : es.length = unknowns.length) {c : Call} {start : Matrix Float}
    (hstart : c.point settings unknowns.length st.2 = .ok start) :
    (∀ limit : Nat, 0 < limit → ∀ patience,
      (callLimited settings st limit patience c).1.1.iterations ≤ limit ∧
      (callLimited settings st limit patience c).2 ≠ .error (.broken .endless)) ∧
    ∀ (limit : Int) (patience : Nat) (x : Matrix Float),
      (callLimited settings st limit patience c).2 = .ok x → ∃ steps t,
        callLimited settings st limit patience c = (({ st.1.limited limit patience with
          phase := .converged, iterations := steps, result := some x }, t), .ok x) ∧
        (∀ (limit' : Int) (patience' : Nat), (0 < limit' → steps ≤ limit') →
          (limit' ≤ 0 → steps < patience') →
          callLimited settings st limit' patience' c = (({ st.1.limited limit' patience' with
            phase := .converged, iterations := steps, result := some x }, t), .ok x)) ∧
        ∀ limit' : Nat, 0 < limit' → limit' < steps → ∀ patience', ∃ change,
          callLimited settings st limit' patience' c = (({ st.1.limited limit' patience' with
            phase := .failed, iterations := limit' }, t),
              .error (.unsolved (.noConvergence limit' change))) := by
  have hunknowns : st.1.problem.unknowns = unknowns := by rw [hs]; rfl
  have hresiduals : st.1.problem.residuals.length = st.1.problem.unknowns.length := by
    rw [hunknowns, ← square, hs]
    exact List.length_map _
  rw [← hunknowns] at hstart
  have heq := callLimited_eq hresiduals hstart
  refine ⟨fun limit hpos patience => ?_, fun limit patience x hx => ?_⟩
  · have hproblem : (st.1.limited limit patience).problem =
        .ofEquations (settings.limited limit patience) es unknowns := by
      rw [limited, hs]
      rfl
    have hmax : 0 < (settings.limited limit patience).maxIterations := Int.natCast_pos.mpr hpos
    rw [heq]
    refine ⟨?_, runFrom_ne_endless hproblem square hmax start⟩
    rw [iterations_runFrom, hproblem]
    exact Int.ofNat_le.mp (Problem.run_fst_le hmax start)
  · rw [heq] at hx
    obtain ⟨steps, hsame, hconverges, hstops⟩ := runFrom_limited hx
    refine ⟨steps, c.stream settings st.1.problem.unknowns.length st.2, ?_,
      fun limit' patience' hlimit hpatience => ?_, fun limit' hpos hlt patience' => ?_⟩
    · rw [heq, hsame]
    · have hconverges : (st.1.limited limit' patience').runFrom start = _ :=
        hconverges limit' patience' hlimit hpatience
      rw [heq, hconverges]
      rfl
    · obtain ⟨change, hstopped⟩ := hstops limit' hpos hlt patience'
      have hstopped : (st.1.limited limit' patience').runFrom start = _ := hstopped
      refine ⟨change, ?_⟩
      rw [heq, hstopped]
      rfl

/-- A solver that finds the unknown in two steps. -/
def twoStepSolver : Solver Float × Random.Twister :=
  ({ problem := .ofEquations {} [unknownIsOne] ["x"] }, ⟨#[], 0⟩)

theorem callLimited_outcome_twoSteps :
    let c := Call.start (Matrix.column [0.5])
    twoStepSolver.1.problem = .ofEquations {} [unknownIsOne] ["x"] ∧
    [unknownIsOne].length = ["x"].length ∧
    (∃ start, c.point {} ["x"].length twoStepSolver.2 = .ok start) ∧
    ∃ x, (callLimited {} twoStepSolver 500 0 c).2 = .ok x ∧
      (callLimited {} twoStepSolver 2 0 c).2 = .ok x ∧
      (callLimited {} twoStepSolver 0 3 c).2 = .ok x ∧
      ∃ change, (callLimited {} twoStepSolver 1 0 c).2 =
          .error (.unsolved (.noConvergence 1 change)) ∧
        (callLimited {} twoStepSolver 1 0 c).1.1.phase = .failed := by
  intro c
  have hproblem : twoStepSolver.1.problem = .ofEquations {} [unknownIsOne] ["x"] := rfl
  have hstart : c.point {} ["x"].length twoStepSolver.2 = .ok ⟨1, 1, [[0.5]]⟩ := rfl
  obtain ⟨hsteps, hok⟩ : (callLimited {} twoStepSolver 500 0 c).1.1.iterations = 2 ∧
      (callLimited {} twoStepSolver 500 0 c).2.isOk = true := by decide +kernel
  refine ⟨hproblem, rfl, ⟨_, hstart⟩, ?_⟩
  cases hx : (callLimited {} twoStepSolver 500 0 c).2 with
  | error f =>
    rw [hx] at hok
    cases hok
  | ok x =>
    obtain ⟨steps, t, hsame, hconverges, hstops⟩ :=
      (callLimited_outcome hproblem rfl hstart).2 500 0 x hx
    rw [hsame] at hsteps
    obtain rfl : steps = 2 := hsteps
    obtain ⟨change, hstopped⟩ := hstops 1 (by decide) (by decide) 0
    have hstopped : callLimited {} twoStepSolver 1 0 c = _ := hstopped
    refine ⟨x, rfl, ?_, ?_, change, ?_, ?_⟩
    · rw [hconverges 2 0 (by decide) (by decide)]
    · rw [hconverges 0 3 (by decide) (by decide)]
    · rw [hstopped]
    · rw [hstopped]

end Solver

end

end Newton

end Simultaneous
