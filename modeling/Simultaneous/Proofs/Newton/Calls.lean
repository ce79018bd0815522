import Simultaneous.Proofs.Newton.Breakage

/-!
A solver called again and again. A call is rejected and changes nothing, or it runs, and then the
phase of the solver tells how the run ended; a run that breaks off leaves the solver iterating.
-/

namespace Simultaneous.Newton

open Attempt

/-- A call from a random point, or from a given one that may be missing for a reason. -/
inductive Call
  | random
  | start (point : Attempt (Matrix Float))

/-- The starting point of a call, over as many variables, and from a stream. -/
def Call.point (settings : Settings) (unknowns : Nat) (t : Random.Twister) :
    Call → Attempt (Matrix Float)
  | .random => (draw settings unknowns t).1
  | .start point => point

namespace Solver

/-- A call of a solver with a stream for its random points. -/
def call (settings : Settings) (st : Solver Float × Random.Twister) :
    Call → (Solver Float × Random.Twister) × Attempt (Matrix Float)
  | .random => st.1.solve settings st.2
  | .start point => (((st.1.solveFrom point).1, st.2), (st.1.solveFrom point).2)

/-- The solver and its stream after several calls. -/
def afterCalls (settings : Settings) (st : Solver Float × Random.Twister) (cs : List Call) :
    Solver Float × Random.Twister := cs.foldl (fun st c => (call settings st c).1) st

/-- What breaks a run off that starts at a point. -/
inductive CallBreakage (settings : Settings) (es : List Equation) (unknowns : List String)
    (x : Matrix Float) : Breakage → Prop
  | run {reason : Breakage} (h : RunBreakage es settings reason) :
      CallBreakage settings es unknowns x reason
  | noCoordinate (h : ¬ x.HasShape unknowns.length 1) :
      CallBreakage settings es unknowns x (.indexOutOfRange "list")

/-- What a call does to a solver and what it answers. -/
inductive Effect (settings : Settings) (es : List Equation) (unknowns : List String)
    (s : Solver Float) (start : Attempt (Matrix Float)) :
    Solver Float × Attempt (Matrix Float) → Prop
  | mismatched (h : es.length ≠ unknowns.length) :
      Effect settings es unknowns s start
        (s, .error (.unsolved (.mismatch es.length unknowns.length)))
  | unstarted {f : Failure} (square : es.length = unknowns.length) (h : start = .error f) :
      Effect settings es unknowns s start (s, .error f)
  | converged {x y : Matrix Float} {steps : Nat} (square : es.length = unknowns.length)
      (h : start = .ok x) (fits : x.HasShape unknowns.length 1 → y.HasShape unknowns.length 1) :
      Effect settings es unknowns s start
        ({ s with phase := .converged, iterations := steps, result := some y }, .ok y)
  | failed {x : Matrix Float} {steps : Nat} {f : Failure} (square : es.length = unknowns.length)
      (h : start = .ok x) (catalogued : f.isBroken = false) :
      Effect settings es unknowns s start
        ({ s with phase := .failed, iterations := steps }, .error f)
  | brokenOff {x : Matrix Float} {steps : Nat} {reason : Breakage}
      (square : es.length = unknowns.length) (h : start = .ok x)
      (cause : CallBreakage settings es unknowns x reason) :
      Effect settings es unknowns s start
        ({ s with phase := .iterating, iterations := steps }, .error (.broken reason))

variable {settings : Settings} {es : List Equation} {unknowns : List String} {s : Solver Float}
  {start : Attempt (Matrix Float)} {out : Solver Float × Attempt (Matrix Float)}
  {st : Solver Float × Random.Twister}

theorem callBreakage_of_halt {x : Matrix Float} {reason : Breakage}
    (h : (Problem.ofEquations settings es unknowns).Halt x (.broken reason)) :
    CallBreakage settings es unknowns x reason := by
  cases h with
  | fault h =>
    cases runFailure_of_fault (List.Subset.refl es) h with
    | broken h => exact .run h
  | noCoordinate h => exact .noCoordinate h

/-- Without residuals there is nothing to start from. -/
theorem runFrom_empty {α : Type} [Scalar α] {s : Solver α} (h : s.problem.residuals.length = 0)
    (x : Matrix α) :
    s.runFrom x = ({ s with phase := .failed, iterations := 0 },
      .error (.matrix (.badSize "0" "1") false)) := by
  have hvalues : s.problem.values x = .error (.matrix (.badSize "0" "1") false) := by
    rw [Problem.values, h]
    rfl
  rw [runFrom, Problem.run, Problem.first, hvalues]
  rfl

theorem runFrom_effect (hs : s.problem = .ofEquations settings es unknowns)
    (square : es.length = unknowns.length) (x : Matrix Float) :
    Effect settings es unknowns s (.ok x) (s.runFrom x) := by
  have hunknowns : s.problem.unknowns = unknowns := by rw [hs]; rfl
  have hresiduals : s.problem.residuals.length = es.length := by rw [hs]; exact List.length_map _
  obtain hempty | hpos := Nat.eq_zero_or_pos es.length
  · rw [runFrom_empty (hresiduals.trans hempty) x]
    exact .failed square rfl rfl
  have hsquare : s.problem.IsSquare := by
    constructor
    · rw [hresiduals, hunknowns, square]
    · rwa [hunknowns, ← square]
  have hends := runFrom_ends hsquare x
  generalize s.runFrom x = out at hends ⊢
  cases hends with
  | converged fits =>
    rw [Problem.Fits, Problem.Fits, hunknowns] at fits
    exact .converged square rfl fits
  | failed catalogued halt => exact .failed square rfl catalogued
  | brokenOff halt =>
    rw [hs] at halt
    exact .brokenOff square rfl (callBreakage_of_halt halt)

theorem mismatch?_eq (hs : s.problem = .ofEquations settings es unknowns) :
    s.mismatch? = if es.length = unknowns.length then none
      else some (.unsolved (.mismatch es.length unknowns.length)) := by
  rw [mismatch?, hs, Problem.ofEquations, List.length_map]

theorem solveFrom_effect (hs : s.problem = .ofEquations settings es unknowns)
    (start : Attempt (Matrix Float)) : Effect settings es unknowns s start (s.solveFrom start) := by
  by_cases square : es.length = unknowns.length
  · simp only [solveFrom, mismatch?_eq hs, if_pos square]
    cases start with
    | error f => exact .unstarted square rfl
    | ok x => exact runFrom_effect hs square x
  · simpa only [solveFrom, mismatch?_eq hs, if_neg square] using .mismatched square

theorem call_effect (hs : st.1.problem = .ofEquations settings es unknowns) (c : Call) :
    Effect settings es unknowns st.1 (c.point settings unknowns.length st.2)
      ((call settings st c).1.1, (call settings st c).2) := by
  cases c with
  | start point => exact solveFrom_effect hs point
  | random =>
    have heffect := solveFrom_effect hs (draw settings unknowns.length st.2).1
    have hunknowns : st.1.problem.unknowns = unknowns := by rw [hs]; rfl
    by_cases square : es.length = unknowns.length
    · simp only [call, solve, mismatch?_eq hs, if_pos square, hunknowns]
      exact heffect
    · simpa only [call, solve, mismatch?_eq hs, if_neg square] using .mismatched square

theorem Effect.problem_eq (h : Effect settings es unknowns s start out) :
    out.1.problem = s.problem := by
  cases h <;> rfl

theorem problem_afterCalls (hs : st.1.problem = .ofEquations settings es unknowns)
    (cs : List Call) :
    (afterCalls settings st cs).1.problem = .ofEquations settings es unknowns := by
  induction cs generalizing st with
  | nil => exact hs
  | cons c cs ih => exact ih ((call_effect hs c).problem_eq.trans hs)

/-- A call leaves a solver iterating that was so before, or that breaks off. -/
theorem Effect.iterating (h : Effect settings es unknowns s start out)
    (hphase : out.1.phase = .iterating) :
    s.phase = .iterating ∨ ∃ x reason, start = .ok x ∧
      CallBreakage settings es unknowns x reason ∧ out.2 = .error (.broken reason) := by
  cases h with
  | mismatched | unstarted => exact .inl hphase
  | converged | failed => cases hphase
  | brokenOff square h cause => exact .inr ⟨_, _, h, cause, rfl⟩

theorem iterating_afterCalls (hs : st.1.problem = .ofEquations settings es unknowns)
    (hfresh : st.1.phase ≠ .iterating) {cs : List Call}
    (hphase : (afterCalls settings st cs).1.phase = .iterating) :
    ∃ before c after x reason, cs = before ++ c :: after ∧
      c.point settings unknowns.length (afterCalls settings st before).2 = .ok x ∧
      CallBreakage settings es unknowns x reason ∧
      (call settings (afterCalls settings st before) c).2 = .error (.broken reason) := by
  induction cs using List.reverseRecOn with
  | nil => exact absurd hphase hfresh
  | append_singleton cs c ih =>
    rw [afterCalls, List.foldl_concat] at hphase
    obtain hbefore | ⟨x, reason, hx⟩ :=
      (call_effect (problem_afterCalls hs cs) c).iterating hphase
    · obtain ⟨before, d, after, x, reason, rfl, hx⟩ := ih hbefore
      exact ⟨before, d, after ++ [c], x, reason, by simp, hx⟩
    · exact ⟨cs, c, [], x, reason, rfl, hx⟩

/-- An unknown is to be one. -/
def unknownIsOne : Equation :=
  ⟨.ofTree (.sym "x") ["x"] "x", .wrap 1⟩

/-- The starting point of a call is of the size of the problem, if there is one. -/
def Fitting (unknowns : List String) : Call → Prop
  | .random => True
  | .start point => ∀ x, point = .ok x → x.HasShape unknowns.length 1

/-- With proper options, equations that can be written out and points that fit, no calls leave a
solver iterating. -/
theorem phase_ne_iterating (hproper : settings.Proper) (hes : ∀ e ∈ es, e.IsWritable)
    {cs : List Call} (hcs : ∀ c ∈ cs, Fitting unknowns c)
    (hs : st.1.problem = .ofEquations settings es unknowns) (hfresh : st.1.phase ≠ .iterating) :
    (afterCalls settings st cs).1.phase ≠ .iterating := by
  intro hphase
  obtain ⟨before, c, after, x, reason, rfl, hx, hcause, -⟩ :=
    iterating_afterCalls hs hfresh hphase
  cases hcause with
  | run h =>
    obtain ⟨-, e, he, hunwritable⟩ := h.eq_longInt hproper
    exact hunwritable (hes e he)
  | noCoordinate h =>
    apply h
    cases c with
    | start point =>
      have hfitting : Fitting unknowns (.start point) := hcs _ (by simp)
      exact hfitting x hx
    | random =>
      obtain hempty | hpos := Nat.eq_zero_or_pos unknowns.length
      · rw [Call.point, draw, hempty] at hx
        cases hx
      · obtain ⟨y, hy, hshape⟩ := draw_eq_ok settings hpos (afterCalls settings st before).2
        rw [Call.point, hy] at hx
        cases hx
        exact hshape

end Solver

end Simultaneous.Newton
