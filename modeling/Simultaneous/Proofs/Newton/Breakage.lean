import Simultaneous.Proofs.Decimal.Nearest
import Simultaneous.Proofs.Evaluation
import Simultaneous.Proofs.Newton.Outcome

/-!
What a run over equations fails with, and what breaks it. With proper options it breaks on nothing
but an integer too long to be written out.
-/

namespace Simultaneous

/-- Options under which runs end and divide by no zero. -/
structure Settings.Proper (s : Settings) : Prop where
  limited : 0 < s.maxIterations
  epsilon_ne : (s.epsilon == 0) = false
  pivotTolerance_pos : 0 < s.pivotTolerance
  roundDigits_nonneg : 0 ≤ s.roundDigits

namespace Newton

/-- What breaks a run over equations: an integer that cannot be written out, or an option. -/
inductive RunBreakage (es : List Equation) (settings : Settings) : Breakage → Prop
  | tooLong {e : Equation} (mem : e ∈ es) (unwritable : ¬ e.IsWritable) :
      RunBreakage es settings (.longInt none)
  | zeroPivot {x pivot : Float}
      (large : ¬ Scalar.less (Scalar.magnitude pivot) settings.pivotTolerance = true)
      (over?_eq : Scalar.over? x pivot = none) : RunBreakage es settings .floatDivisionByZero
  | noSlope {d : Float} (over?_eq : Scalar.over? d settings.epsilon = none) :
      RunBreakage es settings .floatDivisionByZero
  | endless (unlimited : settings.maxIterations ≤ 0) : RunBreakage es settings .endless
  | tooLarge {x : Float} (rounded?_eq : Scalar.rounded? settings.roundDigits x = none) :
      RunBreakage es settings .roundedTooLarge

/-- What a run over equations can fail with. -/
inductive RunFailure (es : List Equation) (settings : Settings) : Failure → Prop
  | evaluation (detail : String) : RunFailure es settings (.unsolved (.evaluation detail))
  | noPivot (column : Nat) (transient : Bool) :
      RunFailure es settings (.matrix (.noPivot column) transient)
  | noConvergence (steps : Nat) (change : String) :
      RunFailure es settings (.unsolved (.noConvergence steps change))
  | broken {reason : Breakage} (h : RunBreakage es settings reason) :
      RunFailure es settings (.broken reason)

theorem runFailure_of_fault {es all : List Equation} (hes : es ⊆ all) {settings : Settings}
    {unknowns : List String} {f : Failure}
    (h : (Problem.ofEquations settings es unknowns).Fault f) : RunFailure all settings f := by
  cases h with
  | value mem value_eq =>
    obtain ⟨e, he, rfl⟩ := List.mem_map.mp mem
    cases (e.residual_ensures _).of_eq_error value_eq with
    | evaluation detail => exact .evaluation detail
    | tooLong unwritable => exact .broken (.tooLong (hes he) unwritable)
  | singular h =>
    cases h with
    | noPivot column => exact .noPivot column false
    | zeroPivot large over?_eq => exact .broken (.zeroPivot large over?_eq)
  | noConvergence steps change => exact .noConvergence steps change
  | noSlope over?_eq => exact .broken (.noSlope over?_eq)
  | endless unlimited => exact .broken (.endless unlimited)
  | tooLarge rounded?_eq => exact .broken (.tooLarge rounded?_eq)

theorem RunBreakage.eq_longInt {es : List Equation} {settings : Settings} (hproper : settings.Proper)
    {reason : Breakage} (h : RunBreakage es settings reason) :
    reason = .longInt none ∧ ∃ e ∈ es, ¬ e.IsWritable := by
  cases h with
  | tooLong mem unwritable => exact ⟨rfl, _, mem, unwritable⟩
  | @zeroPivot x pivot large over?_eq =>
    have hzero : (pivot == 0) = true := by
      by_contra hne
      simp [Scalar.over?, hne] at over?_eq
    -- A pivot that is zero is small, so that the division is never reached.
    have hsmall : pivot.abs < settings.pivotTolerance := by
      rw [Double.abs_eq_zero hzero]
      exact hproper.pivotTolerance_pos
    exact absurd (decide_eq_true hsmall) large
  | noSlope over?_eq => simp [Scalar.over?, hproper.epsilon_ne] at over?_eq
  | endless unlimited => exact absurd hproper.limited (not_lt.mpr unlimited)
  | @tooLarge x rounded?_eq =>
    obtain ⟨y, hy⟩ := Decimal.exists_roundPlaces? hproper.roundDigits_nonneg x
    simp [Scalar.rounded?, hy] at rounded?_eq

end Newton

end Simultaneous
