import Simultaneous.Proofs.Formula.Reading
import Simultaneous.Proofs.Validation

/-!
What escapes of solving a text, unreported. Reading escapes by a mishap only, and under proper
options a run by an integer too long to be written out; every other failure is reported with a
message, a code, and no solution.
-/

namespace Simultaneous

open Formula

theorem Newton.RunFailure.eq_longInt {es : List Equation} {settings : Settings}
    (hproper : settings.Proper) {f : Failure} (h : RunFailure es settings f)
    (hf : f.report? = none) : f = .broken (.longInt none) ∧ ∃ e ∈ es, ¬ e.IsWritable := by
  cases h with
  | evaluation detail => cases hf
  | noPivot column transient => cases hf
  | noConvergence steps change => cases hf
  | broken h =>
    obtain ⟨rfl, hlong⟩ := h.eq_longInt hproper
    exact ⟨rfl, hlong⟩

section

variable {settings : Settings} {stream : Random.Twister} {gs : List Equation.Given} {f : Failure}

end

end Simultaneous
