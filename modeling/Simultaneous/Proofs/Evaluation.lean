import Simultaneous.Newton.Solver
import Simultaneous.Proofs.Attempt
import Simultaneous.Proofs.Double.Order

/-!
What an evaluation comes to: a finite double, an evaluation failure, or a breakage for an integer
that is too long; and it is the same wherever the values of its own variables are. An equation
holds at a point if both of its sides have values there that differ by no more than a tolerance.
-/

namespace Simultaneous

open Attempt

/-- The failures of an evaluation: there is no value, or an integer cannot be written out. -/
inductive Unevaluated (writable : Prop) : Failure → Prop
  | evaluation (detail : String) : Unevaluated writable (.unsolved (.evaluation detail))
  | tooLong (unwritable : ¬ writable) : Unevaluated writable (.broken (.longInt none))

theorem Unevaluated.imp {p q : Prop} {f : Failure} (h : Unevaluated p f) (hqp : q → p) :
    Unevaluated q f := by
  cases h with
  | evaluation detail => exact .evaluation detail
  | tooLong unwritable => exact .tooLong (mt hqp unwritable)

namespace Expression

open Program

theorem evaluate_ensures (e : Expression) (env : Bindings) :
    Ensures (fun x => x.isFinite = true) (Unevaluated (e.code.isWritable = true))
      (e.evaluate env) := by
  rw [evaluate]
  split
  next h => exact .error (.tooLong (by simpa using h))
  split
  · exact .error (.evaluation _)
  split
  · exact .error (.evaluation _)
  split
  next hx => exact .ok hx
  next => exact .error (.evaluation _)

/-- A value, or the want of one, depends on the values of the variables alone. -/
theorem evaluate_congr {e : Expression} {env env' : Bindings}
    (h : ∀ s ∈ e.unknowns, env s = env' s) : e.evaluate env = e.evaluate env' := by
  have hrestrict : e.restrict env = e.restrict env' := by
    funext s
    rw [restrict, restrict]
    split
    next hs => exact h s (List.contains_iff_mem.mp hs)
    next => rfl
  have hunbound : e.unbound? env = e.unbound? env' :=
    List.find?_congr fun s hs => by rw [h s hs]
  rw [evaluate, evaluate, hrestrict, hunbound]

end Expression

namespace Equation

open Newton

theorem residual_congr {e : Equation} {env env' : String → Option Float}
    (h : ∀ s ∈ e.unknowns, env s = env' s) : e.toResidual.value env = e.toResidual.value env' := by
  have hmem : ∀ s ∈ e.left.unknowns ++ e.right.unknowns,
      (env s).map Program.Value.real = (env' s).map .real := fun s hs => by
    rw [h s (List.mem_eraseDups.mpr hs)]
  have hleft := Expression.evaluate_congr fun s hs => hmem s (List.mem_append_left _ hs)
  have hright := Expression.evaluate_congr fun s hs => hmem s (List.mem_append_right _ hs)
  change e.residual _ = e.residual _
  rw [residual, residual, hleft, hright]

/-- All integers of both sides can be written out. -/
def IsWritable (e : Equation) : Prop :=
  e.left.code.isWritable = true ∧ e.right.code.isWritable = true

/-- The doubles of a point as the values of the unknowns. -/
def valuesAt (unknowns : List String) (point : Matrix Float) : Program.Bindings :=
  fun name => (bindings unknowns point name).map .real

/-- Both sides have finite values at a point, and these differ by at most the tolerance. -/
def HoldsAt (e : Equation) (unknowns : List String) (tolerance : Float) (point : Matrix Float) :
    Prop :=
  ∃ a b, e.left.evaluate (valuesAt unknowns point) = .ok a ∧
    e.right.evaluate (valuesAt unknowns point) = .ok b ∧ a.isFinite ∧ b.isFinite ∧
    (a - b).abs ≤ tolerance

/-- There is a residual at a point, and it is not found to be larger than the tolerance. -/
def PassesAt (e : Equation) (unknowns : List String) (tolerance : Float) (point : Matrix Float) :
    Prop :=
  ∃ r, e.toResidual.value (bindings unknowns point) = .ok r ∧ ¬ tolerance < r.abs

variable {e : Equation} {unknowns : List String} {point : Matrix Float}

theorem residual_eq_ok {r : Float}
    (h : e.toResidual.value (bindings unknowns point) = .ok r) :
    ∃ a b, e.left.evaluate (valuesAt unknowns point) = .ok a ∧
      e.right.evaluate (valuesAt unknowns point) = .ok b ∧ r = a - b := by
  obtain ⟨a, ha, h⟩ := bind_eq_ok.mp h
  obtain ⟨b, hb, h⟩ := bind_eq_ok.mp h
  cases h
  exact ⟨a, b, ha, hb, rfl⟩

/-- A residual is a number, if only an infinite one. -/
theorem residual_ensures (e : Equation) (env : String → Option Float) :
    Ensures (fun r => r.isNaN = false) (Unevaluated e.IsWritable) (e.toResidual.value env) := by
  apply ((e.left.evaluate_ensures _).imp (fun _ h => h) fun _ h => h.imp And.left).bind
  intro a ha
  apply ((e.right.evaluate_ensures _).imp (fun _ h => h) fun _ h => h.imp And.right).bind
  intro b hb
  exact .ok (Double.isNaN_sub ha hb)

/-- Unless the tolerance is no number, an equation passes just where it holds. -/
theorem passesAt_iff {tolerance : Float} (ht : tolerance.isNaN = false) :
    e.PassesAt unknowns tolerance point ↔ e.HoldsAt unknowns tolerance point := by
  constructor
  · rintro ⟨r, hr, hlt⟩
    have hn := Double.isNaN_abs ((e.residual_ensures _).of_eq_ok hr)
    obtain ⟨a, b, ha, hb, rfl⟩ := residual_eq_ok hr
    exact ⟨a, b, ha, hb, (e.left.evaluate_ensures _).of_eq_ok ha,
      (e.right.evaluate_ensures _).of_eq_ok hb, (Double.not_lt_iff ht hn).mp hlt⟩
  · rintro ⟨a, b, ha, hb, hfa, hfb, hle⟩
    have hn := Double.isNaN_abs (Double.isNaN_sub hfa hfb)
    exact ⟨a - b, bind_eq_ok.mpr ⟨a, ha, bind_eq_ok.mpr ⟨b, hb, rfl⟩⟩,
      (Double.not_lt_iff ht hn).mpr hle⟩

end Equation

end Simultaneous
