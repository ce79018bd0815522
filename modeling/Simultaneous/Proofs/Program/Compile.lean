import Simultaneous.Proofs.Attempt
import Simultaneous.Proofs.Program.Denotation

/-!
What the program of a tree comes to is the value of the tree, if the names of its symbols and
constants stand for what they are read as.
-/

namespace Simultaneous.Program

open Algebra Algebra.Expr Attempt

variable {env : Bindings} {ρ : Reading} {c c' : Code} {a a' : Outcome Value}

/-- Whatever a program comes to is the given value. -/
def Computes (env : Bindings) (c : Code) (a : Outcome Value) : Prop :=
  ∀ v, c.run env = .ok v → a = .ok v

theorem Computes.binary (h : Computes env c a) (h' : Computes env c' a') (op : Operation) :
    Computes env (.binary op c c') (op.applyTo a a') := by
  intro v hv
  obtain ⟨x, hx, hv⟩ := bind_eq_ok.mp hv
  obtain ⟨y, hy, hv⟩ := bind_eq_ok.mp hv
  rw [h x hx, h' y hy]
  exact hv

theorem Computes.neg (h : Computes env c a) : Computes env (.neg c) (a.map Value.neg) := by
  intro v hv
  obtain ⟨x, hx, hv⟩ := bind_eq_ok.mp hv
  rw [h x hx]
  exact hv

theorem Computes.call (h : Computes env c a) (r : Routine) :
    Computes env (.call r c) (a >>= r.apply) := by
  intro v hv
  obtain ⟨x, hx, hv⟩ := bind_eq_ok.mp hv
  obtain ⟨_, -, hv⟩ := bind_eq_ok.mp hv
  rw [h x hx]
  exact hv

theorem Computes.signed (h : Computes env c a) (neg : Bool) :
    Computes env (if neg then .neg c else c) (signed neg a) := by
  cases neg
  · exact h
  · exact h.neg

section

variable {fuel : Nat}

end

end Simultaneous.Program
