import Simultaneous.Proofs.Decimal.Nearest

/-!
The classes of doubles: one that is a number and not infinite has a sign, a mantissa and an
exponent, and of the infinite ones there are two.
-/

namespace Simultaneous.Decimal

open Float.Model Float.Model.UnpackedFloat

theorem exists_ofFloat? {x : Float} (hnan : x.isNaN = false) (hinf : x.isInf = false) :
    ∃ b, ofFloat? x = some b := by
  rw [ofFloat?]
  simp only [Nat.pow_eq]
  split
  next hfield =>
    have hexponent : @unpackExponent .binary64 x.toBits.toBitVec = -1#11 := by
      apply BitVec.eq_of_toNat_eq
      rw [toNat_unpackExponent]
      exact beq_iff_eq.mp hfield
    change (UnpackedFloat.unpack .binary64 x.toBits.toBitVec).isNaN = false at hnan
    change (UnpackedFloat.unpack .binary64 x.toBits.toBitVec).isInf = false at hinf
    rw [UnpackedFloat.unpack] at hnan hinf
    simp only at hnan hinf
    rw [if_pos hexponent] at hnan hinf
    split at hinf
    · cases hinf
    next hmantissa =>
      rw [if_neg hmantissa] at hnan
      cases hnan
  · split
    · exact ⟨_, rfl⟩
    · exact ⟨_, rfl⟩

/-- There is one infinity of either sign. -/
theorem eq_infinity_of_isInf {x : Float} (hx : x.isInf = true) :
    x = infinity false ∨ x = infinity true := by
  have hunpack : ∃ s, UnpackedFloat.unpack .binary64 x.toBits.toBitVec = .infinity s := by
    change (UnpackedFloat.unpack .binary64 x.toBits.toBitVec).isInf = true at hx
    cases hu : UnpackedFloat.unpack .binary64 x.toBits.toBitVec with
    | infinity s => exact ⟨s, rfl⟩
    | _ => rw [hu] at hx; cases hx
  obtain ⟨s, hs⟩ := hunpack
  have hbits : UInt64.ofBitVec (UnpackedFloat.pack .binary64 (.infinity s)) = x.toBits := by
    have hnan : ¬ @isNaNBits .binary64 x.toBits.toBitVec = true := fun hn => by
      obtain ⟨he, hm⟩ := of_decide_eq_true hn
      rw [UnpackedFloat.unpack] at hs
      simp only at hs
      rw [if_pos he, if_neg hm] at hs
      cases hs
    rw [← hs, pack_unpack, if_neg hnan]
  rw [← Float.ofBits_toBits x, ← hbits]
  cases s
  · exact .inr rfl
  · exact .inl rfl

end Simultaneous.Decimal
