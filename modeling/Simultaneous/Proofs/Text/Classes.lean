import Mathlib.Data.List.Basic
import Simultaneous.Text.Character

/-!
Classes of characters have their members listed by code point, so that what holds of a class can be
checked member by member.
-/

namespace Simultaneous.Text

variable {c : Char} {P : Char → Prop}

def blankCodes : List Nat := [
  9, 10, 11, 12, 13, 28, 29, 30, 31, 32, 133, 160, 5760, 8192, 8193, 8194, 8195, 8196, 8197, 8198,
  8199, 8200, 8201, 8202, 8232, 8233, 8239, 8287, 12288]

theorem forall_of_isBlank (h : ∀ n ∈ blankCodes, P (Char.ofNat n)) (hc : isBlank c = true) :
    P c := by
  have hmem : c.toNat ∈ blankCodes := by
    simp only [isBlank] at hc
    simp only [blankCodes, List.mem_cons, List.not_mem_nil, or_false]
    split at hc <;>
      · simp only [Bool.or_eq_true, Bool.and_eq_true, decide_eq_true_eq, beq_iff_eq] at hc
        omega
  exact Char.ofNat_toNat c ▸ h c.toNat hmem

theorem forall_of_ascii (h : ∀ n < 128, P (Char.ofNat n)) (hc : c.toNat < 128) : P c :=
  Char.ofNat_toNat c ▸ h c.toNat hc

theorem exists_zero_of_isDigit (h : isDigit c = true) :
    isAsciiDigit c = true ∨ ∃ z ∈ Alphabet.zeros, z ≤ c.toNat ∧ c.toNat < z + 10 := by
  rw [isDigit, digitValue?] at h
  split at h
  next hascii => exact .inl hascii
  split at h
  · cases h
  · obtain ⟨z, hz⟩ := Option.isSome_iff_exists.mp (Option.isSome_map.symm.trans h)
    have hbounds := List.find?_some hz
    simp only [Bool.and_eq_true, decide_eq_true_eq] at hbounds
    exact .inr ⟨z, List.mem_of_find?_eq_some hz, hbounds⟩

/-- The digits of every script lie in one range of letters and numerals, and no blank does. -/
theorem within_alphanumeric : (∀ z ∈ Alphabet.zeros,
      128 ≤ z ∧ (Alphabet.alphanumeric.any fun r => Nat.ble r.1 z && Nat.ble (z + 9) r.2) = true) ∧
    ∀ n ∈ blankCodes, isWord (Char.ofNat n) = false := by
  decide +kernel

theorem isWord_of_isDigit (h : isDigit c = true) : isWord c = true := by
  obtain hascii | ⟨z, hz, hle, hlt⟩ := exists_zero_of_isDigit h
  · have hbounds : '0' ≤ c ∧ c ≤ '9' := by simpa [isAsciiDigit] using hascii
    have hbounds : 48 ≤ c.toNat ∧ c.toNat ≤ 57 := hbounds
    rw [isWord, if_pos (by omega), hascii]
    rfl
  · obtain ⟨hascii, hrange⟩ := within_alphanumeric.1 z hz
    obtain ⟨r, hr, hbounds⟩ := List.any_eq_true.mp hrange
    rw [isWord, if_neg (by omega), Alphabet.within, List.any_eq_true]
    simp only [Bool.and_eq_true, Nat.ble_eq] at hbounds ⊢
    exact ⟨r, hr, by omega, by omega⟩

theorem isWord_of_isBlank (h : isBlank c = true) : isWord c = false :=
  forall_of_isBlank (P := fun c => isWord c = false) within_alphanumeric.2 h

theorem isDigit_of_isBlank (h : isBlank c = true) : isDigit c = false :=
  Bool.eq_false_iff.mpr fun hc =>
    Bool.false_ne_true ((isWord_of_isBlank h).symm.trans (isWord_of_isDigit hc))

theorem isBlank_of_isDigit (h : isDigit c = true) : isBlank c = false :=
  Bool.eq_false_iff.mpr fun hc => by simp [isDigit_of_isBlank hc] at h

end Simultaneous.Text
