import Simultaneous.Proofs.Text.Classes

/-!
Lowering a text. A character without case stands in the lowered text where it stands in the text,
and the parts around it are lowered on their own.
-/

namespace Simultaneous.Text

/-- Lowering keeps the character and makes it from no other one. -/
structure IsCaseless (a : Char) : Prop where
  lowerChar_eq : lowerChar a = [a]
  eq_of_mem : ∀ c, a ∈ lowerChar c → c = a

theorem toNat_ofNat_of_lt {n : Nat} (h : n < 128) : (Char.ofNat n).toNat = n := by
  have : ∀ n < 128, (Char.ofNat n).toNat = n := by decide
  exact this n h

/-- Neither a letter nor one of the characters that turn into letters. -/
def IsOutsideLetters (n : Nat) : Prop :=
  (n < 65 ∨ 90 < n) ∧ (n < 97 ∨ 122 < n) ∧ n ≠ 304 ∧ n ≠ 775 ∧ n ≠ 8490

instance (n : Nat) : Decidable (IsOutsideLetters n) :=
  inferInstanceAs (Decidable (_ ∧ _ ∧ _ ∧ _ ∧ _))

theorem IsOutsideLetters.isCaseless {a : Char} (h : IsOutsideLetters a.toNat) : IsCaseless a := by
  obtain ⟨hcapital, hsmall, hdotted, hdot, hkelvin⟩ := h
  constructor
  · have hnot : ¬ ('A' ≤ a ∧ a ≤ 'Z') := fun h => by
      have : 65 ≤ a.toNat ∧ a.toNat ≤ 90 := h
      omega
    simp [lowerChar, hnot, hdotted, hkelvin]
  · intro c ha
    unfold lowerChar at ha
    split at ha
    next hc =>
      have hc : 'A' ≤ c ∧ c ≤ 'Z' := by simpa using hc
      have hc : 65 ≤ c.toNat ∧ c.toNat ≤ 90 := hc
      rw [List.mem_singleton] at ha
      have := ha ▸ toNat_ofNat_of_lt (n := c.toNat + 32) (by omega)
      omega
    split at ha
    · obtain rfl | ha := List.mem_cons.mp ha
      · exact absurd hsmall (by decide)
      · rw [List.mem_singleton.mp ha] at hdot
        exact absurd rfl hdot
    split at ha
    · rw [List.mem_singleton.mp ha] at hsmall
      exact absurd hsmall (by decide)
    · exact (List.mem_singleton.mp ha).symm

theorem isOutsideLetters_of_isBlank {c : Char} (h : isBlank c = true) :
    IsOutsideLetters c.toNat :=
  forall_of_isBlank (P := fun c => IsOutsideLetters c.toNat) (by decide) h

theorem isOutsideLetters_of_isDigit {c : Char} (h : isDigit c = true) :
    IsOutsideLetters c.toNat := by
  simp only [IsOutsideLetters]
  obtain hascii | ⟨z, hmem, hbounds⟩ := exists_zero_of_isDigit h
  · have hascii : '0' ≤ c ∧ c ≤ '9' := by simpa [isAsciiDigit] using hascii
    have hascii : 48 ≤ c.toNat ∧ c.toNat ≤ 57 := hascii
    omega
  · have hzeros : ∀ z ∈ Alphabet.zeros, 1632 ≤ z ∧ (z + 10 ≤ 8490 ∨ 8490 < z) := by decide
    have hz := hzeros z hmem
    omega

theorem lowerChar_ne_nil (c : Char) : lowerChar c ≠ [] := by
  unfold lowerChar
  split
  · nofun
  split
  · nofun
  split <;> nofun

theorem lower_eq_self {s : List Char} (h : ∀ c ∈ s, IsCaseless c) : lower s = s := by
  rw [lower, List.flatMap_congr fun c hc => (h c hc).lowerChar_eq, List.flatMap_singleton']

theorem lower_append (s t : List Char) : lower (s ++ t) = lower s ++ lower t :=
  List.flatMap_append

/-- A character without case stands in a lowered text where it stands in the text. -/
theorem exists_of_lower_eq {a : Char} (ha : IsCaseless a) {s u w : List Char}
    (h : lower s = u ++ a :: w) : ∃ x y, s = x ++ a :: y ∧ lower x = u ∧ lower y = w := by
  induction s generalizing u with
  | nil => cases u <;> cases h
  | cons c s ih =>
    have h : lowerChar c ++ lower s = u ++ a :: w := h
    obtain ⟨v, rfl, hrest⟩ | ⟨v, hc, hrest⟩ := List.append_eq_append_iff.mp h
    · obtain ⟨x, y, rfl, hx, hy⟩ := ih hrest
      exact ⟨c :: x, y, rfl, congrArg (lowerChar c ++ ·) hx, hy⟩
    · cases v with
      | nil =>
        rw [List.append_nil] at hc
        obtain ⟨x, y, rfl, hx, hy⟩ := ih (u := []) hrest.symm
        refine ⟨c :: x, y, rfl, ?_, hy⟩
        rw [← hc]
        exact (congrArg (lowerChar c ++ ·) hx).trans (List.append_nil _)
      | cons d v =>
        obtain ⟨rfl, hrest⟩ := List.cons_eq_cons.mp hrest
        obtain rfl := ha.eq_of_mem c (by simp [hc])
        rw [ha.lowerChar_eq] at hc
        cases u with
        | cons b u => simp at hc
        | nil =>
          obtain ⟨-, rfl⟩ := List.cons_eq_cons.mp hc
          exact ⟨[], s, rfl, rfl, (List.cons_eq_cons.mp hrest).2.symm⟩

theorem exists_of_lower_eq_append {g : List Char} (hg : ∀ a ∈ g, IsCaseless a) {s w : List Char}
    (h : lower s = g ++ w) : ∃ y, s = g ++ y ∧ lower y = w := by
  induction g generalizing s with
  | nil => exact ⟨s, rfl, h⟩
  | cons a g ih =>
    obtain ⟨x, y, rfl, hx, hy⟩ :=
      exists_of_lower_eq (hg a List.mem_cons_self) (u := []) h
    have hx : x = [] := List.eq_nil_iff_forall_not_mem.mpr fun c hc =>
      lowerChar_ne_nil c (List.flatMap_eq_nil_iff.mp hx c hc)
    obtain ⟨z, rfl, hz⟩ := ih (fun b hb => hg b (List.mem_cons_of_mem a hb)) hy
    exact ⟨z, by rw [hx]; rfl, hz⟩

end Simultaneous.Text
