import Mathlib.Data.List.Basic
import Simultaneous.Text.Character

/-!
Trimming takes away the blanks on either side of a text and nothing else.
-/

namespace Simultaneous.Text

/-- The text neither begins nor ends with a blank. -/
structure IsTrimmed (s : List Char) : Prop where
  head : ∀ c ∈ s.head?, isBlank c = false
  last : ∀ c ∈ s.getLast?, isBlank c = false

theorem trimStart_cons (c : Char) (s : List Char) :
    trimStart (c :: s) = if isBlank c then trimStart s else c :: s := rfl

theorem trimEnd_cons (c : Char) (s : List Char) :
    trimEnd (c :: s) = match trimEnd s with
      | [] => if isBlank c then [] else [c]
      | t => c :: t := rfl

theorem exists_gap_trimStart (s : List Char) :
    ∃ gap, (∀ c ∈ gap, isBlank c = true) ∧ s = gap ++ trimStart s := by
  induction s with
  | nil => exact ⟨[], List.forall_mem_nil _, rfl⟩
  | cons c s ih =>
    rw [trimStart_cons]
    split
    next hblank =>
      obtain ⟨gap, hgap, hs⟩ := ih
      exact ⟨c :: gap, List.forall_mem_cons.mpr ⟨hblank, hgap⟩, congrArg (c :: ·) hs⟩
    next => exact ⟨[], List.forall_mem_nil _, rfl⟩

theorem exists_gap_trimEnd (s : List Char) :
    ∃ gap, (∀ c ∈ gap, isBlank c = true) ∧ s = trimEnd s ++ gap := by
  induction s with
  | nil => exact ⟨[], List.forall_mem_nil _, rfl⟩
  | cons c s ih =>
    obtain ⟨gap, hgap, hs⟩ := ih
    rw [trimEnd_cons]
    split
    next hnil =>
      rw [hnil, List.nil_append] at hs
      subst hs
      split
      next hblank => exact ⟨c :: s, List.forall_mem_cons.mpr ⟨hblank, hgap⟩, rfl⟩
      next => exact ⟨s, hgap, rfl⟩
    next => exact ⟨gap, hgap, congrArg (c :: ·) hs⟩

theorem exists_gaps_trim (s : List Char) :
    ∃ before after, (∀ c ∈ before, isBlank c = true) ∧ (∀ c ∈ after, isBlank c = true) ∧
      s = before ++ trim s ++ after := by
  obtain ⟨before, hbefore, hs⟩ := exists_gap_trimStart s
  obtain ⟨after, hafter, ht⟩ := exists_gap_trimEnd (trimStart s)
  refine ⟨before, after, hbefore, hafter, ?_⟩
  rw [List.append_assoc, trim, ← ht, ← hs]

theorem head_trimStart (s : List Char) : ∀ c ∈ (trimStart s).head?, isBlank c = false := by
  induction s with
  | nil => nofun
  | cons c s ih =>
    rw [trimStart_cons]
    split
    · exact ih
    next hblank => simpa using hblank

theorem getLast_trimEnd (s : List Char) : ∀ c ∈ (trimEnd s).getLast?, isBlank c = false := by
  induction s with
  | nil => nofun
  | cons c s ih =>
    rw [trimEnd_cons]
    split
    · split
      · nofun
      next hblank => simpa using hblank
    next hne =>
      rw [List.getLast?_cons_of_ne_nil hne]
      exact ih

theorem isTrimmed_trim (s : List Char) : IsTrimmed (trim s) := by
  refine ⟨fun c hc => head_trimStart s c ?_, getLast_trimEnd _⟩
  obtain ⟨gap, -, hgap⟩ := exists_gap_trimEnd (trimStart s)
  rw [trim] at hc
  rw [hgap, List.head?_append, Option.mem_def.mp hc]
  rfl

theorem trimStart_append_cons {c : Char} (hc : isBlank c = false) (s t : List Char) :
    trimStart (s ++ c :: t) = trimStart s ++ c :: t := by
  induction s with
  | nil =>
    rw [List.nil_append, trimStart_cons, hc]
    rfl
  | cons a s ih =>
    rw [List.cons_append, trimStart_cons, trimStart_cons, ih]
    split <;> rfl

theorem trimEnd_append_cons {c : Char} (hc : isBlank c = false) (s t : List Char) :
    trimEnd (s ++ c :: t) = s ++ c :: trimEnd t := by
  induction s with
  | nil =>
    rw [List.nil_append, trimEnd_cons]
    split
    next h => simp [hc, h]
    next => rfl
  | cons a s ih =>
    rw [List.cons_append, trimEnd_cons, ih]
    cases s <;> rfl

theorem trimEnd_append {c : Char} (hc : isBlank c = false) (s : List Char) :
    trimEnd (s ++ [c]) = s ++ [c] := trimEnd_append_cons hc s []

theorem IsTrimmed.trim_eq {s : List Char} (h : IsTrimmed s) : trim s = s := by
  have hstart : trimStart s = s := by
    cases s with
    | nil => rfl
    | cons c s => rw [trimStart_cons, h.head c rfl, if_neg Bool.false_ne_true]
  rw [trim, hstart]
  obtain rfl | ⟨w, c, rfl⟩ := List.eq_nil_or_concat s
  · rfl
  · rw [List.concat_eq_append] at h ⊢
    exact trimEnd_append (h.last c (by simp)) w

theorem filter_trim {p : Char → Bool} (hp : ∀ c, isBlank c = true → p c = false) (s : List Char) :
    (trim s).filter p = s.filter p := by
  obtain ⟨before, after, hbefore, hafter, hs⟩ := exists_gaps_trim s
  have hgap : ∀ gap : List Char, (∀ c ∈ gap, isBlank c = true) → gap.filter p = [] :=
    fun gap h => List.filter_eq_nil_iff.mpr fun c hc => by simp [hp c (h c hc)]
  rw [congrArg (List.filter p) hs, List.filter_append, List.filter_append, hgap before hbefore,
    hgap after hafter, List.nil_append, List.append_nil]

end Simultaneous.Text
