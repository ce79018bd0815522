import Mathlib.Data.Bool.AllAny
import Simultaneous.Proofs.Formula.Rules

/-!
What the rules of the passes leave alone: ends of words, the blanks in front of a factor, and
exponents.
-/

namespace Simultaneous.Formula

open Text

section

variable {before : Bool} {s t r o n gap : List Char} {a c f : Char}

theorem applies_rootRule_iff : Applies RootRule before s ↔
    ∃ gap r, s = '√' :: (gap ++ '(' :: r) ∧ IsGap gap := by
  constructor
  · rintro ⟨u, v, _, rfl, @⟨_, gap, r, blank⟩⟩
    exact ⟨gap, r, by simp, blank⟩
  · rintro ⟨gap, r, rfl, blank⟩
    exact ⟨_, _, r, by simp, .root blank⟩

theorem applies_bracketRule_iff : Applies BracketRule before s ↔
    ∃ gap f r, s = ')' :: (gap ++ f :: r) ∧ IsGap gap ∧ followsBracket f = true := by
  constructor
  · rintro ⟨u, v, _, rfl, @⟨_, gap, r, f, blank, factor⟩⟩
    exact ⟨gap, f, r, rfl, blank, factor⟩
  · rintro ⟨gap, f, r, rfl, blank, factor⟩
    exact ⟨_, _, f :: r, rfl, .product blank factor⟩

theorem applies_numberRule_iff : Applies NumberRule before s ↔
    before = false ∧ ∃ n gap f r, s = n ++ (gap ++ f :: r) ∧ IsNumber n ∧ IsGap gap ∧
      beginsFactor f = true ∧ ¬ IsExponent (f :: r) := by
  constructor
  · rintro ⟨u, v, _, rfl, @⟨n, gap, r, f, number, blank, factor, power⟩⟩
    exact ⟨rfl, n, gap, f, r, by simp, number, blank, factor, power⟩
  · rintro ⟨rfl, n, gap, f, r, rfl, number, blank, factor, power⟩
    exact ⟨_, _, r, by simp, .product number blank factor power⟩

/-- What begins a block tells the rules apart. -/
theorem eq_of_applies_rootRule (h : Applies RootRule before (c :: s)) : c = '√' := by
  obtain ⟨gap, r, hs, -⟩ := applies_rootRule_iff.mp h
  exact (List.cons_eq_cons.mp hs).1

theorem eq_of_applies_bracketRule (h : Applies BracketRule before (c :: s)) : c = ')' := by
  obtain ⟨gap, f, r, hs, -⟩ := applies_bracketRule_iff.mp h
  exact (List.cons_eq_cons.mp hs).1

theorem isDigit_of_applies_numberRule (h : Applies NumberRule before (c :: s)) :
    isDigit c = true := by
  obtain ⟨-, n, gap, f, r, hs, number, -⟩ := applies_numberRule_iff.mp h
  obtain ⟨d, m, rfl, hd⟩ := number.exists_cons
  exact (List.cons_eq_cons.mp hs).1 ▸ hd

theorem endsInWord_gap (h : IsGap (c :: gap)) : endsInWord before (c :: gap) = false := by
  induction gap generalizing c before with
  | nil => exact isWord_of_isBlank (h c List.mem_cons_self)
  | cons b gap ih => exact @ih (isWord c) b (List.forall_mem_cons.mp h).2

theorem keepsWords_rootRule : KeepsWords RootRule := by
  rintro _ _ _ _ ⟨-⟩
  simp

theorem keepsWords_numberRule : KeepsWords NumberRule := by
  rintro _ _ _ _ ⟨-, -, -, -⟩
  simp

theorem keepsWords_bracketRule : KeepsWords BracketRule := by
  rintro _ _ _ _ @⟨_, gap, _, _, blank, -⟩
  cases gap with
  | nil => rfl
  | cons c gap => exact (@endsInWord_gap (isWord ')') gap c blank).symm

theorem keepsWords_spaceRule : KeepsWords SpaceRule := by
  rintro _ _ _ _ ⟨blank, -⟩
  exact (endsInWord_gap blank).symm

/-- In front of the character the rule writes and takes away nothing but blanks. -/
def KeepsGaps (rule : Rule) (f : Char) : Prop :=
  ∀ ⦃before s gap o⦄, Rewrites rule before s (gap ++ f :: o) → IsGap gap →
    ∃ gap' s', s = gap' ++ f :: s' ∧ IsGap gap' ∧ Rewrites rule (isWord f) s' o

theorem keepsGaps_of_head {rule : Rule} (h : ∀ {before u v r}, rule before u v r →
    ∃ a w, v = a :: w ∧ isBlank a = false ∧ a ≠ f) : KeepsGaps rule f := by
  intro before s gap o hs hgap
  rw [List.append_cons] at hs
  obtain ⟨s', rfl, hs'⟩ := hs.exists_of_append_of_not_mem fun hr => by
    obtain ⟨a, w, rfl, hblank, hne⟩ := h hr
    refine ⟨a, w, rfl, fun ha => ?_⟩
    obtain ha | ha := List.mem_append.mp ha
    · simp [hgap a ha] at hblank
    · exact hne (List.mem_singleton.mp ha)
  exact ⟨gap, s', by simp, hgap, by simpa using hs'⟩

theorem keepsGaps_rootRule : KeepsGaps RootRule '(' :=
  keepsGaps_of_head fun h => by obtain ⟨-⟩ := h; exact ⟨_, _, rfl, by decide, by decide⟩

theorem keepsGaps_numberRule : KeepsGaps NumberRule '(' := by
  refine keepsGaps_of_head fun h => ?_
  obtain ⟨number, -, -, -⟩ := h
  obtain ⟨d, m, rfl, hd⟩ := number.exists_cons
  exact ⟨d, _, rfl, isBlank_of_isDigit hd, fun h => by subst h; cases hd⟩

theorem keepsGaps_bracketRule (hf : f ≠ ')') : KeepsGaps BracketRule f :=
  keepsGaps_of_head fun h => by obtain ⟨-, -⟩ := h; exact ⟨_, _, rfl, by decide, hf.symm⟩

theorem keepsGaps_spaceRule (hf : isBlank f = false) : KeepsGaps SpaceRule f := by
  intro before s gap o hs hgap
  induction gap generalizing before s with
  | nil =>
    generalize ht : [] ++ f :: o = t at hs
    cases hs with
    | nil => cases ht
    | replace hr _ =>
      obtain ⟨-, -⟩ := hr
      obtain rfl : f = ' ' := (List.cons_eq_cons.mp ht).1
      cases hf
    | keep _ rest =>
      obtain ⟨rfl, rfl⟩ := List.cons_eq_cons.mp ht
      exact ⟨[], _, rfl, hgap, rest⟩
  | cons b gap ih =>
    obtain ⟨hb, htail⟩ := List.forall_mem_cons.mp hgap
    generalize ht : b :: gap ++ f :: o = t at hs
    cases hs with
    | nil => cases ht
    | replace hr rest =>
      obtain ⟨blank, -⟩ := hr
      obtain ⟨rfl, rfl⟩ := List.cons_eq_cons.mp ht
      obtain ⟨gap', s', rfl, hgap', hs'⟩ := ih rest htail
      exact ⟨_, s', (List.append_assoc ..).symm, List.forall_mem_append.mpr ⟨blank, hgap'⟩, hs'⟩
    | keep _ rest =>
      obtain ⟨rfl, rfl⟩ := List.cons_eq_cons.mp ht
      obtain ⟨gap', s', rfl, hgap', hs'⟩ := ih rest htail
      exact ⟨b :: gap', s', rfl, hgap'.cons hb, hs'⟩

/-- What begins an exponent, up to its first digit, begins no block and no replacement; a digit that
begins either of them begins both. -/
def KeepsExponents (rule : Rule) : Prop :=
  ∀ ⦃before u v r⦄, rule before u v r →
    ∃ a w a' w', u = a :: w ∧ v = a' :: w' ∧ a ∉ ['e', 'E', '+', '-'] ∧ a' ∉ ['e', 'E', '+', '-'] ∧
      (isDigit a = true ∨ isDigit a' = true → a = a')

theorem not_mem_of_isDigit (h : isDigit c = true) : c ∉ ['e', 'E', '+', '-'] := by
  have hall : ∀ c ∈ ['e', 'E', '+', '-'], isDigit c = false :=
    List.all_iff_forall_prop.mp (by decide)
  intro hc
  simp [hall c hc] at h

theorem not_mem_of_isBlank (h : isBlank c = true) : c ∉ ['e', 'E', '+', '-'] := by
  have hall : ∀ c ∈ ['e', 'E', '+', '-'], isBlank c = false :=
    List.all_iff_forall_prop.mp (by decide)
  intro hc
  simp [hall c hc] at h

theorem keepsExponents_raisedRule : KeepsExponents RaisedRule := by
  rintro _ _ _ _ ⟨nonempty, raised, -⟩
  obtain ⟨c, u, rfl⟩ := List.exists_cons_of_ne_nil nonempty
  have hc := raised c List.mem_cons_self
  refine ⟨c, u, '*', _, rfl, rfl, ?_, by decide, ?_⟩
  · have hall : ∀ c ∈ ['e', 'E', '+', '-'], raised? c = none :=
      List.all_iff_forall_prop.mp (by decide)
    intro hmem
    simp [hall c hmem] at hc
  · rintro (hdigit | hdigit)
    · unfold raised? at hc
      split at hc <;> cases hc <;> cases hdigit
    · cases hdigit

theorem keepsExponents_rootRule : KeepsExponents RootRule := by
  rintro _ _ _ _ ⟨-⟩
  exact ⟨'√', _, 's', _, rfl, rfl, by decide, by decide, by decide⟩

theorem keepsExponents_numberRule : KeepsExponents NumberRule := by
  rintro _ _ _ _ ⟨number, -, -, -⟩
  obtain ⟨d, m, rfl, hd⟩ := number.exists_cons
  exact ⟨d, _, d, _, rfl, rfl, not_mem_of_isDigit hd, not_mem_of_isDigit hd, fun _ => rfl⟩

theorem keepsExponents_bracketRule : KeepsExponents BracketRule := by
  rintro _ _ _ _ ⟨-, -⟩
  exact ⟨')', _, ')', _, rfl, rfl, by decide, by decide, fun _ => rfl⟩

theorem keepsExponents_spaceRule : KeepsExponents SpaceRule := by
  rintro _ _ _ _ @⟨_, c, _, _, blank, -⟩
  have hc := blank c List.mem_cons_self
  refine ⟨c, _, ' ', _, rfl, rfl, not_mem_of_isBlank hc, by decide, ?_⟩
  rintro (hdigit | hdigit)
  · simp [isDigit_of_isBlank hc] at hdigit
  · cases hdigit

section

variable {rule : Rule} {sign : List Char}

theorem KeepsExponents.digit_iff (hrule : KeepsExponents rule)
    (hsign : ∀ a ∈ sign, a ∈ ['e', 'E', '+', '-']) (h : Rewrites rule before s o) :
    (∃ d r, s = sign ++ d :: r ∧ isDigit d = true) ↔
      ∃ d r, o = sign ++ d :: r ∧ isDigit d = true := by
  have hfirst : ∀ {before s o}, Rewrites rule before s o →
      ((∃ d r, s = d :: r ∧ isDigit d = true) ↔ ∃ d r, o = d :: r ∧ isDigit d = true) := by
    intro before s o h
    cases h with
    | nil => rfl
    | replace hr _ =>
      obtain ⟨a, w, a', w', rfl, rfl, -, -, hdigit⟩ := hrule hr
      constructor
      · rintro ⟨d, r, hs, hd⟩
        obtain ⟨rfl, -⟩ := List.cons_eq_cons.mp hs
        exact ⟨a', _, rfl, hdigit (.inl hd) ▸ hd⟩
      · rintro ⟨d, r, ho, hd⟩
        obtain ⟨rfl, -⟩ := List.cons_eq_cons.mp ho
        exact ⟨a, _, rfl, (hdigit (.inr hd)).symm ▸ hd⟩
    | keep _ _ => simp
  constructor
  · rintro ⟨d, r, rfl, hd⟩
    obtain ⟨o, rfl, ho⟩ := h.exists_append fun x' hne hsuffix before s ⟨u, v, r, hs, hr⟩ => by
      obtain ⟨a, w, a', w', rfl, rfl, ha, -, -⟩ := hrule hr
      obtain ⟨b, x', rfl⟩ := List.exists_cons_of_ne_nil hne
      obtain ⟨rfl, -⟩ := List.cons_eq_cons.mp hs
      exact ha (hsign b (hsuffix.subset List.mem_cons_self))
    obtain ⟨d, r, rfl, hd⟩ := (hfirst ho).mp ⟨d, r, rfl, hd⟩
    exact ⟨d, r, rfl, hd⟩
  · rintro ⟨d, r, rfl, hd⟩
    obtain ⟨s, rfl, hs⟩ := h.exists_of_append_of_not_mem fun hr => by
      obtain ⟨a, w, a', w', rfl, rfl, -, ha', -⟩ := hrule hr
      exact ⟨a', w', rfl, fun hmem => ha' (hsign a' hmem)⟩
    obtain ⟨d, r, rfl, hd⟩ := (hfirst hs).mpr ⟨d, r, rfl, hd⟩
    exact ⟨d, r, rfl, hd⟩

theorem isExponent_iff_exists : IsExponent s ↔ ∃ e ∈ ['e', 'E'], ∃ sign ∈ [[], ['+'], ['-']],
    ∃ d r, s = (e :: sign) ++ d :: r ∧ isDigit d = true := by
  constructor
  · rintro ⟨e, sign, d, r, rfl, he, hsign, hd⟩
    exact ⟨e, he, sign, hsign, d, r, rfl, hd⟩
  · rintro ⟨e, he, sign, hsign, d, r, rfl, hd⟩
    exact ⟨e, sign, d, r, rfl, he, hsign, hd⟩

end

end

section

variable {before : Bool} {s o : List Char} {c : Char}

theorem mem_of_sign {sign : List Char} (h : sign ∈ [[], ['+'], ['-']]) :
    ∀ a ∈ sign, a ∈ ['e', 'E', '+', '-'] := by
  simp only [List.mem_cons, List.not_mem_nil, or_false] at h
  obtain rfl | rfl | rfl := h <;> simp

theorem KeepsExponents.isExponent_iff {rule : Rule} (hrule : KeepsExponents rule)
    (h : Rewrites rule before s o) : IsExponent s ↔ IsExponent o := by
  rw [isExponent_iff_exists, isExponent_iff_exists]
  refine exists_congr fun e => and_congr_right fun he => exists_congr fun sign =>
    and_congr_right fun hsign => hrule.digit_iff
      (List.forall_mem_cons.mpr ⟨?_, mem_of_sign hsign⟩) h
  exact List.mem_append_left ['+', '-'] he

theorem KeepsExponents.isExponent_cons_iff {rule : Rule} (hrule : KeepsExponents rule)
    (h : Rewrites rule before s o) : IsExponent (c :: s) ↔ IsExponent (c :: o) := by
  rw [isExponent_iff_exists, isExponent_iff_exists]
  refine exists_congr fun e => and_congr_right fun he => exists_congr fun sign =>
    and_congr_right fun hsign => ?_
  have hdigit := hrule.digit_iff (mem_of_sign hsign) h
  simp only [List.cons_append, List.cons.injEq, and_assoc, exists_and_left]
  exact and_congr_right fun _ => hdigit

end

section

variable {s t n : List Char}

theorem IsNumber.isDigit_or (h : IsNumber n) : ∀ a ∈ n, isDigit a = true ∨ a = '.' := by
  cases h with
  | whole _ digits => exact fun a ha => .inl (digits a ha)
  | decimal _ digits _ digits' =>
    intro a ha
    obtain ha | ha := List.mem_append.mp ha
    · exact .inl (digits a ha)
    · obtain rfl | ha := List.mem_cons.mp ha
      · exact .inr rfl
      · exact .inl (digits' a ha)

theorem not_isExponent {c : Char} (hc : c ∉ ['e', 'E']) (s : List Char) :
    ¬ IsExponent (c :: s) := by
  rintro ⟨e, sign, d, r, h, he, -⟩
  exact hc ((List.cons_eq_cons.mp h).1 ▸ he)

/-- An exponent ends where nothing follows that can be part of one. -/
theorem IsExponent.of_append (h : IsExponent (s ++ t))
    (ht : ∀ a ∈ t.head?, a ∉ ['e', 'E', '+', '-'] ∧ isDigit a = false) : IsExponent s := by
  obtain ⟨e, sign, d, r, hs, he, hsign, hd⟩ := h
  have hblock : e :: (sign ++ d :: r) = (e :: (sign ++ [d])) ++ r := by simp
  rw [hblock] at hs
  obtain ⟨x, hx, rfl⟩ | ⟨x, rfl, -⟩ := List.append_eq_append_iff.mp hs
  · cases x with
    | nil => exact ⟨e, sign, d, [], by simpa using hx.symm, he, hsign, hd⟩
    | cons b x =>
      obtain ⟨hmem, hdigit⟩ := ht b rfl
      have hb : b ∈ e :: (sign ++ [d]) := hx ▸ by simp
      obtain rfl | hb := List.mem_cons.mp hb
      · exact absurd (List.mem_append_left ['+', '-'] he) hmem
      obtain hb | hb := List.mem_append.mp hb
      · exact absurd (mem_of_sign hsign b hb) hmem
      · simp [List.mem_singleton.mp hb, hd] at hdigit
  · exact ⟨e, sign, d, x, by simp, he, hsign, hd⟩

theorem IsExponent.append (h : IsExponent s) (t : List Char) : IsExponent (s ++ t) := by
  obtain ⟨e, sign, d, r, rfl, he, hsign, hd⟩ := h
  exact ⟨e, sign, d, r ++ t, by simp, he, hsign, hd⟩

theorem IsExponent.of_append_gap (h : IsExponent (s ++ t)) (ht : IsGap t) : IsExponent s := by
  refine h.of_append fun a ha => ?_
  have hblank := ht a (List.mem_of_mem_head? ha)
  exact ⟨not_mem_of_isBlank hblank, isDigit_of_isBlank hblank⟩

end

end Simultaneous.Formula
