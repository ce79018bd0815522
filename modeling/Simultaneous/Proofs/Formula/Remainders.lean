import Simultaneous.Proofs.Formula.Keeping

/-!
No pass leaves anything that it or a pass before it would still replace: neither a replacement nor
what has changed behind a place makes a new block begin there.
-/

namespace Simultaneous.Formula

open Text

section

variable {before : Bool} {s t r o n gap : List Char} {a c f : Char}

theorem not_mem_of_beginsFactor (hn : ∀ a ∈ n, isDigit a = true ∨ a = '.')
    (hf : beginsFactor f = true) : f ∉ n := by
  intro h
  obtain h | rfl := hn f h
  · simp [isDigit_of_beginsFactor hf] at h
  · cases hf

theorem star_not_mem_product (hn : ∀ a ∈ n, isDigit a = true ∨ a = '.') (hgap : IsGap gap)
    (hf : beginsFactor f = true) : '*' ∉ n ++ (gap ++ [f]) := by
  intro h
  obtain h | h := List.mem_append.mp h
  · exact absurd (hn _ h) (by decide)
  obtain h | h := List.mem_append.mp h
  · exact absurd (hgap _ h) (by decide)
  · obtain rfl := List.mem_singleton.mp h
    cases hf

/-- A block of the pass over numbers is no part of a number in front of an operator. -/
theorem not_prefix_star (hn : ∀ a ∈ n, isDigit a = true ∨ a = '.') (hf : beginsFactor f = true)
    (hmem : f ∈ s) (hstar : '*' ∉ s) : ¬ s <+: n ++ '*' :: o := by
  rintro ⟨r, hr⟩
  obtain ⟨x, rfl, -⟩ | ⟨x, rfl, hx⟩ := List.append_eq_append_iff.mp hr
  · exact not_mem_of_beginsFactor hn hf (List.mem_append_left _ hmem)
  · cases x with
    | nil => exact not_mem_of_beginsFactor hn hf (by simpa using hmem)
    | cons b x =>
      obtain rfl : '*' = b := (List.cons_eq_cons.mp hx).1
      simp at hstar

theorem not_applies_numberRule_star (hn : ∀ a ∈ n, isDigit a = true ∨ a = '.') (o : List Char) :
    ¬ Applies NumberRule before (n ++ '*' :: o) := by
  intro h
  obtain ⟨-, m, gap, f, r, hs, number, blank, factor, -⟩ := applies_numberRule_iff.mp h
  have hstar := star_not_mem_product number.isDigit_or blank factor
  refine not_prefix_star hn factor (s := m ++ (gap ++ [f])) (o := o) (by simp) hstar ⟨r, ?_⟩
  rw [hs]
  simp

/-- The factor of a block that the pass over numbers has left was a factor before. -/
theorem exists_of_rewrites_numberRule (hn : ∀ a ∈ n, isDigit a = true ∨ a = '.') (hgap : IsGap gap)
    (hf : beginsFactor f = true) (h : Rewrites NumberRule before s (n ++ (gap ++ f :: o))) :
    ∃ s', s = n ++ (gap ++ f :: s') ∧ Rewrites NumberRule (isWord f) s' o := by
  have hblock : n ++ (gap ++ f :: o) = (n ++ (gap ++ [f])) ++ o := by simp
  have hstar := star_not_mem_product hn hgap hf
  rw [hblock] at h
  obtain ⟨s', rfl, hs'⟩ := h.exists_of_append fun x' hne hsuffix before u v r hr => by
    obtain ⟨number, -, -, -⟩ := hr
    have hstar' : '*' ∉ x' := fun h => hstar (hsuffix.subset h)
    rw [← List.append_assoc] at hsuffix
    obtain h | ⟨w, rfl, -⟩ := List.suffix_concat_iff.mp hsuffix
    · exact absurd h hne
    · exact ⟨not_prefix_star number.isDigit_or hf (by simp) hstar',
        fun h => hstar' (h.subset (by simp))⟩
  exact ⟨s', by simp, by simpa using hs'⟩

theorem nowhere_rootRule_of {rule : Rule} (hwords : KeepsWords rule) (hgaps : KeepsGaps rule '(')
    (hroot : ∀ {before u v r}, rule before u v r → '√' ∉ v) (h : Rewrites rule before s o)
    (hs : Nowhere RootRule before s) : Nowhere RootRule before o := by
  refine h.nowhere_other hwords (fun hr x a y o hv happlies => ?_) (fun hs happlies => ?_) hs
  · exact hroot hr (hv ▸ eq_of_applies_rootRule happlies ▸ by simp)
  · obtain ⟨gap, r, ho, blank⟩ := applies_rootRule_iff.mp happlies
    obtain ⟨rfl, rfl⟩ := List.cons_eq_cons.mp ho
    obtain ⟨gap', s', rfl, blank', -⟩ := hgaps hs blank
    exact applies_rootRule_iff.mpr ⟨gap', s', rfl, blank'⟩

theorem nowhere_numberRule_of {rule : Rule} (hwords : KeepsWords rule)
    (hgaps : ∀ f, beginsFactor f = true → KeepsGaps rule f) (hexponents : KeepsExponents rule)
    (hnumber : ∀ {before u v r}, rule before u v r → v ≠ [] ∧ ∀ a ∈ v, isDigit a = false ∧ a ≠ '.')
    (h : Rewrites rule before s o) (hs : Nowhere NumberRule before s) :
    Nowhere NumberRule before o := by
  refine h.nowhere_other hwords (fun hr x a y o hv happlies => ?_) (fun hs happlies => ?_) hs
  · have ha := (hnumber hr).2 a (hv ▸ by simp)
    simp [isDigit_of_applies_numberRule happlies] at ha
  · obtain ⟨hbefore, n, gap, f, r, ho, number, blank, factor, power⟩ :=
      applies_numberRule_iff.mp happlies
    obtain ⟨d, m, rfl, -⟩ := id number.exists_cons
    obtain ⟨rfl, rfl⟩ := List.cons_eq_cons.mp ho
    have hm : ∀ a ∈ m, isDigit a = true ∨ a = '.' :=
      fun a ha => number.isDigit_or a (List.mem_cons_of_mem _ ha)
    obtain ⟨s', rfl, hs'⟩ := hs.exists_of_append_of_not_mem fun hr => by
      obtain ⟨hne, hv⟩ := hnumber hr
      obtain ⟨a, w, rfl⟩ := List.exists_cons_of_ne_nil hne
      have ha := hv a List.mem_cons_self
      exact ⟨a, w, rfl, fun hmem => by simpa [ha.1, ha.2] using hm a hmem⟩
    obtain ⟨gap', s'', rfl, blank', hs''⟩ := hgaps f factor hs' blank
    exact applies_numberRule_iff.mpr ⟨hbefore, _ :: m, gap', f, s'', rfl, number, blank', factor,
      fun hpower => power ((hexponents.isExponent_cons_iff hs'').mp hpower)⟩

theorem nowhere_bracketRule_spaceRule (h : Rewrites SpaceRule before s o)
    (hs : Nowhere BracketRule before s) : Nowhere BracketRule before o := by
  refine h.nowhere_other keepsWords_spaceRule (fun hr x a y o hv happlies => ?_)
    (fun hs happlies => ?_) hs
  · obtain ⟨-, -⟩ := hr
    obtain rfl := eq_of_applies_bracketRule happlies
    have hmem : ')' ∈ [' '] := hv ▸ by simp
    simp at hmem
  · obtain ⟨gap, f, r, ho, blank, factor⟩ := applies_bracketRule_iff.mp happlies
    obtain ⟨rfl, rfl⟩ := List.cons_eq_cons.mp ho
    obtain ⟨gap', s', rfl, blank', -⟩ :=
      keepsGaps_spaceRule (isBlank_of_followsBracket factor) hs blank
    exact applies_bracketRule_iff.mpr ⟨gap', f, s', rfl, blank', factor⟩

theorem nowhere_nameRoots (before : Bool) (s : List Char) :
    Nowhere RootRule before (nameRoots 0 s) := by
  refine (follows_nameRoots.rewrites before s).nowhere consumes_rootRule keepsWords_rootRule
    (fun hr x a y o hv happlies => ?_) (fun hs happlies => ?_)
  · obtain ⟨-⟩ := hr
    obtain rfl := eq_of_applies_rootRule happlies
    have hmem : '√' ∈ ['s', 'q', 'r', 't', '('] := hv ▸ by simp
    simp at hmem
  · obtain ⟨gap, r, ho, blank⟩ := applies_rootRule_iff.mp happlies
    obtain ⟨rfl, rfl⟩ := List.cons_eq_cons.mp ho
    obtain ⟨gap', s', rfl, blank', -⟩ := keepsGaps_rootRule hs blank
    exact applies_rootRule_iff.mpr ⟨gap', s', rfl, blank'⟩

theorem nowhere_multiplyNumbers (before : Bool) (s : List Char) :
    Nowhere NumberRule before (multiplyNumbers 0 before s) := by
  refine (follows_multiplyNumbers.rewrites before s).nowhere consumes_numberRule
    keepsWords_numberRule (fun hr x a y o hv happlies => ?_) (fun hs happlies => ?_)
  · -- what is written is a number, an operator and a factor
    obtain @⟨n, gap, r, f, number, blank, factor, power⟩ := hr
    obtain ⟨z, rfl, hz⟩ | ⟨z, rfl, hz⟩ := List.append_eq_append_iff.mp hv
    · have hdigit := isDigit_of_applies_numberRule happlies
      obtain rfl | rfl : a = '*' ∨ a = f := by
        have hmem : a ∈ ['*', f] := hz ▸ by simp
        simpa using hmem
      · cases hdigit
      · simp [isDigit_of_beginsFactor factor] at hdigit
    · have hrest : a :: (y ++ o) = z ++ '*' :: (f :: o) := by
        rw [← List.cons_append, hz]
        simp
      rw [hrest] at happlies
      exact not_applies_numberRule_star
        (fun b hb => number.isDigit_or b (List.mem_append_right x hb)) _ happlies
  · obtain ⟨hbefore, n, gap, f, r, ho, number, blank, factor, power⟩ :=
      applies_numberRule_iff.mp happlies
    obtain ⟨d, m, rfl, -⟩ := id number.exists_cons
    obtain ⟨rfl, rfl⟩ := List.cons_eq_cons.mp ho
    obtain ⟨s', rfl, hs'⟩ := exists_of_rewrites_numberRule
      (fun a ha => number.isDigit_or a (List.mem_cons_of_mem _ ha)) blank factor hs
    exact applies_numberRule_iff.mpr ⟨hbefore, _ :: m, gap, f, s', rfl, number, blank, factor,
      fun hpower => power ((keepsExponents_numberRule.isExponent_cons_iff hs').mp hpower)⟩

theorem nowhere_multiplyBrackets (before : Bool) (s : List Char) :
    Nowhere BracketRule before (multiplyBrackets 0 s) := by
  refine (follows_multiplyBrackets.rewrites before s).nowhere consumes_bracketRule
    keepsWords_bracketRule (fun hr x a y o hv happlies => ?_) (fun hs happlies => ?_)
  · obtain ⟨-, -⟩ := hr
    obtain rfl := eq_of_applies_bracketRule happlies
    obtain ⟨gap, f, r, ho, blank, factor⟩ := applies_bracketRule_iff.mp happlies
    obtain rfl : y = ['*'] := by
      rcases x with _ | ⟨b, _ | ⟨d, x⟩⟩ <;> simp_all
    cases gap with
    | nil =>
      obtain rfl : '*' = f := (List.cons_eq_cons.mp (List.cons_eq_cons.mp ho).2).1
      cases factor
    | cons b gap =>
      obtain rfl : '*' = b := (List.cons_eq_cons.mp (List.cons_eq_cons.mp ho).2).1
      exact absurd (blank '*' List.mem_cons_self) (by decide)
  · obtain ⟨gap, f, r, ho, blank, factor⟩ := applies_bracketRule_iff.mp happlies
    obtain ⟨rfl, rfl⟩ := List.cons_eq_cons.mp ho
    have hf : f ≠ ')' := fun h => by subst h; cases factor
    obtain ⟨gap', s', rfl, blank', -⟩ := keepsGaps_bracketRule hf hs blank
    exact applies_bracketRule_iff.mpr ⟨gap', f, s', rfl, blank', factor⟩

end

section

variable {before : Bool} {s n gap : List Char} {f : Char}

theorem applies_rootRule_append (t : List Char) (h : Applies RootRule before s) :
    Applies RootRule before (s ++ t) := by
  obtain ⟨gap, r, rfl, blank⟩ := applies_rootRule_iff.mp h
  exact applies_rootRule_iff.mpr ⟨gap, r ++ t, by simp, blank⟩

theorem applies_bracketRule_append (t : List Char) (h : Applies BracketRule before s) :
    Applies BracketRule before (s ++ t) := by
  obtain ⟨gap, f, r, rfl, blank, factor⟩ := applies_bracketRule_iff.mp h
  exact applies_bracketRule_iff.mpr ⟨gap, f, r ++ t, by simp, blank, factor⟩

theorem applies_numberRule_append (hgap : IsGap gap) (h : Applies NumberRule before s) :
    Applies NumberRule before (s ++ gap) := by
  obtain ⟨hbefore, n, gap', f, r, rfl, number, blank, factor, power⟩ :=
    applies_numberRule_iff.mp h
  exact applies_numberRule_iff.mpr ⟨hbefore, n, gap', f, r ++ gap, by simp, number, blank, factor,
    fun h => power (IsExponent.of_append_gap (s := f :: r) h hgap)⟩

theorem nowhere_trim {rule : Rule} (hbehind : ∀ {before s gap}, IsGap gap →
      Applies rule before s → Applies rule before (s ++ gap))
    (h : Nowhere rule false s) : Nowhere rule false (trim s) := by
  obtain ⟨gap, gap', hgap, hgap', hs⟩ := exists_gaps_trim s
  rw [hs, List.append_assoc] at h
  have hword : endsInWord false gap = false := by
    cases gap with
    | nil => rfl
    | cons c gap => exact endsInWord_gap hgap
  exact (hword ▸ h.of_append).of_append_left (hbehind hgap')

theorem root_not_mem_product (hn : IsNumber n) (hf : beginsFactor f = true) :
    '√' ∉ n ++ ['*', f] := by
  intro h
  obtain h | h := List.mem_append.mp h
  · exact absurd (hn.isDigit_or _ h) (by decide)
  · obtain rfl : '√' = f := by simpa using h
    cases hf

/-- What the passes over roots, numbers, brackets and blanks leave holds nothing for the first
three of them. -/
theorem nowhere_spellOut (s : List Char) : Nowhere RootRule false (spellOut s) ∧
    Nowhere NumberRule false (spellOut s) ∧ Nowhere BracketRule false (spellOut s) := by
  rw [spellOut]
  have hroot := nowhere_nameRoots false s
  generalize nameRoots 0 s = s₁ at hroot
  have hnumbers := follows_multiplyNumbers.rewrites false s₁
  have hnumber := nowhere_multiplyNumbers false s₁
  replace hroot := nowhere_rootRule_of keepsWords_numberRule keepsGaps_numberRule
    (fun hr => by obtain ⟨number, -, factor, -⟩ := hr; exact root_not_mem_product number factor)
    hnumbers hroot
  generalize multiplyNumbers 0 false s₁ = s₂ at hnumber hroot
  have hbrackets := follows_multiplyBrackets.rewrites false s₂
  have hbracket := nowhere_multiplyBrackets false s₂
  replace hroot := nowhere_rootRule_of keepsWords_bracketRule (keepsGaps_bracketRule (by decide))
    (fun hr => by obtain ⟨-, -⟩ := hr; decide) hbrackets hroot
  replace hnumber := nowhere_numberRule_of keepsWords_bracketRule
    (fun f hf => keepsGaps_bracketRule fun h => by subst h; cases hf) keepsExponents_bracketRule
    (fun hr => by
      obtain ⟨-, -⟩ := hr
      exact ⟨List.cons_ne_nil _ _, List.all_iff_forall_prop.mp (by decide)⟩) hbrackets hnumber
  generalize multiplyBrackets 0 s₂ = s₃ at hbracket hnumber hroot
  have hspaces := follows_singleSpaced.rewrites false s₃
  replace hroot := nowhere_rootRule_of keepsWords_spaceRule (keepsGaps_spaceRule (by decide))
    (fun hr => by obtain ⟨-, -⟩ := hr; decide) hspaces hroot
  replace hnumber := nowhere_numberRule_of keepsWords_spaceRule
    (fun f hf => keepsGaps_spaceRule (isBlank_of_beginsFactor hf)) keepsExponents_spaceRule
    (fun hr => by
      obtain ⟨-, -⟩ := hr
      exact ⟨List.cons_ne_nil _ _, List.all_iff_forall_prop.mp (by decide)⟩) hspaces hnumber
  replace hbracket := nowhere_bracketRule_spaceRule hspaces hbracket
  exact ⟨nowhere_trim (fun _ => applies_rootRule_append _) hroot,
    nowhere_trim applies_numberRule_append hnumber,
    nowhere_trim (fun _ => applies_bracketRule_append _) hbracket⟩

end

end Simultaneous.Formula
