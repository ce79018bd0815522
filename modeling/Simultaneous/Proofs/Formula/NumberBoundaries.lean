import Simultaneous.Proofs.Formula.Joints
import Simultaneous.Proofs.Formula.Remainders

/-!
The digits of a power through the passes. No pass parts them from digits, a point or an exponent
behind them.
-/

namespace Simultaneous.Formula

open Text

/-- The text goes on with a number that ends in front of it. -/
def ContinuesNumber (s : List Char) : Prop :=
  Begins (fun c => isDigit c || c == '.') s ∨ IsExponent s

section

variable {before : Bool} {s o m n gap r : List Char} {c f : Char}

theorem not_continuesNumber (hdigit : isDigit c = false) (hpoint : c ≠ '.')
    (hpower : ¬ IsExponent (c :: s)) : ¬ ContinuesNumber (c :: s) := by
  rintro (h | h)
  · simp [hdigit, hpoint] at h
  · exact hpower h

/-- A rule that keeps exponents, and digits and points at the beginning, keeps what continues a
number. -/
theorem continuesNumber_iff {rule : Rule} (hrule : KeepsExponents rule)
    (hpoint : ∀ {before u v r}, rule before u v r → ∀ a ∈ u.head?.toList ++ v.head?.toList, a ≠ '.')
    (h : Rewrites rule before s o) : ContinuesNumber o ↔ ContinuesNumber s := by
  refine or_congr (h.begins_iff (fun hr => ?_) fun _ => rfl) (hrule.isExponent_iff h).symm
  have hpoint := hpoint hr
  obtain ⟨a, w, a', w', rfl, rfl, -, -, hdigit⟩ := hrule hr
  have ha : a ≠ '.' := hpoint a (by simp)
  have ha' : a' ≠ '.' := hpoint a' (by simp)
  refine ⟨List.cons_ne_nil _ _, List.cons_ne_nil _ _, ?_⟩
  rw [begins_cons, begins_cons]
  simp only [ha, ha', beq_iff_eq, Bool.or_eq_true, or_false]
  exact ⟨fun h => hdigit (.inr h) ▸ h, fun h => (hdigit (.inl h)).symm ▸ h⟩

theorem continuesNumber_nameRoots (s : List Char) :
    ContinuesNumber (nameRoots 0 s) ↔ ContinuesNumber s := by
  refine continuesNumber_iff keepsExponents_rootRule (fun hr => ?_)
    (follows_nameRoots.rewrites false s)
  obtain ⟨-⟩ := hr
  simp

theorem continuesNumber_multiplyBrackets (s : List Char) :
    ContinuesNumber (multiplyBrackets 0 s) ↔ ContinuesNumber s := by
  refine continuesNumber_iff keepsExponents_bracketRule (fun hr => ?_)
    (follows_multiplyBrackets.rewrites false s)
  obtain ⟨-, -⟩ := hr
  simp

theorem continuesNumber_singleSpaced (s : List Char) :
    ContinuesNumber (singleSpaced false s) ↔ ContinuesNumber s := by
  refine continuesNumber_iff keepsExponents_spaceRule (fun hr => ?_)
    (follows_singleSpaced.rewrites false s)
  obtain @⟨_, c, _, _, blank, -⟩ := hr
  have hc : c ≠ '.' := fun h => absurd (blank c List.mem_cons_self) (by rw [h]; decide)
  simp [hc]

theorem continuesNumber_trimEnd (s : List Char) :
    ContinuesNumber (trimEnd s) ↔ ContinuesNumber s := by
  refine or_congr (begins_trimEnd (fun c hc => ?_) s) ?_
  · have hpoint : c ≠ '.' := by rintro rfl; cases hc
    simp [isDigit_of_isBlank hc, hpoint]
  · obtain ⟨gap, hgap, hs⟩ := exists_gap_trimEnd s
    constructor
    · exact fun h => hs ▸ h.append gap
    · intro h
      rw [hs] at h
      exact h.of_append_gap hgap

/-- A number of a block takes in the whole run of digits in which it begins. -/
theorem exists_of_run (hm : ∀ c ∈ m, isDigit c = true ∨ c = '-') (hgap : IsGap gap)
    (hf : beginsFactor f = true) (h : m ++ s = n ++ (gap ++ f :: r)) :
    ∃ z, n = m ++ z ∧ s = z ++ (gap ++ f :: r) := by
  obtain hz | ⟨z, hz, hr⟩ := List.append_eq_append_iff.mp h
  · exact hz
  cases z with
  | nil => exact ⟨[], by simpa using hz.symm, hr.symm⟩
  | cons c z =>
    have hc := hm c (hz ▸ by simp)
    cases gap with
    | nil =>
      obtain rfl : f = c := (List.cons_eq_cons.mp hr).1
      obtain hc | rfl := hc
      · simp [isDigit_of_beginsFactor hf] at hc
      · cases hf
    | cons b gap =>
      obtain rfl : b = c := (List.cons_eq_cons.mp hr).1
      have hb := hgap b List.mem_cons_self
      obtain hc | rfl := hc
      · simp [isDigit_of_isBlank hb] at hc
      · cases hb

/-- Behind a run of digits the pass over numbers changes nothing of how a number goes on: the run
and what continues it are one number to the pass. -/
theorem exists_run_numberRule (hm : ∀ c ∈ m, isDigit c = true ∨ c = '-')
    (h : Rewrites NumberRule before (m ++ s) o) :
    ∃ o', o = m ++ o' ∧ (ContinuesNumber o' ↔ ContinuesNumber s) ∧ (s = [] → o' = []) := by
  induction m generalizing before o with
  | nil =>
    refine ⟨o, rfl, ?_, fun hs => ?_⟩
    · refine continuesNumber_iff keepsExponents_numberRule (fun hr => ?_) h
      obtain ⟨number, -, -, -⟩ := hr
      obtain ⟨d, n, rfl, hd⟩ := number.exists_cons
      have hpoint : d ≠ '.' := by rintro rfl; cases hd
      simp [hpoint]
    · subst hs
      exact h.eq_nil consumes_numberRule
  | cons a m ih =>
    generalize ht : a :: m ++ s = t at h
    cases h with
    | nil => cases ht
    | @replace _ u v r o hr rest =>
      obtain @⟨n, gap, r, f, number, blank, factor, power⟩ := hr
      rw [List.append_assoc, List.append_assoc, List.singleton_append] at ht
      obtain ⟨z, rfl, rfl⟩ := exists_of_run hm blank factor ht
      refine ⟨z ++ '*' :: f :: o, by simp, ?_, by simp⟩
      cases z with
      | cons d z =>
        have hd := number.isDigit_or d (by simp)
        exact iff_of_true (.inl (by simpa using hd)) (.inl (by simpa using hd))
      | nil =>
        refine iff_of_false (not_continuesNumber (by decide) (by decide)
          (not_isExponent (by decide) _)) ?_
        cases gap with
        | nil =>
          refine not_continuesNumber (isDigit_of_beginsFactor factor) ?_ power
          rintro rfl
          cases factor
        | cons b gap =>
          have hb := blank b List.mem_cons_self
          refine not_continuesNumber (isDigit_of_isBlank hb) ?_ (not_isExponent (fun hmem => ?_) _)
          · rintro rfl
            cases hb
          · exact not_mem_of_isBlank hb (List.mem_append_left ['+', '-'] hmem)
    | keep _ rest =>
      obtain ⟨rfl, rfl⟩ := List.cons_eq_cons.mp ht
      obtain ⟨o', rfl, ho'⟩ := ih (fun c hc => hm c (List.mem_cons_of_mem _ hc)) rest
      exact ⟨o', rfl, ho'⟩

end

theorem carries_power {m : List Char} (hm : ∀ c ∈ m, isDigit c = true ∨ c = '-') :
    Carries spellOut ('*' :: '*' :: m) (fun _ => True) (fun _ => True) ContinuesNumber
      ContinuesNumber := by
  have hnumbers : Carries (multiplyNumbers 0 false) ('*' :: '*' :: m) (fun _ => True)
      (fun _ => True) ContinuesNumber ContinuesNumber := by
    refine carries_of_cut follows_multiplyNumbers isJoint_star.cuts_numberRule (fun x => ?_)
      fun y => ?_
    · have hstar : ∀ {before u v r}, NumberRule before u v r → '*' ∉ u := by
        rintro _ _ _ _ ⟨number, blank, factor, -⟩
        exact star_not_mem_product number.isDigit_or blank factor
      have hstep : ∀ {before u v r}, NumberRule before u v r →
          ∀ b, endsInWord b v = endsInWord b u := by
        rintro _ _ _ _ ⟨-, -, -, -⟩ b
        simp
      obtain ⟨x', hx, -⟩ := (follows_multiplyNumbers.rewrites false (x ++ ['*'])).exists_last
        consumes_numberRule hstar hstep
      exact ⟨x', hx, Iff.rfl⟩
    · obtain ⟨y', hy, hy'⟩ :=
        exists_run_numberRule hm (follows_multiplyNumbers.rewrites false (m ++ y))
      refine ⟨y', ?_, hy'⟩
      rw [List.cons_append, List.cons_append, ← hy]
      exact follows_multiplyNumbers.append_cut isJoint_star.cuts_numberRule false [] (m ++ y)
  have hmem : ∀ a ∈ '*' :: m, a = '*' ∨ isDigit a = true ∨ a = '-' := by
    intro a ha
    exact (List.mem_cons.mp ha).imp_right (hm a)
  have hblank : ∀ a ∈ '*' :: m, isBlank a = false := by
    intro a ha
    obtain rfl | hdigit | rfl := hmem a ha
    · decide
    · exact isBlank_of_isDigit hdigit
    · decide
  have hroots := carries_nameRoots isJoint_star (m := '*' :: m)
    (fun h => absurd (hmem _ h) (by decide)) continuesNumber_nameRoots
  have hbrackets := carries_multiplyBrackets isJoint_star (m := '*' :: m)
    (fun h => absurd (hmem _ h) (by decide)) continuesNumber_multiplyBrackets
  have hspaces := carries_singleSpaced isJoint_star hblank continuesNumber_singleSpaced
  have htrimmed : IsTrimmed ('*' :: '*' :: m) :=
    ⟨by rintro c ⟨⟩; decide, fun c hc => hblank c (List.mem_of_getLast? (by simpa using hc))⟩
  exact (((hroots.forget.trans hnumbers).trans hbrackets.forget).trans hspaces.forget).trans
    (carries_trim htrimmed (List.cons_ne_nil _ _) (fun _ => Iff.rfl) continuesNumber_trimEnd)

end Simultaneous.Formula
