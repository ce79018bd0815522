import Mathlib.Data.List.Induction
import Simultaneous.Proofs.Formula.Joints

/-!
The letters of a name through the passes. Only the pass over numbers parts them from what stands in
front of them, and only from a number that is no part of a name.
-/

namespace Simultaneous.Formula

open Text

section

variable {letter : Char → Bool} {before : Bool} {s x o gap : List Char} {c f : Char}

theorem endsInName_iff : endsInName letter false s = true ↔ ∃ w c digits, s = w ++ c :: digits ∧
    letter c = true ∧ isDigit c = false ∧ ∀ d ∈ digits, isDigit d = true := by
  induction s using List.reverseRecOn with
  | nil => simp
  | append_singleton s a ih =>
    rw [endsInName_append, endsInName_cons, endsInName_nil]
    cases ha : isDigit a with
    | true =>
      rw [if_pos rfl, ih]
      constructor
      · rintro ⟨w, c, digits, rfl, hc, hdigit, hdigits⟩
        refine ⟨w, c, digits ++ [a], by simp, hc, hdigit, fun d hd => ?_⟩
        obtain hd | hd := List.mem_append.mp hd
        · exact hdigits d hd
        · exact List.mem_singleton.mp hd ▸ ha
      · rintro ⟨w, c, digits, hs, hc, hdigit, hdigits⟩
        obtain rfl | ⟨digits, d, rfl⟩ := List.eq_nil_or_concat digits
        · obtain rfl : a = c := (List.cons_eq_cons.mp (List.append_inj' hs rfl).2).1
          simp [ha] at hdigit
        · have hsplit : s ++ [a] = (w ++ c :: digits) ++ [d] := by simpa using hs
          obtain ⟨rfl, -⟩ := List.append_inj' hsplit rfl
          exact ⟨w, c, digits, rfl, hc, hdigit, fun e he => hdigits e (by simp [he])⟩
    | false =>
      rw [if_neg Bool.false_ne_true]
      constructor
      · exact fun hletter => ⟨s, a, [], rfl, hletter, ha, nofun⟩
      · rintro ⟨w, c, digits, hs, hc, hdigit, hdigits⟩
        obtain rfl | ⟨digits, d, rfl⟩ := List.eq_nil_or_concat digits
        · obtain rfl : a = c := (List.cons_eq_cons.mp (List.append_inj' hs rfl).2).1
          exact hc
        · have hsplit : s ++ [a] = (w ++ c :: digits) ++ [d] := by simpa using hs
          obtain rfl : a = d := (List.cons_eq_cons.mp (List.append_inj' hsplit rfl).2).1
          simp [hdigits a (by simp)] at ha

theorem endsInName_eq_false (h : ∀ c ∈ s, isDigit c = true ∨ letter c = false) :
    endsInName letter false s = false := by
  refine Bool.eq_false_iff.mpr fun hname => ?_
  obtain ⟨w, c, digits, rfl, hc, hdigit, -⟩ := endsInName_iff.mp hname
  simpa [hc, hdigit] using h c (by simp)

/-- Behind a character that is no digit nothing is left of what stood in front of it. -/
theorem endsInName_eq (h : ∃ c ∈ s, isDigit c = false) (b b' : Bool) :
    endsInName letter b s = endsInName letter b' s := by
  obtain ⟨c, hc, hdigit⟩ := h
  obtain ⟨w, z, rfl⟩ := List.append_of_mem hc
  simp [hdigit]

/-- In front of a factor the pass over numbers leaves the end of a word just where a name ended: it
parts the factor from a number. -/
theorem exists_last_numberRule (hf : beginsFactor f = true) (he : f ∉ ['e', 'E'])
    (h : Rewrites NumberRule before (x ++ [f]) o) :
    ∃ o', o = o' ++ [f] ∧ endsInWord before o' = endsInName isWord before x := by
  generalize ht : x ++ [f] = t at h
  induction h generalizing x with
  | nil => simp at ht
  | @replace before u v r o hr rest ih =>
    obtain @⟨n, gap, r, g, number, blank, factor, -⟩ := hr
    have hg := isDigit_of_beginsFactor factor
    obtain rfl | ⟨r, a, rfl⟩ := List.eq_nil_or_concat r
    · obtain rfl := rest.eq_nil consumes_numberRule
      have hlast : x ++ [f] = (n ++ gap) ++ [g] := by simpa using ht
      obtain ⟨rfl, hfactor⟩ := List.append_inj' hlast rfl
      obtain rfl : f = g := (List.cons_eq_cons.mp hfactor).1
      refine ⟨n ++ ['*'], by simp, ?_⟩
      rw [endsInName_eq_false fun c hc => ?_]
      · simp [(by decide : isWord '*' = false)]
      obtain hc | hc := List.mem_append.mp hc
      · obtain hc | rfl := number.isDigit_or c hc
        · exact .inl hc
        · exact .inr (by decide)
      · exact .inr (isWord_of_isBlank (blank c hc))
    · rw [List.concat_eq_append, ← List.append_assoc] at ht
      obtain ⟨rfl, hfactor⟩ := List.append_inj' ht rfl
      obtain rfl : f = a := (List.cons_eq_cons.mp hfactor).1
      obtain ⟨o', rfl, ho'⟩ := ih (List.concat_eq_append ..).symm
      refine ⟨n ++ '*' :: g :: o', by simp, ?_⟩
      simpa [hg] using ho'
  | @keep before c s o hnot rest ih =>
    cases x with
    | nil =>
      obtain ⟨rfl, rfl⟩ := List.cons_eq_cons.mp ht
      obtain rfl := rest.eq_nil consumes_numberRule
      exact ⟨[], rfl, rfl⟩
    | cons b x =>
      obtain ⟨rfl, rfl⟩ := List.cons_eq_cons.mp ht
      obtain ⟨o', rfl, ho'⟩ := ih rfl
      refine ⟨b :: o', rfl, ?_⟩
      rw [endsInWord_cons, ho', endsInName_cons]
      cases hdigit : isDigit b with
      | false => rfl
      | true =>
        rw [if_pos rfl, isWord_of_isDigit hdigit]
        cases before with
        | true => rfl
        | false =>
          -- a number in front of the factor would have been a block
          refine endsInName_eq (by_contra fun hall => hnot ?_) _ _
          have hdigits : ∀ d ∈ b :: x, isDigit d = true :=
            List.forall_mem_cons.mpr ⟨hdigit, by simpa using hall⟩
          exact applies_numberRule_iff.mpr ⟨rfl, b :: x, [], f, [], rfl,
            .whole (List.cons_ne_nil b x) hdigits, nofun, hf, not_isExponent he []⟩

end

/-- A word begins the text or what a root becomes there. -/
def BeginsWord (letter : Char → Bool) (s : List Char) : Prop :=
  Begins letter s ∨ ∃ gap, IsGap gap ∧ '√' :: (gap ++ ['(']) <+: s

section

variable {s : List Char}

theorem begins_nameRoots (s : List Char) : Begins isWord (nameRoots 0 s) ↔ BeginsWord isWord s := by
  have h := follows_nameRoots.rewrites false s
  generalize nameRoots 0 s = o at h
  cases h with
  | nil => simp [BeginsWord, Begins]
  | replace hr _ =>
    obtain ⟨blank⟩ := hr
    refine iff_of_true (by simp; decide) (.inr ⟨_, blank, by simp⟩)
  | @keep _ c s _ hnot _ =>
    rw [BeginsWord, begins_cons, begins_cons, or_iff_left]
    rintro ⟨gap, blank, r, hr⟩
    exact hnot (applies_rootRule_iff.mpr ⟨gap, r, by simpa using hr.symm, blank⟩)

theorem begins_multiplyNumbers (s : List Char) :
    Begins isWord (multiplyNumbers 0 true s) ↔ Begins isWord s := by
  have h := follows_multiplyNumbers.rewrites true s
  generalize multiplyNumbers 0 true s = o at h
  cases h with
  | nil => rfl
  | replace hr _ => cases hr
  | keep _ _ => simp

theorem begins_multiplyBrackets (s : List Char) :
    Begins isWord (multiplyBrackets 0 s) ↔ Begins isWord s := by
  refine (follows_multiplyBrackets.rewrites false s).begins_iff (fun hr => ?_) fun _ => rfl
  obtain ⟨-, -⟩ := hr
  simp

theorem begins_singleSpaced (s : List Char) :
    Begins isWord (singleSpaced false s) ↔ Begins isWord s := by
  refine (follows_singleSpaced.rewrites false s).begins_iff (fun hr => ?_) fun _ => rfl
  obtain ⟨blank, -⟩ := hr
  simp [isWord_of_isBlank (blank _ List.mem_cons_self), (by decide : isWord ' ' = false)]

/-- Where the letters `pi` stand after the first two passes they stand in the end, parted from a
number in front of them. -/
theorem carries_pi : Carries spellOut ['p', 'i'] (fun x => endsInName isWord false x = true)
    (fun x => endsInWord false x = true) (BeginsWord isWord) (Begins isWord) := by
  have hnumbers : Carries (multiplyNumbers 0 false) ['p', 'i']
      (fun x => endsInName isWord false x = true) (fun x => endsInWord false x = true)
      (Begins isWord) (Begins isWord) := by
    refine carries_of_cut follows_multiplyNumbers isJoint_p.cuts_numberRule (fun x => ?_)
      fun y => ?_
    · obtain ⟨x', hx, hx'⟩ := exists_last_numberRule (by decide) (by decide)
        (follows_multiplyNumbers.rewrites false (x ++ ['p']))
      exact ⟨x', hx, by rw [hx']⟩
    · refine ⟨multiplyNumbers 0 true y, rfl, begins_multiplyNumbers y, fun h => by rw [h]; rfl⟩
  exact ((((carries_nameRoots isJoint_p (by decide) begins_nameRoots).trans hnumbers).trans
    (carries_multiplyBrackets isJoint_p (by decide) begins_multiplyBrackets)).trans
    (carries_singleSpaced isJoint_p (List.forall_mem_singleton.mpr (by decide))
      begins_singleSpaced)).trans
    (carries_trim ⟨by rintro c ⟨⟩; decide, by rintro c ⟨⟩; decide⟩ (List.cons_ne_nil _ _)
      (fun x => by rw [endsInWord_trimStart])
      (begins_trimEnd fun _ => isWord_of_isBlank))

end

end Simultaneous.Formula
