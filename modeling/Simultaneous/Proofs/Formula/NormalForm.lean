import Simultaneous.Proofs.Formula.Acceptance
import Simultaneous.Proofs.Formula.Remainders

/-!
The plain form is a normal form. What it looks like is stated without the passes; they change
nothing in a text that looks so, and their result looks so.
-/

namespace Simultaneous.Formula

open Text

/-- The signs and superscripts that have a plain form. -/
def typographic : List Char := [
  '−', '–', 'π', '×', '·', '÷', '^', '⁰', '¹', '²', '³', '⁴', '⁵', '⁶', '⁷', '⁸', '⁹', '⁻']

/-- The only blanks are single spaces between other characters. -/
def IsSpaced (t : List Char) : Prop :=
  ∀ before c after, t = before ++ c :: after → isBlank c = true →
    c = ' ' ∧ (∃ a ∈ before.getLast?, isBlank a = false) ∧ ∃ b ∈ after.head?, isBlank b = false

/-- Nothing is left to be written in plain characters. -/
structure IsPlain (t : List Char) : Prop where
  signs : ∀ c ∈ t, c ∉ typographic
  roots : ∀ before gap after, t = before ++ '√' :: (gap ++ '(' :: after) → ¬ IsGap gap
  numbers : ∀ before n gap f after, t = before ++ (n ++ (gap ++ f :: after)) →
    (∀ c ∈ before.getLast?, isWord c = false) → IsNumber n → IsGap gap →
      isAsciiLetter f = true ∨ f = '_' ∨ f = '(' → IsExponent (f :: after)
  brackets : ∀ before gap f after, t = before ++ ')' :: (gap ++ f :: after) → IsGap gap →
    isAsciiLetter f = false ∧ f ≠ '_' ∧ f ≠ '(' ∧ isDigit f = false
  spaced : IsSpaced t

section

variable {s t : List Char} {c : Char}

theorem plainSign_eq (h : c ∉ typographic) : plainSign c = [c] := by
  unfold plainSign
  split <;> first | rfl | exact absurd (by decide) h

theorem raised?_eq_none (h : c ∉ typographic) : raised? c = none := by
  unfold raised?
  split <;> first | rfl | exact absurd (by decide) h

theorem not_mem_typographic (hsign : plainSign c = [c]) (hraised : raised? c = none) :
    c ∉ typographic := by
  have hall : ∀ c ∈ typographic, plainSign c ≠ [c] ∨ raised? c ≠ none :=
    List.all_iff_forall_prop.mp (by decide)
  intro h
  obtain h | h := hall c h
  · exact h hsign
  · exact h hraised

theorem plainSign_of_mem_flatMap (h : c ∈ s.flatMap plainSign) : plainSign c = [c] := by
  obtain ⟨a, -, ha⟩ := List.mem_flatMap.mp h
  by_cases hmem : a ∈ typographic
  · have hall : ∀ a ∈ typographic, (plainSign a).all (fun c => plainSign c == [c]) = true :=
      List.all_iff_forall_prop.mp (by decide)
    simpa using List.all_eq_true.mp (hall a hmem) c ha
  · rw [plainSign_eq hmem] at ha
    exact List.mem_singleton.mp ha ▸ plainSign_eq hmem

theorem mem_lowerRaised {inRun : Bool} (h : c ∈ lowerRaised inRun s) :
    c ∈ s ∧ raised? c = none ∨ c = '*' ∨ ∃ a, raised? a = some c := by
  induction s generalizing inRun with
  | nil => cases h
  | cons a s ih =>
    have hrest : ∀ {inRun}, c ∈ lowerRaised inRun s →
        c ∈ a :: s ∧ raised? c = none ∨ c = '*' ∨ ∃ a, raised? a = some c :=
      fun h => (ih h).imp_left fun h => ⟨List.mem_cons_of_mem a h.1, h.2⟩
    rw [lowerRaised] at h
    split at h
    next d hd =>
      split at h
      · obtain rfl | h := List.mem_cons.mp h
        · exact .inr (.inr ⟨a, hd⟩)
        · exact hrest h
      · simp only [List.mem_cons] at h
        obtain rfl | rfl | rfl | h := h
        · exact .inr (.inl rfl)
        · exact .inr (.inl rfl)
        · exact .inr (.inr ⟨a, hd⟩)
        · exact hrest h
    next hd =>
      obtain rfl | h := List.mem_cons.mp h
      · exact .inl ⟨List.mem_cons_self, hd⟩
      · exact hrest h

theorem not_typographic_of_mem (h : c ∈ lowerRaised false (s.flatMap plainSign)) :
    c ∉ typographic := by
  obtain ⟨hmem, hraised⟩ | rfl | ⟨a, ha⟩ := mem_lowerRaised h
  · exact not_mem_typographic (plainSign_of_mem_flatMap hmem) hraised
  · decide
  · unfold raised? at ha
    split at ha <;> cases ha <;> decide

theorem isKept_typographic : IsKept fun c => decide (c ∈ typographic) :=
  .of_forall (List.all_iff_forall_prop.mp (by decide)) (fun _ => of_decide_eq_true)
    (List.all_iff_forall_prop.mp (by decide))

theorem not_typographic_of_mem_inPlainSigns (h : c ∈ inPlainSigns s) : c ∉ typographic := by
  have hfilter := isKept_typographic.filter_spellOut (lowerRaised false (s.flatMap plainSign))
  have hnil : (lowerRaised false (s.flatMap plainSign)).filter (fun c => decide (c ∈ typographic)) =
      [] := List.filter_eq_nil_iff.mpr fun c hc => by simp [not_typographic_of_mem hc]
  rw [hnil] at hfilter
  simpa using List.filter_eq_nil_iff.mp hfilter c h

theorem flatMap_plainSign_eq (h : ∀ c ∈ t, c ∉ typographic) : t.flatMap plainSign = t := by
  induction t with
  | nil => rfl
  | cons c t ih =>
    obtain ⟨hc, ht⟩ := List.forall_mem_cons.mp h
    rw [List.flatMap_cons, plainSign_eq hc, ih ht]
    rfl

theorem lowerRaised_eq {inRun : Bool} (h : ∀ c ∈ t, c ∉ typographic) : lowerRaised inRun t = t := by
  induction t generalizing inRun with
  | nil => rfl
  | cons c t ih =>
    obtain ⟨hc, ht⟩ := List.forall_mem_cons.mp h
    rw [lowerRaised, raised?_eq_none hc]
    exact congrArg (c :: ·) (ih ht)

theorem singleSpaced_blanks (inRun : Bool) (s : List Char) :
    (inRun = true → ∀ b ∈ (singleSpaced inRun s).head?, isBlank b = false) ∧
      ∀ before c after, singleSpaced inRun s = before ++ c :: after → isBlank c = true →
        c = ' ' ∧ ∀ b ∈ after.head?, isBlank b = false := by
  induction s generalizing inRun with
  | nil =>
    rw [singleSpaced]
    exact ⟨fun _ b hb => by simp at hb, fun before c after h => by simp at h⟩
  | cons a s ih =>
    rw [singleSpaced]
    split
    · split
      next hrun => exact hrun ▸ ih true
      next hrun =>
        refine ⟨fun h => absurd h hrun, fun before c after h hc => ?_⟩
        cases before with
        | nil =>
          obtain ⟨rfl, rfl⟩ := List.cons_eq_cons.mp h
          exact ⟨rfl, (ih true).1 rfl⟩
        | cons b before => exact (ih true).2 before c after (List.cons_eq_cons.mp h).2 hc
    next ha =>
      refine ⟨fun _ b hb => ?_, fun before c after h hc => ?_⟩
      · obtain rfl : a = b := by simpa using hb
        simpa using ha
      · cases before with
        | nil =>
          obtain ⟨rfl, rfl⟩ := List.cons_eq_cons.mp h
          exact absurd hc ha
        | cons b before => exact (ih false).2 before c after (List.cons_eq_cons.mp h).2 hc

theorem isSpaced_trim (s : List Char) : IsSpaced (trim (singleSpaced false s)) := by
  obtain ⟨gap, gap', -, -, hs⟩ := exists_gaps_trim (singleSpaced false s)
  have htrimmed := isTrimmed_trim (singleSpaced false s)
  have hblanks := (singleSpaced_blanks false s).2
  rw [hs] at hblanks
  generalize trim (singleSpaced false s) = t at htrimmed hblanks
  rintro before c after rfl hc
  obtain ⟨hspace, hafter⟩ := hblanks (gap ++ before) c (after ++ gap') (by simp) hc
  refine ⟨hspace, ?_, ?_⟩
  · obtain rfl | ⟨before, a, rfl⟩ := List.eq_nil_or_concat before
    · simp [htrimmed.head c rfl] at hc
    · refine ⟨a, by simp, Bool.eq_false_iff.mpr fun ha => ?_⟩
      have := (hblanks (gap ++ before) a (c :: (after ++ gap')) (by simp) ha).2 c rfl
      simp [hc] at this
  · cases after with
    | nil => simp [htrimmed.last c (by simp)] at hc
    | cons b after => exact ⟨b, rfl, hafter b rfl⟩

theorem IsSpaced.isTrimmed (h : IsSpaced t) : IsTrimmed t := by
  constructor
  · intro c hc
    obtain ⟨after, rfl⟩ := List.head?_eq_some_iff.mp hc
    refine Bool.eq_false_iff.mpr fun hblank => ?_
    obtain ⟨-, ⟨a, ha, -⟩, -⟩ := h [] c after rfl hblank
    cases ha
  · intro c hc
    obtain ⟨before, rfl⟩ := List.getLast?_eq_some_iff.mp hc
    refine Bool.eq_false_iff.mpr fun hblank => ?_
    obtain ⟨-, -, b, hb, -⟩ := h before c [] rfl hblank
    cases hb

theorem singleSpaced_eq (h : ∀ before c after, t = before ++ c :: after → isBlank c = true →
      c = ' ' ∧ ∃ b ∈ after.head?, isBlank b = false) : singleSpaced false t = t := by
  induction t with
  | nil => rfl
  | cons c t ih =>
    have hrest := ih fun before a after ht => h (c :: before) a after (congrArg (c :: ·) ht)
    rw [singleSpaced]
    split
    next hc =>
      obtain ⟨rfl, b, hb, hblank⟩ := h [] c t rfl hc
      obtain ⟨t, rfl⟩ := List.head?_eq_some_iff.mp hb
      have hrun : singleSpaced true (b :: t) = singleSpaced false (b :: t) := by
        simp [singleSpaced, hblank]
      rw [if_neg Bool.false_ne_true, hrun, hrest]
    next => rw [hrest]

theorem endsInWord_eq_false_iff :
    endsInWord false s = false ↔ ∀ c ∈ s.getLast?, isWord c = false := by
  obtain rfl | ⟨s, a, rfl⟩ := List.eq_nil_or_concat s <;> simp

theorem nowhere_rootRule_iff : Nowhere RootRule false t ↔
    ∀ before gap after, t = before ++ '√' :: (gap ++ '(' :: after) → ¬ IsGap gap := by
  constructor
  · rintro h before gap after rfl blank
    exact h _ _ rfl (applies_rootRule_iff.mpr ⟨gap, after, rfl, blank⟩)
  · rintro h x y rfl happlies
    obtain ⟨gap, r, rfl, blank⟩ := applies_rootRule_iff.mp happlies
    exact h x gap r rfl blank

theorem nowhere_bracketRule_iff : Nowhere BracketRule false t ↔
    ∀ before gap f after, t = before ++ ')' :: (gap ++ f :: after) → IsGap gap →
      followsBracket f = false := by
  constructor
  · rintro h before gap f after rfl blank
    exact Bool.eq_false_iff.mpr fun hf =>
      h _ _ rfl (applies_bracketRule_iff.mpr ⟨gap, f, after, rfl, blank, hf⟩)
  · rintro h x y rfl happlies
    obtain ⟨gap, f, r, rfl, blank, factor⟩ := applies_bracketRule_iff.mp happlies
    simp [h x gap f r rfl blank] at factor

theorem nowhere_numberRule_iff : Nowhere NumberRule false t ↔
    ∀ before n gap f after, t = before ++ (n ++ (gap ++ f :: after)) →
      (∀ c ∈ before.getLast?, isWord c = false) → IsNumber n → IsGap gap →
        beginsFactor f = true → IsExponent (f :: after) := by
  constructor
  · rintro h before n gap f after rfl hword number blank factor
    by_contra power
    exact h _ _ rfl (applies_numberRule_iff.mpr
      ⟨endsInWord_eq_false_iff.mpr hword, n, gap, f, after, rfl, number, blank, factor, power⟩)
  · rintro h x y rfl happlies
    obtain ⟨hword, n, gap, f, r, rfl, number, blank, factor, power⟩ :=
      applies_numberRule_iff.mp happlies
    exact power (h x n gap f r rfl (endsInWord_eq_false_iff.mp hword) number blank factor)

theorem beginsFactor_iff : beginsFactor c = true ↔ isAsciiLetter c = true ∨ c = '_' ∨ c = '(' := by
  simp [beginsFactor, or_assoc]

theorem followsBracket_eq_false_iff : followsBracket c = false ↔
    isAsciiLetter c = false ∧ c ≠ '_' ∧ c ≠ '(' ∧ isDigit c = false := by
  simp [followsBracket, beginsFactor, and_assoc]

/-- What the passes over roots, numbers and brackets look for is nowhere in a plain text. -/
theorem isPlain_iff : IsPlain t ↔
    (∀ c ∈ t, c ∉ typographic) ∧ (Nowhere RootRule false t ∧ Nowhere NumberRule false t ∧
      Nowhere BracketRule false t) ∧ IsSpaced t := by
  simp only [nowhere_rootRule_iff, nowhere_numberRule_iff, nowhere_bracketRule_iff,
    beginsFactor_iff, followsBracket_eq_false_iff]
  exact ⟨fun ⟨signs, roots, numbers, brackets, spaced⟩ =>
      ⟨signs, ⟨roots, numbers, brackets⟩, spaced⟩,
    fun ⟨signs, ⟨roots, numbers, brackets⟩, spaced⟩ => ⟨signs, roots, numbers, brackets, spaced⟩⟩

theorem isPlain_inPlainSigns (s : List Char) : IsPlain (inPlainSigns s) :=
  isPlain_iff.mpr
    ⟨fun _ => not_typographic_of_mem_inPlainSigns, nowhere_spellOut _, isSpaced_trim _⟩

theorem inPlainSigns_eq (h : IsPlain t) : inPlainSigns t = t := by
  obtain ⟨signs, ⟨roots, numbers, brackets⟩, spaced⟩ := isPlain_iff.mp h
  rw [inPlainSigns]
  simp only [flatMap_plainSign_eq signs, lowerRaised_eq signs,
    (follows_nameRoots.rewrites false t).eq_self roots,
    (follows_multiplyNumbers.rewrites false t).eq_self numbers,
    (follows_multiplyBrackets.rewrites false t).eq_self brackets]
  rw [singleSpaced_eq fun before c after ht hc =>
    ⟨(spaced before c after ht hc).1, (spaced before c after ht hc).2.2⟩, spaced.isTrimmed.trim_eq]

end

/-- The plain form of a text has nothing left to be written in plain characters, and where it is
accepted itself, under whatever limits, it is its own plain form. -/
theorem plain_isPlain {limits : Settings} {text t : List Char} (h : plain limits text = .ok t) :
    IsPlain t ∧ ∀ limits' t', plain limits' t = .ok t' → t' = t := by
  have ht := ((plain_ensures limits text).of_eq_ok h).1
  have hplain : IsPlain t := ht ▸ isPlain_inPlainSigns (trim text)
  refine ⟨hplain, fun limits' t' h' => ?_⟩
  rw [((plain_ensures limits' t).of_eq_ok h').1, hplain.spaced.isTrimmed.trim_eq,
    inPlainSigns_eq hplain]

theorem plain_root : plain {} " 2√ (y)²".toList = .ok "2*sqrt(y)**2".toList := rfl

theorem plain_isPlain_root : plain {} " 2√ (y)²".toList = .ok "2*sqrt(y)**2".toList ∧
    IsPlain "2*sqrt(y)**2".toList ∧ ∀ limits t, plain limits "2*sqrt(y)**2".toList = .ok t →
      t = "2*sqrt(y)**2".toList :=
  ⟨plain_root, plain_isPlain plain_root⟩

end Simultaneous.Formula
