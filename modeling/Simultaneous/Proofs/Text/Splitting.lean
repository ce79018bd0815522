import Mathlib.Data.Bool.AllAny
import Simultaneous.Proofs.Text.Trimming
import Simultaneous.Text.Splitting

/-!
Cutting a block of text into equations loses nothing but blanks, separators and the commas between
equations, and an equation that has been cut out is not cut again.
-/

namespace Simultaneous.Text

/-- The depth of open brackets behind a text, never below zero. -/
def openDepth (s : List Char) : Nat := s.foldl depthAfter 0

/-- No comma stands outside all brackets. -/
def NoOuterComma (s : List Char) : Prop := ∀ u v, s = u ++ ',' :: v → openDepth u ≠ 0

/-- The text of a single equation. -/
structure IsEquationText (s : List Char) : Prop where
  nonblank : ∃ c ∈ s, isBlank c = false
  trimmed : IsTrimmed s
  unseparated : ∀ c ∈ s, c ∉ ['\n', '\r', ';']
  commas : NoOuterComma s

/-- The characters that are not blank. -/
def unblanked (s : List Char) : List Char := s.filter (!isBlank ·)

/-- What a block of text holds besides blanks, separators and the commas of depth zero; the depth is
counted anew behind each separator. -/
def substance : Nat → List Char → List Char
  | _, [] => []
  | depth, c :: s =>
    if isSeparator c then substance 0 s
    else if isBlank c || (c == ',' && depth == 0) then substance (depthAfter depth c) s
    else c :: substance (depthAfter depth c) s

section

variable {p : Char → Bool} {c : Char}

theorem pieces_cons (p : Char → Bool) (c : Char) (s : List Char) : pieces p (c :: s) =
    match pieces p s with
    | [] => [[]]
    | w :: ws => if p c then [] :: w :: ws else (c :: w) :: ws := rfl

theorem pieces_ne_nil (s : List Char) : pieces p s ≠ [] := by
  induction s with
  | nil => nofun
  | cons a s ih =>
    rw [pieces_cons]
    split
    · nofun
    · split <;> nofun

theorem pieces_cut (hc : p c = true) (s : List Char) : pieces p (c :: s) = [] :: pieces p s := by
  rw [pieces_cons]
  split
  next hnil => exact absurd hnil (pieces_ne_nil s)
  next hs => rw [if_pos hc, hs]

theorem exists_pieces_keep (hc : p c = false) (s : List Char) :
    ∃ w ws, pieces p s = w :: ws ∧ pieces p (c :: s) = (c :: w) :: ws := by
  cases hs : pieces p s with
  | nil => exact absurd hs (pieces_ne_nil s)
  | cons w ws => exact ⟨w, ws, rfl, by simp [pieces_cons, hs, hc]⟩

/-- The text is cut apart at every separator. -/
theorem pieces_append (hc : p c = true) (s t : List Char) :
    pieces p (s ++ c :: t) = pieces p s ++ pieces p t := by
  induction s with
  | nil => exact pieces_cut hc t
  | cons a s ih =>
    cases ha : p a with
    | true => rw [List.cons_append, pieces_cut ha, pieces_cut ha, ih, List.cons_append]
    | false =>
      obtain ⟨w, ws, hs, hkeep⟩ := exists_pieces_keep ha s
      obtain ⟨w', ws', hst, hkeep'⟩ := exists_pieces_keep ha (s ++ c :: t)
      rw [ih, hs, List.cons_append] at hst
      obtain ⟨rfl, rfl⟩ := List.cons_eq_cons.mp hst
      rw [List.cons_append, hkeep', hkeep, List.cons_append]

theorem pieces_eq_singleton {s : List Char} (h : ∀ c ∈ s, p c = false) : pieces p s = [s] := by
  induction s with
  | nil => rfl
  | cons a s ih =>
    obtain ⟨w, ws, hs, hkeep⟩ := exists_pieces_keep (h a List.mem_cons_self) s
    rw [ih fun c hc => h c (List.mem_cons_of_mem a hc)] at hs
    obtain ⟨rfl, rfl⟩ := List.cons_eq_cons.mp hs
    exact hkeep

theorem mem_of_mem_pieces {s w : List Char} (hw : w ∈ pieces p s) :
    ∀ c ∈ w, c ∈ s ∧ p c = false := by
  induction s generalizing w with
  | nil =>
    rw [List.mem_singleton.mp hw]
    nofun
  | cons a s ih =>
    have hlater : ∀ {w}, w ∈ pieces p s → ∀ c ∈ w, c ∈ a :: s ∧ p c = false := fun hw c hc =>
      (ih hw c hc).imp_left (List.mem_cons_of_mem a)
    cases ha : p a with
    | true =>
      rw [pieces_cut ha] at hw
      obtain rfl | hw := List.mem_cons.mp hw
      · nofun
      · exact hlater hw
    | false =>
      obtain ⟨u, us, hs, hkeep⟩ := exists_pieces_keep ha s
      rw [hkeep] at hw
      rw [hs] at hlater
      obtain rfl | hw := List.mem_cons.mp hw
      · intro c hc
        obtain rfl | hc := List.mem_cons.mp hc
        · exact ⟨List.mem_cons_self, ha⟩
        · exact hlater List.mem_cons_self c hc
      · exact hlater (List.mem_cons_of_mem u hw)

end

theorem isSeparator_iff {c : Char} : isSeparator c = true ↔ c ∈ ['\n', '\r', ';'] := by
  simp [isSeparator, or_assoc]

theorem depthAfter_of_isBlank {c : Char} (h : isBlank c = true) (depth : Nat) :
    depthAfter depth c = depth := by
  have hbrackets : ∀ b ∈ ['(', '[', '{', ')', ']', '}'], c ≠ b := by
    intro b hb hcb
    have hnot : ∀ b ∈ ['(', '[', '{', ')', ']', '}'], isBlank b = false :=
      List.all_iff_forall_prop.mp (by decide)
    simp [hcb ▸ hnot b hb] at h
  simp only [List.forall_mem_cons] at hbrackets
  simp [depthAfter, hbrackets]

theorem openDepth_concat (s : List Char) (c : Char) :
    openDepth (s ++ [c]) = depthAfter (openDepth s) c := by
  simp [openDepth]

/-- Blanks in front of a text have no influence on its depth. -/
theorem openDepth_gap_append {gap : List Char} (h : ∀ c ∈ gap, isBlank c = true) (s : List Char) :
    openDepth (gap ++ s) = openDepth s := by
  have hgap : gap.foldl depthAfter 0 = 0 := by
    induction gap with
    | nil => rfl
    | cons c gap ih =>
      rw [List.foldl_cons, depthAfter_of_isBlank (h c List.mem_cons_self)]
      exact ih fun a ha => h a (List.mem_cons_of_mem c ha)
  rw [openDepth, List.foldl_append, hgap, openDepth]

theorem NoOuterComma.concat {s : List Char} {c : Char} (h : NoOuterComma s)
    (hc : c = ',' → openDepth s ≠ 0) : NoOuterComma (s ++ [c]) := by
  intro u v huv
  obtain rfl | ⟨v, a, rfl⟩ := List.eq_nil_or_concat v
  · obtain ⟨rfl, hcomma⟩ := List.append_inj' huv rfl
    exact hc (List.cons_eq_cons.mp hcomma).1
  · rw [List.concat_eq_append, ← List.cons_append, ← List.append_assoc] at huv
    exact h u v (List.append_inj' huv rfl).1

/-- A part of a text of a single equation with blanks around it. -/
theorem NoOuterComma.trim {s : List Char} (h : NoOuterComma s) : NoOuterComma (trim s) := by
  obtain ⟨before, after, hbefore, -, hs⟩ := exists_gaps_trim s
  intro u v huv
  rw [← openDepth_gap_append hbefore]
  exact h (before ++ u) (v ++ after) (by rw [hs, huv]; simp)

theorem noOuterComma_nil : NoOuterComma [] := fun u v huv => by simp at huv

theorem cutCommas_nil (depth : Nat) (word : List Char) :
    cutCommas depth word [] = [word.reverse] := rfl

theorem cutCommas_cons (depth : Nat) (word : List Char) (c : Char) (s : List Char) :
    cutCommas depth word (c :: s) =
      if c == ',' && depth == 0 then word.reverse :: cutCommas depth [] s
      else cutCommas (depthAfter depth c) (c :: word) s := rfl

variable {word s : List Char}

/-- By induction along the scan, whose depth is that of the part it is reading. -/
theorem noOuterComma_of_mem_cutCommas (hword : NoOuterComma word) {part : List Char}
    (h : part ∈ cutCommas (openDepth word) word.reverse s) : NoOuterComma part := by
  induction s generalizing word with
  | nil =>
    obtain rfl : part = word := by simpa [cutCommas_nil] using h
    exact hword
  | cons c s ih =>
    rw [cutCommas_cons] at h
    split at h
    next hcut =>
      obtain ⟨-, hdepth⟩ : c = ',' ∧ openDepth word = 0 := by simpa using hcut
      rw [List.reverse_reverse, hdepth] at h
      obtain rfl | h := List.mem_cons.mp h
      · exact hword
      · exact ih noOuterComma_nil h
    next hkeep =>
      rw [← openDepth_concat, ← List.reverse_concat] at h
      exact ih (hword.concat fun hc => by simpa [hc] using hkeep) h

theorem mem_of_mem_cutCommas {depth : Nat} {part : List Char}
    (h : part ∈ cutCommas depth word s) : ∀ c ∈ part, c ∈ word ∨ c ∈ s := by
  induction s generalizing depth word with
  | nil =>
    rw [List.mem_singleton.mp h]
    exact fun c hc => .inl (List.mem_reverse.mp hc)
  | cons a s ih =>
    intro c hc
    rw [cutCommas_cons] at h
    split at h
    · obtain rfl | h := List.mem_cons.mp h
      · exact .inl (List.mem_reverse.mp hc)
      · exact (ih h c hc).elim nofun fun hs => .inr (List.mem_cons_of_mem a hs)
    · obtain hword | hs := ih h c hc
      · obtain rfl | hword := List.mem_cons.mp hword
        · exact .inr List.mem_cons_self
        · exact .inl hword
      · exact .inr (List.mem_cons_of_mem a hs)

theorem cutCommas_eq_singleton (h : NoOuterComma (word ++ s)) :
    cutCommas (openDepth word) word.reverse s = [word ++ s] := by
  induction s generalizing word with
  | nil => simp [cutCommas_nil]
  | cons c s ih =>
    have hkeep : ¬ (c == ',' && openDepth word == 0) = true := fun hcut => by
      obtain ⟨rfl, hdepth⟩ : c = ',' ∧ openDepth word = 0 := by simpa using hcut
      exact h word s rfl hdepth
    have hsplit : word ++ c :: s = word ++ [c] ++ s := by simp
    rw [hsplit] at h ⊢
    rw [cutCommas_cons, if_neg hkeep, ← openDepth_concat, ← List.reverse_concat,
      ih h]

theorem isEquationText_of_mem {part : List Char} (h : part ∈ splitEquations s) :
    IsEquationText part := by
  obtain ⟨chunk, hchunk, hpart⟩ := List.mem_flatMap.mp h
  obtain ⟨hmem, hnonempty⟩ := List.mem_filter.mp hpart
  obtain ⟨raw, hraw, rfl⟩ := List.mem_map.mp hmem
  obtain ⟨before, after, -, -, hsplit⟩ := exists_gaps_trim raw
  have htrimmed := isTrimmed_trim raw
  have hcommas : NoOuterComma raw :=
    noOuterComma_of_mem_cutCommas noOuterComma_nil hraw
  refine ⟨?_, htrimmed, fun c hc hsep => ?_, hcommas.trim⟩
  · obtain ⟨c, t, ht⟩ := List.exists_cons_of_ne_nil (l := trim raw) (by simpa using hnonempty)
    exact ⟨c, by simp [ht], htrimmed.head c (by simp [ht])⟩
  · have hc : c ∈ raw := by
      rw [hsplit]
      simp [hc]
    obtain hnil | hc := mem_of_mem_cutCommas hraw c hc
    · cases hnil
    · have := (mem_of_mem_pieces hchunk c hc).2
      simp [isSeparator_iff.mpr hsep] at this

/-- The text of a single equation is not cut. -/
theorem IsEquationText.splitEquations_eq (h : IsEquationText s) : splitEquations s = [s] := by
  have hpieces : pieces isSeparator s = [s] := pieces_eq_singleton fun c hc =>
    Bool.eq_false_iff.mpr fun hsep => h.unseparated c hc (isSeparator_iff.mp hsep)
  have hcut : cutCommas 0 [] s = [s] := @cutCommas_eq_singleton [] s h.commas
  obtain ⟨c, hc, -⟩ := h.nonblank
  have hnonempty : s ≠ [] := List.ne_nil_of_mem hc
  rw [splitEquations, hpieces, List.flatMap_singleton, splitCommas, hcut, List.map_singleton,
    h.trimmed.trim_eq]
  simp [hnonempty]

theorem unblanked_append (s t : List Char) : unblanked (s ++ t) = unblanked s ++ unblanked t :=
  List.filter_append s t

/-- Trimming the parts and leaving out the blank ones keeps all that is not blank. -/
theorem unblanked_trimmed (parts : List (List Char)) :
    unblanked ((parts.map trim).filter (!·.isEmpty)).flatten = unblanked parts.flatten := by
  induction parts with
  | nil => rfl
  | cons w parts ih =>
    have hw : unblanked (trim w) = unblanked w := filter_trim (fun c hc => by simp [hc]) w
    rw [List.map_cons, List.flatten_cons, unblanked_append, ← hw, ← ih]
    by_cases hnil : trim w = []
    · rw [List.filter_cons_of_neg (by simp [hnil]), hnil]
      rfl
    · rw [List.filter_cons_of_pos (by simpa using hnil), List.flatten_cons, unblanked_append]

theorem unblanked_splitEquations (s : List Char) : unblanked (splitEquations s).flatten =
    unblanked ((pieces isSeparator s).flatMap (cutCommas 0 [])).flatten := by
  rw [splitEquations]
  induction pieces isSeparator s with
  | nil => rfl
  | cons w ws ih =>
    rw [List.flatMap_cons, List.flatMap_cons, List.flatten_append, List.flatten_append,
      unblanked_append, unblanked_append, ih, splitCommas, unblanked_trimmed]

theorem substance_nil (depth : Nat) : substance depth [] = [] := rfl

theorem substance_cons (depth : Nat) (c : Char) (s : List Char) : substance depth (c :: s) =
    if isSeparator c then substance 0 s
    else if isBlank c || (c == ',' && depth == 0) then substance (depthAfter depth c) s
    else c :: substance (depthAfter depth c) s := rfl

/-- What the parts hold is the substance of the text: by induction along the scan of the first
chunk, in the part that it has begun. -/
theorem unblanked_cutCommas {depth : Nat} {w : List Char} {ws : List (List Char)}
    (h : pieces isSeparator s = w :: ws) :
    unblanked (cutCommas depth word w ++ ws.flatMap (cutCommas 0 [])).flatten =
      unblanked word.reverse ++ substance depth s := by
  induction s generalizing depth word w ws with
  | nil =>
    obtain ⟨rfl, rfl⟩ := List.cons_eq_cons.mp h
    simp [cutCommas_nil, substance_nil]
  | cons c s ih =>
    rw [substance_cons]
    cases hsep : isSeparator c with
    | true =>
      rw [pieces_cut hsep] at h
      obtain ⟨rfl, rfl⟩ := List.cons_eq_cons.mp h
      obtain ⟨v, vs, hs⟩ := List.exists_cons_of_ne_nil (pieces_ne_nil (p := isSeparator) s)
      rw [cutCommas_nil, if_pos rfl, hs, List.flatMap_cons, List.singleton_append,
        List.flatten_cons, unblanked_append, ih hs]
      rfl
    | false =>
      obtain ⟨v, vs, hs, hkeep⟩ := exists_pieces_keep hsep s
      obtain ⟨rfl, rfl⟩ := List.cons_eq_cons.mp (hkeep.symm.trans h)
      rw [if_neg Bool.false_ne_true, cutCommas_cons]
      split
      next hcut =>
        obtain ⟨rfl, rfl⟩ : c = ',' ∧ depth = 0 := by simpa using hcut
        rw [List.cons_append, List.flatten_cons, unblanked_append, ih hs]
        rfl
      next hcut =>
        rw [ih hs, List.reverse_cons, unblanked_append, List.append_assoc,
          Bool.eq_false_iff.mpr hcut, Bool.or_false]
        split
        next hblank => simp [unblanked, hblank]
        next hblank => simp [unblanked, Bool.eq_false_iff.mpr hblank]

/-- Cutting a block of text into equations: a separator cuts it into blocks of their own; every part
is the text of a single equation, and is not cut again; and the parts hold all characters of the
block but blanks, separators and the commas between equations, in their order. -/
theorem splitEquations_lossless (s : List Char) :
    (∀ c ∈ ['\n', '\r', ';'], ∀ t,
        splitEquations (s ++ c :: t) = splitEquations s ++ splitEquations t) ∧
      (∀ part ∈ splitEquations s, IsEquationText part ∧ splitEquations part = [part]) ∧
      unblanked (splitEquations s).flatten = substance 0 s := by
  refine ⟨fun c hc t => ?_, fun part hpart => ?_, ?_⟩
  · rw [splitEquations, pieces_append (isSeparator_iff.mpr hc), List.flatMap_append]
    rfl
  · have htext := isEquationText_of_mem hpart
    exact ⟨htext, htext.splitEquations_eq⟩
  · obtain ⟨w, ws, hs⟩ := List.exists_cons_of_ne_nil (pieces_ne_nil (p := isSeparator) s)
    have hcut := @unblanked_cutCommas [] s 0 w ws hs
    rw [← List.flatMap_cons, ← hs, ← unblanked_splitEquations] at hcut
    exact hcut

theorem splitEquations_lossless_brackets :
    splitEquations " f(a, b), ]c".toList ++ splitEquations "d".toList =
        splitEquations " f(a, b), ]c;d".toList ∧
      IsEquationText "f(a, b)".toList ∧
      splitEquations "f(a, b)".toList = ["f(a, b)".toList] := by
  obtain ⟨happend, hparts, -⟩ := splitEquations_lossless " f(a, b), ]c".toList
  have hsplit : splitEquations " f(a, b), ]c".toList = ["f(a, b)".toList, "]c".toList] := rfl
  exact ⟨(happend ';' (by decide) "d".toList).symm, hparts _ (hsplit ▸ List.mem_cons_self)⟩

end Simultaneous.Text
