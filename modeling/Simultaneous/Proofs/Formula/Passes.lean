import Mathlib.Data.List.TakeWhile
import Simultaneous.Formula.Plain
import Simultaneous.Proofs.Text.Respelling
import Simultaneous.Proofs.Text.Trimming

/-!
What each pass over a formula replaces on the way to its plain form: signs, superscripts, roots, the
blanks between a number or a bracket and a factor, and runs of blanks.
-/

namespace Simultaneous.Formula

open Text

/-- Nothing but blanks. -/
def IsGap (gap : List Char) : Prop := ∀ c ∈ gap, isBlank c = true

/-- A sign or a superscript that is written in plain characters. -/
inductive SignBlock : List Char → List Char → Prop
  | sign {c : Char} (changed : plainSign c ≠ [c]) : SignBlock [c] (plainSign c)

inductive RaisedBlock : List Char → List Char → Prop
  | first {c d : Char} (raised : raised? c = some d) : RaisedBlock [c] ['*', '*', d]
  | next {c d : Char} (raised : raised? c = some d) : RaisedBlock [c] [d]

inductive RootBlock : List Char → List Char → Prop
  | root {gap : List Char} (blank : IsGap gap) :
      RootBlock ('√' :: gap ++ ['(']) ['s', 'q', 'r', 't', '(']

/-- The end of a number or a bracket, which a factor follows. -/
inductive FactorBlock : List Char → List Char → Prop
  | number {d : Char} {gap : List Char} (digit : isDigit d = true) (blank : IsGap gap) :
      FactorBlock (d :: gap) [d, '*']
  | bracket {gap : List Char} (blank : IsGap gap) : FactorBlock (')' :: gap) [')', '*']

inductive SpaceBlock : List Char → List Char → Prop
  | run {c : Char} {gap : List Char} (blank : IsGap (c :: gap)) : SpaceBlock (c :: gap) [' ']

theorem isGap_take_blanks (s : List Char) : IsGap (s.take (blanks s)) := by
  induction s with
  | nil => simp [IsGap]
  | cons c s ih =>
    rw [blanks]
    split
    next h =>
      intro a ha
      obtain rfl | ha := List.mem_cons.mp ha
      · exact h
      · exact ih a ha
    · simp [IsGap]

theorem blanks_append {c : Char} (hc : isBlank c = false) (s t : List Char) :
    blanks (s ++ c :: t) = blanks s := by
  induction s with
  | nil => simp [blanks, hc]
  | cons a s ih => rw [List.cons_append, blanks, blanks, ih]

theorem blanks_eq_length {gap : List Char} (h : IsGap gap) : blanks gap = gap.length := by
  induction gap with
  | nil => rfl
  | cons c gap ih =>
    rw [blanks, if_pos (h c List.mem_cons_self), ih fun a ha => h a (List.mem_cons_of_mem c ha)]
    rfl

theorem respells_plainSign (s : List Char) : Respells SignBlock s (s.flatMap plainSign) := by
  refine .flatMap (fun c => ?_) s
  by_cases h : plainSign c = [c]
  · exact .inl h
  · exact .inr (.sign h)

theorem respells_lowerRaised (inRun : Bool) (s : List Char) :
    Respells RaisedBlock s (lowerRaised inRun s) := by
  induction s generalizing inRun with
  | nil => exact .nil
  | cons c s ih =>
    rw [lowerRaised]
    split
    next d hd =>
      split
      · exact .replace (.next hd) (ih true)
      · exact .replace (.first hd) (ih true)
    · exact .keep c (ih false)

theorem respells_nameRoots (skip : Nat) (s : List Char) :
    Respells RootBlock (s.drop skip) (nameRoots skip s) := by
  -- What is skipped belongs to a block that has been replaced before.
  induction s generalizing skip with
  | nil => cases skip <;> exact .nil
  | cons c s ih =>
    cases skip with
    | succ skip => exact ih skip
    | zero =>
      rw [nameRoots, List.drop_zero]
      split
      next h =>
        rw [Bool.and_eq_true, beq_iff_eq, beq_iff_eq] at h
        obtain ⟨rfl, hhead⟩ := h
        obtain ⟨rest, hrest⟩ := List.head?_eq_some_iff.mp hhead
        have hdrop : s.drop (blanks s + 1) = rest := by
          rw [← List.drop_drop, hrest, List.drop_one, List.tail_cons]
        have hs : s = s.take (blanks s) ++ '(' :: rest := by
          rw [← hrest, List.take_append_drop]
        have hblock := Respells.replace (.root (isGap_take_blanks s)) (ih (blanks s + 1))
        rw [hdrop, List.cons_append, List.cons_append, List.append_assoc, List.singleton_append,
          ← hs] at hblock
        exact hblock
      next => exact .keep c (ih 0)

theorem exists_last_digit {s : List Char} (h : s.takeWhile isDigit ≠ []) :
    ∃ w d, s.takeWhile isDigit = w ++ [d] ∧ isDigit d = true := by
  refine ⟨_, _, (List.dropLast_concat_getLast h).symm, ?_⟩
  exact List.mem_takeWhile_imp (List.getLast_mem h)

theorem take_length_takeWhile (s : List Char) :
    s.take (s.takeWhile isDigit).length = s.takeWhile isDigit :=
  (List.prefix_iff_eq_take.mp (List.takeWhile_prefix isDigit)).symm

/-- A number ends with a digit. -/
theorem exists_digit_of_numberLength {s : List Char} (h : numberLength s ≠ 0) :
    ∃ w d, s.take (numberLength s) = w ++ [d] ∧ isDigit d = true := by
  have hwhole : (s.takeWhile isDigit).length ≠ 0 → ∃ w d,
      s.take (s.takeWhile isDigit).length = w ++ [d] ∧ isDigit d = true := fun hne => by
    rw [take_length_takeWhile]
    exact exists_last_digit (List.ne_nil_of_length_pos (Nat.pos_of_ne_zero hne))
  rw [numberLength] at h ⊢
  simp only at h ⊢
  split at h
  next r hdrop =>
    split at h
    next hm => rw [if_pos hm]; exact hwhole h
    next hm =>
      rw [if_neg hm]
      obtain ⟨w, d, hfrac, hdigit⟩ := exists_last_digit (s := r) (by simpa using hm)
      refine ⟨s.takeWhile isDigit ++ '.' :: w, d, ?_, hdigit⟩
      rw [Nat.add_assoc, List.take_add, take_length_takeWhile, hdrop, Nat.add_comm,
        List.take_succ_cons, take_length_takeWhile, hfrac, List.append_assoc, List.cons_append]
  next => exact hwhole h

theorem factorAfter?_eq_some {s : List Char} {n gap : Nat} (h : factorAfter? s = some (n, gap)) :
    n = numberLength s ∧ numberLength s ≠ 0 ∧ gap = blanks (s.drop n) ∧
      ∃ f rest, s.drop (n + gap) = f :: rest ∧ beginsFactor f = true ∧
        isExponent (f :: rest) = false := by
  rw [factorAfter?] at h
  simp only at h
  split at h
  · cases h
  next hne =>
    split at h
    · cases h
    next f rest hdrop =>
      split at h <;> cases h
      next hfactor =>
        rw [Bool.and_eq_true, Bool.not_eq_true'] at hfactor
        exact ⟨rfl, by simpa using hne, rfl, f, rest, hdrop, hfactor⟩

theorem respells_multiplyNumbers (skip : Nat) (inWord : Bool) (s : List Char) :
    Respells FactorBlock (s.drop skip) (multiplyNumbers skip inWord s) := by
  induction s generalizing skip inWord with
  | nil => cases skip <;> exact .nil
  | cons c s ih =>
    cases skip with
    | succ skip => exact ih skip (isWord c)
    | zero =>
      rw [multiplyNumbers, List.drop_zero]
      split
      · exact .keep c (ih 0 (isWord c))
      split
      next n gap hfactor =>
        obtain ⟨hn, hne, hgap, f, rest, hdrop, -⟩ := factorAfter?_eq_some hfactor
        -- Of the number only the last digit is in the block; what stands before it is kept, and so
        -- is the first character of the factor, which the pass writes in the same round.
        obtain ⟨w, d, htake, hdigit⟩ := exists_digit_of_numberLength hne
        have hrest : s.drop (n + gap) = rest := by
          have := congrArg (List.drop 1) hdrop
          rwa [List.drop_drop, List.drop_succ_cons] at this
        have hblanks := isGap_take_blanks ((c :: s).drop n)
        rw [← hgap] at hblanks
        have hsplit : c :: s = w ++ (d :: ((c :: s).drop n).take gap ++ f :: rest) := by
          calc c :: s = (c :: s).take n ++ (c :: s).drop n := (List.take_append_drop n _).symm
            _ = w ++ [d] ++ (((c :: s).drop n).take gap ++ ((c :: s).drop n).drop gap) := by
              rw [hn, htake, List.take_append_drop]
            _ = w ++ (d :: ((c :: s).drop n).take gap ++ f :: rest) := by
              rw [List.drop_drop, hdrop, List.append_assoc, List.singleton_append,
                List.cons_append]
        have hkept := Respells.keep f (hrest ▸ ih (n + gap) (isWord c))
        have hblock := (Respells.replace (.number hdigit hblanks) hkept).keepAll w
        rw [← hsplit] at hblock
        rw [hdrop, hn, htake]
        rw [hn] at hblock
        simpa using hblock
      next => exact .keep c (ih 0 (isWord c))

theorem respells_multiplyBrackets (skip : Nat) (s : List Char) :
    Respells FactorBlock (s.drop skip) (multiplyBrackets skip s) := by
  induction s generalizing skip with
  | nil => cases skip <;> exact .nil
  | cons c s ih =>
    cases skip with
    | succ skip => exact ih skip
    | zero =>
      rw [multiplyBrackets, List.drop_zero]
      split
      next h =>
        obtain ⟨rfl, -⟩ : c = ')' ∧ _ := by simpa using h
        have hblock := Respells.replace (.bracket (isGap_take_blanks s)) (ih (blanks s))
        rwa [List.cons_append, List.take_append_drop] at hblock
      next => exact .keep c (ih 0)

theorem IsGap.cons {c : Char} {gap : List Char} (hc : isBlank c = true) (h : IsGap gap) :
    IsGap (c :: gap) := List.forall_mem_cons.mpr ⟨hc, h⟩

/-- Inside a run of blanks the rest of the run is dropped. -/
theorem respells_singleSpaced (s : List Char) :
    Respells SpaceBlock s (singleSpaced false s) ∧
      ∃ gap rest, IsGap gap ∧ s = gap ++ rest ∧ Respells SpaceBlock rest (singleSpaced true s) := by
  induction s with
  | nil => exact ⟨.nil, [], [], List.forall_mem_nil _, rfl, .nil⟩
  | cons c s ih =>
    obtain ⟨houtside, gap, rest, hgap, rfl, hinside⟩ := ih
    rw [singleSpaced, singleSpaced]
    split
    next hblank =>
      exact ⟨.replace (.run (hgap.cons hblank)) hinside, c :: gap, rest, hgap.cons hblank, rfl,
        hinside⟩
    next =>
      exact ⟨.keep c houtside, [], c :: (gap ++ rest), List.forall_mem_nil _, rfl,
        .keep c houtside⟩

/-- The passes behind those over signs and superscripts. -/
def spellOut (s : List Char) : List Char :=
  trim (singleSpaced false (multiplyBrackets 0 (multiplyNumbers 0 false (nameRoots 0 s))))

theorem inPlainSigns_eq_spellOut (s : List Char) :
    inPlainSigns s = spellOut (lowerRaised false (s.flatMap plainSign)) := rfl

/-- Characters that the passes over roots, products and blanks neither write nor take away. -/
structure IsKept (p : Char → Bool) : Prop where
  blank : ∀ c, isBlank c = true → p c = false
  digit : ∀ c, isDigit c = true → p c = false
  written : ∀ c ∈ ['√', 's', 'q', 'r', 't', '*'], p c = false

namespace IsKept

variable {p : Char → Bool} {u v gap : List Char}

theorem of_forall {l : List Char} (hl : ∀ c ∈ l, isBlank c = false ∧ isDigit c = false)
    (hp : ∀ c, p c = true → c ∈ l)
    (hwritten : ∀ c ∈ ['√', 's', 'q', 'r', 't', '*'], p c = false) : IsKept p := by
  refine ⟨fun c hc => ?_, fun c hc => ?_, hwritten⟩
  all_goals
    by_contra h
    have := hl c (hp c (by simpa using h))
    simp [hc] at this

theorem filter_gap (hp : IsKept p) (h : IsGap gap) : gap.filter p = [] :=
  List.filter_eq_nil_iff.mpr fun c hc => by simp [hp.blank c (h c hc)]

theorem filter_root (hp : IsKept p) (h : RootBlock u v) : u.filter p = v.filter p := by
  obtain ⟨blank⟩ := h
  have hwritten := hp.written
  simp only [List.forall_mem_cons, List.not_mem_nil, false_imp_iff, implies_true, and_true]
    at hwritten
  simp [List.filter_cons, hp.filter_gap blank, hwritten]

theorem filter_factor (hp : IsKept p) (h : FactorBlock u v) : u.filter p = v.filter p := by
  have hstar := hp.written '*' (by simp)
  cases h with
  | number digit blank =>
    simp [hp.filter_gap blank, hp.digit _ digit, hstar]
  | bracket blank => simp [List.filter_cons, hp.filter_gap blank, hstar]

theorem filter_space (hp : IsKept p) (h : SpaceBlock u v) : u.filter p = v.filter p := by
  obtain ⟨blank⟩ := h
  rw [hp.filter_gap blank, show [' '].filter p = [] from hp.filter_gap (by simp [IsGap, isBlank])]

theorem filter_spellOut (hp : IsKept p) (s : List Char) :
    (spellOut s).filter p = s.filter p := by
  rw [spellOut, filter_trim hp.blank,
    ← (respells_singleSpaced _).1.filter_eq fun _ _ => hp.filter_space]
  have hbrackets := fun s => (respells_multiplyBrackets 0 s).filter_eq fun _ _ => hp.filter_factor
  have hnumbers :=
    fun s => (respells_multiplyNumbers 0 false s).filter_eq fun _ _ => hp.filter_factor
  have hroots := (respells_nameRoots 0 s).filter_eq fun _ _ => hp.filter_root
  simp only [List.drop_zero] at hbrackets hnumbers hroots
  rw [← hbrackets, ← hnumbers, ← hroots]

end IsKept

end Simultaneous.Formula
