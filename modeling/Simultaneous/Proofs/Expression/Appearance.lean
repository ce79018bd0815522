import Simultaneous.Proofs.Expression.Unknowns
import Simultaneous.Proofs.Expression.Words
import Simultaneous.Proofs.Formula.Lexemes

/-!
The order of the variables of a parsed text. The words of the text decide it, whatever they are
parts of; where no other word is spelled like a variable, the variables follow each other as their
names first occur among the tokens.
-/

namespace Simultaneous.Expression

open Text Formula Formula.Token Distinct

/-- The text goes on with an opening bracket. -/
def opensCall (s : List Char) : Bool := (s.dropWhile (· == ' ')).head? == some '('

/-- The names among the tokens that are not called. -/
def occurrences (ls : List (Token × List Char)) : List String :=
  ls.filterMap fun
    | (.name v, rest) => if opensCall rest then none else some v
    | _ => none

/-- A token that cannot be taken for one of the names where it is none of their occurrences: no word
of a number is spelled like one of them, nor does a number with a word in it go on in another word;
none of them is called; and nothing is quoted. -/
def IsClear (names : List String) : Token × List Char → Prop
  | (.number w, rest) => (∀ v ∈ words w.toList, v ∉ names) ∧
    (words w.toList = [] ∨ rest.head?.any isWord = false)
  | (.name v, rest) => opensCall rest = true → v ∉ names
  | (.text _, _) | (.bytes, _) => False
  | _ => True

instance (names : List String) : DecidablePred (IsClear names)
  | (.number _, _) => inferInstanceAs (Decidable (_ ∧ (_ ∨ _)))
  | (.name _, _) => inferInstanceAs (Decidable (_ → _))
  | (.text _, _) | (.bytes, _) => isFalse id
  | (.sign _, _) | (.stray _, _) | (.comment, _) => isTrue trivial

def Legible (names : List String) (ls : List (Token × List Char)) : Prop :=
  ∀ l ∈ ls, IsClear names l

instance (names : List String) (ls : List (Token × List Char)) : Decidable (Legible names ls) :=
  inferInstanceAs (Decidable (∀ l ∈ ls, IsClear names l))

variable {names : List String} {s : List Char}

theorem begins_of_mem_sign {w : String} (hw : w ∈ signs) :
    ∀ c ∈ w.toList, beginsIdentifier c = false := by
  have h : (signs.all fun w => w.toList.all fun c => !beginsIdentifier c) = true := by
    decide
  simpa using List.all_eq_true.mp h w hw

theorem length_pos_of_mem_signs {w : String} (hw : w ∈ signs) : 0 < w.length := by
  have h : ∀ w ∈ signs, 0 < w.length := by decide
  exact h w hw

theorem occurrences_cons (l : Token × List Char) (ls : List (Token × List Char)) :
    occurrences (l :: ls) = occurrences [l] ++ occurrences ls := by
  rw [← List.singleton_append, occurrences, List.filterMap_append]
  rfl

/-- A text where every letter, digit and underscore is an ASCII one. -/
def IsAsciiWords (s : List Char) : Prop := ∀ c ∈ s, isWord c = true → c.toNat < 128

instance (s : List Char) : Decidable (IsAsciiWords s) :=
  List.decidableBAll (fun c => isWord c = true → c.toNat < 128) s

theorem filter_words_name {v : String} {rest : List Char}
    (hcall : opensCall rest = true → v ∉ names) (ws : List String) :
    (v :: ws).filter names.contains =
      (occurrences [(.name v, rest)]).filter names.contains ++ ws.filter names.contains := by
  cases hopens : opensCall rest with
  | true => simp [occurrences, hopens, hcall hopens]
  | false => simp [occurrences, hopens, List.filter_cons]; split <;> simp

theorem head?_drop_takeWhile {p : Char → Bool} :
    ∀ c ∈ (s.drop (s.takeWhile p).length).head?, p c = false := by
  have hdrop : s.drop (s.takeWhile p).length = s.dropWhile p := by
    have h : (s.takeWhile p ++ s.dropWhile p).drop (s.takeWhile p).length = s.dropWhile p :=
      List.drop_left
    rwa [List.takeWhile_append_dropWhile] at h
  intro c hc
  have h := List.head?_dropWhile_not p s
  rw [← hdrop, hc] at h
  exact h

/-- The words of a number are read apart from those of the text behind it. -/
theorem words_number {n : Nat}
    (h : words (s.take n) = [] ∨ (s.drop n).head?.any isWord = false) :
    words s = words (s.take n) ++ words (s.drop n) := by
  conv_lhs => rw [← List.take_append_drop n s]
  obtain hnil | hend := h
  · rw [words_append_of_nil hnil, hnil, List.nil_append]
  · refine words_append (fun c hc => continues_eq_false ?_) _
    simpa [Option.mem_def.mp hc] using hend

/-- A name in ASCII is the first word of its text. -/
theorem words_word {w : List Char} {c : Char} (hascii : IsAsciiWords s)
    (hword : s.takeWhile isWord = c :: w) (hbegins : beginsName c = true) :
    words s = String.ofList (c :: w) :: words (s.drop (c :: w).length) := by
  have hsplit : s = (c :: w) ++ s.drop (c :: w).length := by
    rw [← hword]
    exact (List.prefix_iff_eq_append.mp (List.takeWhile_prefix _)).symm
  have hwords : ∀ d ∈ c :: w, isWord d = true ∧ d.toNat < 128 := by
    intro d hd
    rw [← hword] at hd
    have hd' := List.mem_takeWhile_imp hd
    exact ⟨hd', hascii d (List.takeWhile_subset _ hd) hd'⟩
  have hboundary : AtBoundary (s.drop (c :: w).length) := fun d hd => by
    rw [← hword] at hd
    exact continues_eq_false (head?_drop_takeWhile d hd)
  conv_lhs => rw [hsplit]
  rw [words_append hboundary, words_name, List.singleton_append]
  · rwa [← beginsName_eq (hwords c List.mem_cons_self).2]
  · intro d hd
    obtain ⟨hd, hlt⟩ := hwords d (List.mem_cons_of_mem c hd)
    rwa [← isWord_eq hlt]

/-- In ASCII a word character that begins no name is a digit. -/
theorem isAsciiDigit_of_isWord {c : Char} (hlt : c.toNat < 128) (hword : isWord c = true)
    (hbegins : beginsName c = false) : isAsciiDigit c = true := by
  rw [beginsName_eq hlt] at hbegins
  simpa [isWord_eq hlt, continuesIdentifier, hbegins] using hword

/-- What a token that is no comment adds to the words of a text. -/
theorem filter_words_of_begins {r : List Char} {t : Token} (hs : s ≠ []) (h : Begins s t r)
    (hascii : IsAsciiWords s) (hcomment : t ≠ .comment) (hclear : IsClear names (t, r)) :
    (words s).filter names.contains =
        (occurrences [(t, r)]).filter names.contains ++ (words r).filter names.contains ∧
      r.length < s.length := by
  have hdrop : ∀ {n}, 0 < n → (s.drop n).length < s.length := by
    intro n hn
    have := List.length_pos_of_ne_nil hs
    rw [List.length_drop]
    omega
  cases h with
  | comment => exact absurd rfl hcomment
  | stray hcons hword =>
    subst hcons
    rw [words_cons_of_not (begins_eq_false (continues_eq_false hword))]
    exact ⟨rfl, Nat.lt_succ_self _⟩
  | spells hspells =>
    cases hspells with
    | text | bytes => exact hclear.elim
    | number hpos =>
      obtain ⟨hnone, hend⟩ := hclear
      rw [String.toList_ofList] at hnone hend
      refine ⟨?_, hdrop hpos⟩
      rw [words_number hend, List.filter_append,
        List.filter_eq_nil_iff.mpr (by simpa using hnone)]
      rfl
    | @sign w hw hprefix =>
      refine ⟨?_, hdrop (length_pos_of_mem_signs hw)⟩
      conv_lhs => rw [← List.prefix_iff_eq_append.mp hprefix,
        words_append_of_not (begins_of_mem_sign hw)]
      rfl
    | name hword hbegins =>
      refine ⟨?_, hdrop (Nat.succ_pos _)⟩
      rw [words_word hascii hword hbegins]
      exact filter_words_name hclear _
    | @stray w c hword hbegins hdigit =>
      have hc : c ∈ s.takeWhile isWord := hword ▸ List.mem_cons_self
      have hword := List.mem_takeWhile_imp hc
      have hlt := hascii c (List.takeWhile_subset _ hc) hword
      rw [isAsciiDigit_of_isWord hlt hword hbegins] at hdigit
      cases hdigit

/-- By induction on the tokens: the words that are spelled like the names are the occurrences of
these names, and what a comment adds behind them. -/
theorem filter_words {fuel : Nat} (hfuel : s.length < fuel) (hascii : IsAsciiWords s)
    (h : Legible names (lexemesWithin fuel s)) :
    ∃ rest, (words s).filter names.contains =
      (occurrences (lexemesWithin fuel s)).filter names.contains ++ rest := by
  induction fuel generalizing s with
  | zero => exact absurd hfuel (Nat.not_lt_zero _)
  | succ fuel ih =>
    rw [lexemesWithin] at h ⊢
    cases hstep : step? s with
    | none => exact ⟨_, rfl⟩
    | some p =>
      obtain ⟨t, r⟩ := p
      rw [hstep] at h
      obtain ⟨gap, u, rfl, hu, hgap, hbegins⟩ := exists_of_step? hstep
      rw [words_append_of_not fun c hc => by rw [hgap c hc]; decide]
      by_cases hcomment : t = .comment
      · subst hcomment
        obtain rfl : r = [] := hbegins.eq_nil_of_comment
        have hnil : lexemesWithin fuel [] = [] := by cases fuel <;> rfl
        simp only [hnil]
        exact ⟨_, rfl⟩
      · obtain ⟨hwords, hlength⟩ := filter_words_of_begins hu hbegins
          (fun c hc => hascii c (List.mem_append_right _ hc)) hcomment
            (h (t, r) List.mem_cons_self)
        have hr : IsAsciiWords r :=
          fun c hc => hascii c (List.mem_append_right _ (hbegins.subset hc))
        rw [List.length_append] at hfuel
        obtain ⟨rest, hrest⟩ :=
          ih (s := r) (by omega) hr fun l hl => h l (List.mem_cons_of_mem _ hl)
        refine ⟨rest, ?_⟩
        simp only
        rw [hwords, hrest, occurrences_cons _ (lexemesWithin fuel r), List.filter_append,
          List.append_assoc]

/-- The variables of a parsed text are the symbols of its tree, each once. They follow each other as
the words that are spelled like them first stand in the text; those that are no words of it come
last, in alphabetical order. Where the text is legible, this is the order in which their names first
occur among the tokens. -/
theorem parse_unknowns {limits : Settings} {text : List Char} {e : Expression}
    (h : parse limits text = .ok e) :
    ∃ s, plain limits text = .ok s ∧ e.unknowns.Nodup ∧
      (∀ v, v ∈ e.unknowns ↔ v ∈ e.tree.symbols) ∧
      (e.unknowns.Pairwise fun u v => (words s).idxOf u < (words s).idxOf v ∨
        u ∉ words s ∧ v ∉ words s ∧ u < v) ∧
      (IsAsciiWords s → Legible e.unknowns (lexemes s) →
        e.unknowns.Pairwise fun u v => v ∈ occurrences (lexemes s) →
          (occurrences (lexemes s)).idxOf u < (occurrences (lexemes s)).idxOf v) := by
  obtain ⟨s, t, hs, -, rfl⟩ := parse_eq_ok h
  have hpairwise : (describe text s t).unknowns.Pairwise fun u v =>
      (words s).idxOf u < (words s).idxOf v ∨ u ∉ words s ∧ v ∉ words s ∧ u < v :=
    orderVariables_pairwise _ (symbolNames_pairwise t)
  refine ⟨s, hs, nodup_orderVariables (nodup_symbolNames t),
    fun v => mem_orderVariables.trans mem_symbolNames, hpairwise, fun hascii hlegible => ?_⟩
  obtain ⟨rest, hfilter⟩ : ∃ rest, (words s).filter (describe text s t).unknowns.contains =
      (occurrences (lexemes s)).filter (describe text s t).unknowns.contains ++ rest :=
    filter_words (by omega) hascii hlegible
  have hcontains : ∀ w ∈ (describe text s t).unknowns,
      (describe text s t).unknowns.contains w = true := fun w hw => List.contains_iff_mem.mpr hw
  refine hpairwise.imp_of_mem fun {u v} hu hv huv hoccurs => ?_
  have hkept := List.mem_filter.mpr ⟨hoccurs, hcontains v hv⟩
  have hword : v ∈ words s :=
    List.mem_of_mem_filter (hfilter ▸ List.mem_append_left rest hkept)
  have hlt := huv.resolve_right fun h => h.2.1 hword
  rw [← idxOf_filter_lt_iff (hcontains u hu) (hcontains v hv), hfilter,
    List.idxOf_append_of_mem hkept] at hlt
  have hkeptu : u ∈ (occurrences (lexemes s)).filter (describe text s t).unknowns.contains := by
    by_contra hnot
    rw [List.idxOf_append_of_notMem hnot] at hlt
    have := List.idxOf_lt_length_of_mem hkept
    omega
  rw [List.idxOf_append_of_mem hkeptu] at hlt
  exact (idxOf_filter_lt_iff (hcontains u hu) (hcontains v hv) _).mp hlt

theorem parse_unknowns_exponent : ∃ e, parse {} "1e5*y + x".toList = .ok e ∧
    e.unknowns = ["y", "x"] ∧
    e.unknowns.Pairwise fun u v => v ∈ ["y", "x"] → ["y", "x"].idxOf u < ["y", "x"].idxOf v := by
  have hpasses : Attempt.passes (fun e => e.unknowns == ["y", "x"])
      (parse {} "1e5*y + x".toList) = true := by decide +kernel
  obtain ⟨e, hparse, hunknowns⟩ := Attempt.exists_of_passes hpasses
  have hunknowns : e.unknowns = ["y", "x"] := beq_iff_eq.mp hunknowns
  obtain ⟨s, hs, -, -, -, horder⟩ := parse_unknowns hparse
  have hplain : plain {} "1e5*y + x".toList = .ok "1e5*y + x".toList := by decide +kernel
  obtain rfl : "1e5*y + x".toList = s := Except.ok.inj (hplain.symm.trans hs)
  have hlexemes : lexemes "1e5*y + x".toList = [(.number "1e5", "*y + x".toList),
      (.sign "*", "y + x".toList), (.name "y", " + x".toList), (.sign "+", " x".toList),
      (.name "x", [])] := by decide +kernel
  have hnames : occurrences (lexemes "1e5*y + x".toList) = ["y", "x"] := by
    rw [hlexemes]
    decide +kernel
  refine ⟨e, hparse, hunknowns, ?_⟩
  rw [← hnames]
  refine horder (by decide +kernel) ?_
  rw [hunknowns, hlexemes]
  decide +kernel

/-- The exponent of a number counts as the first place of the variable e5. -/
theorem exists_not_by_appearance :
    Attempt.passes (fun e => e.unknowns == ["e5", "x"]) (parse {} "1e5*x + e5".toList) = true ∧
      (plain {} "1e5*x + e5".toList).toOption.map (fun s => occurrences (lexemes s)) =
        some ["x", "e5"] :=
  ⟨by decide +kernel, by decide +kernel⟩

end Simultaneous.Expression
