import Simultaneous.Proofs.Formula.Passes
import Simultaneous.Proofs.Text.Classes
import Simultaneous.Proofs.Text.Rewriting

/-!
The passes as rules: which block each of them replaces, by what, and in front of what.
-/

namespace Simultaneous.Formula

open Text

/-- Digits, perhaps with a point and more digits. -/
inductive IsNumber : List Char → Prop
  | whole {n : List Char} (nonempty : n ≠ []) (digits : ∀ c ∈ n, isDigit c = true) : IsNumber n
  | decimal {n m : List Char} (nonempty : n ≠ []) (digits : ∀ c ∈ n, isDigit c = true)
      (nonempty' : m ≠ []) (digits' : ∀ c ∈ m, isDigit c = true) : IsNumber (n ++ '.' :: m)

/-- The text begins with the exponent of a number: e or E, perhaps a sign, and a digit. -/
def IsExponent (s : List Char) : Prop :=
  ∃ e sign d r, s = e :: (sign ++ d :: r) ∧ e ∈ ['e', 'E'] ∧ sign ∈ [[], ['+'], ['-']] ∧
    isDigit d = true

/-- A sign with a plain form. -/
inductive SignRule : Rule
  | sign {before : Bool} {c : Char} {r : List Char} (changed : plainSign c ≠ [c]) :
      SignRule before [c] (plainSign c) r

/-- Superscripts up to the next other character. -/
inductive RaisedRule : Rule
  | run {before : Bool} {run r : List Char} (nonempty : run ≠ [])
      (raised : ∀ c ∈ run, (raised? c).isSome) (ends : ∀ a ∈ r.head?, raised? a = none) :
      RaisedRule before run ('*' :: '*' :: run.filterMap raised?) r

/-- A root sign and a bracket. -/
inductive RootRule : Rule
  | root {before : Bool} {gap r : List Char} (blank : IsGap gap) :
      RootRule before ('√' :: (gap ++ ['('])) ['s', 'q', 'r', 't', '('] r

/-- A number that is no part of a word, and a factor that does not begin an exponent. -/
inductive NumberRule : Rule
  | product {n gap r : List Char} {f : Char} (number : IsNumber n) (blank : IsGap gap)
      (factor : beginsFactor f = true) (notExponent : ¬ IsExponent (f :: r)) :
      NumberRule false (n ++ (gap ++ [f])) (n ++ ['*', f]) r

/-- A closing bracket in front of a factor. -/
inductive BracketRule : Rule
  | product {before : Bool} {gap r : List Char} {f : Char} (blank : IsGap gap)
      (factor : followsBracket f = true) : BracketRule before (')' :: gap) [')', '*'] (f :: r)

/-- Blanks up to the next other character. -/
inductive SpaceRule : Rule
  | run {before : Bool} {c : Char} {gap r : List Char} (blank : IsGap (c :: gap))
      (ends : ∀ a ∈ r.head?, isBlank a = false) : SpaceRule before (c :: gap) [' '] r

section

variable {s t gap n r : List Char} {c f : Char}

theorem toNat_lt_of_beginsFactor (h : beginsFactor c = true) : c.toNat < 128 := by
  have hchar : (('a' ≤ c ∧ c ≤ 'z' ∨ 'A' ≤ c ∧ c ≤ 'Z') ∨ c = '_') ∨ c = '(' := by
    simpa [beginsFactor, isAsciiLetter] using h
  obtain ((⟨-, h⟩ | ⟨-, h⟩) | rfl) | rfl := hchar
  · exact Nat.lt_of_le_of_lt (show c.toNat ≤ 122 from h) (by decide)
  · exact Nat.lt_of_le_of_lt (show c.toNat ≤ 90 from h) (by decide)
  · decide
  · decide

theorem isDigit_of_beginsFactor (h : beginsFactor c = true) : isDigit c = false :=
  forall_of_ascii (P := fun c => beginsFactor c = true → isDigit c = false) (by decide)
    (toNat_lt_of_beginsFactor h) h

theorem isBlank_of_followsBracket (h : followsBracket c = true) : isBlank c = false := by
  rw [followsBracket, Bool.or_eq_true] at h
  obtain h | h := h
  · exact forall_of_ascii (P := fun c => beginsFactor c = true → isBlank c = false)
      (by decide) (toNat_lt_of_beginsFactor h) h
  · exact isBlank_of_isDigit h

theorem isBlank_of_beginsFactor (h : beginsFactor c = true) : isBlank c = false :=
  isBlank_of_followsBracket (by rw [followsBracket, h, Bool.true_or])

theorem blanks_gap (h : IsGap gap) (hc : isBlank c = false) (t : List Char) :
    blanks (gap ++ c :: t) = gap.length := by
  rw [blanks_append hc, blanks_eq_length h]

theorem head_drop_blanks (s : List Char) : ∀ a ∈ (s.drop (blanks s)).head?, isBlank a = false := by
  induction s with
  | nil => nofun
  | cons c s ih =>
    rw [blanks]
    split
    · exact ih
    next hc => simpa using hc

theorem isExponent_iff : isExponent s = true ↔ IsExponent s := by
  constructor
  · intro h
    rw [isExponent.eq_def] at h
    split at h
    next e s =>
      rw [Bool.and_eq_true] at h
      obtain ⟨he, h⟩ := h
      have he : e ∈ ['e', 'E'] := by simpa using he
      split at h
      next c d r =>
        have h : isDigit c = true ∨ (c = '+' ∨ c = '-') ∧ isDigit d = true := by simpa using h
        obtain hc | ⟨hsign, hd⟩ := h
        · exact ⟨e, [], c, d :: r, rfl, he, by simp, hc⟩
        · exact ⟨e, [c], d, r, rfl, he, by simpa using hsign, hd⟩
      next c => exact ⟨e, [], c, [], rfl, he, by simp, h⟩
      next => cases h
    next => cases h
  · rintro ⟨e, sign, d, r, rfl, he, hsign, hd⟩
    have he : (e == 'e' || e == 'E') = true := by simpa using he
    simp only [List.mem_cons, List.not_mem_nil, or_false] at hsign
    obtain rfl | rfl | rfl := hsign
    · cases r <;> simp [isExponent, he, hd]
    all_goals simp [isExponent, he, hd]

theorem takeWhile_isDigit_append (hn : ∀ c ∈ n, isDigit c = true) (hc : isDigit c = false)
    (t : List Char) : (n ++ c :: t).takeWhile isDigit = n := by
  rw [List.takeWhile_append_of_pos hn, List.takeWhile_cons_of_neg (by simp [hc]), List.append_nil]

/-- A number ends where neither a digit nor a point follows. -/
theorem numberLength_append (hn : IsNumber n) (hdigit : isDigit c = false) (hpoint : c ≠ '.')
    (t : List Char) : numberLength (n ++ c :: t) = n.length := by
  cases hn with
  | whole nonempty digits =>
    rw [numberLength]
    simp only [takeWhile_isDigit_append digits hdigit, List.drop_left]
    split
    next heq => exact absurd (List.cons_eq_cons.mp heq).1 hpoint
    next => rfl
  | @decimal n m nonempty digits nonempty' digits' =>
    rw [List.append_assoc, List.cons_append, numberLength]
    simp only [takeWhile_isDigit_append digits (by decide : isDigit '.' = false), List.drop_left,
      takeWhile_isDigit_append digits' hdigit]
    rw [if_neg (by simpa using nonempty'), List.length_append, List.length_cons]
    omega

theorem IsNumber.exists_cons (h : IsNumber n) : ∃ d m, n = d :: m ∧ isDigit d = true := by
  cases h with
  | whole nonempty digits =>
    obtain ⟨d, m, rfl⟩ := List.exists_cons_of_ne_nil nonempty
    exact ⟨d, m, rfl, digits d List.mem_cons_self⟩
  | decimal nonempty digits =>
    obtain ⟨d, m, rfl⟩ := List.exists_cons_of_ne_nil nonempty
    exact ⟨d, _, rfl, digits d List.mem_cons_self⟩

theorem isNumber_take (h : isDigit c = true) (s : List Char) :
    IsNumber ((c :: s).take (numberLength (c :: s))) := by
  have hdigits : ∀ t : List Char, ∀ a ∈ t.takeWhile isDigit, isDigit a = true :=
    fun t a ha => List.mem_takeWhile_imp ha
  have hne : (c :: s).takeWhile isDigit ≠ [] := by simp [h]
  have hwhole := IsNumber.whole hne (hdigits _)
  rw [← take_length_takeWhile] at hwhole
  rw [numberLength]
  simp only
  split
  next r hdrop =>
    split
    next => exact hwhole
    next hm =>
      rw [Nat.add_assoc, List.take_add, take_length_takeWhile, hdrop, Nat.add_comm,
        List.take_succ_cons, take_length_takeWhile]
      exact .decimal hne (hdigits _) (by simpa using hm) (hdigits r)
  next => exact hwhole

/-- Where the rule applies the pass finds the block of the rule. -/
theorem factorAfter?_number (hn : IsNumber n) (hgap : IsGap gap) (hf : beginsFactor f = true)
    (hpower : ¬ IsExponent (f :: r)) :
    factorAfter? (n ++ (gap ++ f :: r)) = some (n.length, gap.length) := by
  have hlength : numberLength (n ++ (gap ++ f :: r)) = n.length := by
    cases gap with
    | nil =>
      exact numberLength_append hn (isDigit_of_beginsFactor hf) (fun hc => by subst hc; cases hf) r
    | cons b gap =>
      have hb := hgap b List.mem_cons_self
      exact numberLength_append hn (isDigit_of_isBlank hb) (fun hc => by subst hc; cases hb) _
  obtain ⟨d, m, rfl, -⟩ := hn.exists_cons
  have hpower : isExponent (f :: r) = false :=
    Bool.eq_false_iff.mpr fun h => hpower (isExponent_iff.mp h)
  rw [factorAfter?]
  simp only [hlength, List.drop_left, blanks_gap hgap (isBlank_of_beginsFactor hf)]
  rw [← List.drop_drop, List.drop_left, List.drop_left]
  simp [hf, hpower]

/-- The block that the pass finds, with its factor. -/
theorem exists_of_factorAfter? {k g : Nat} (h : factorAfter? s = some (k, g)) :
    ∃ n gap f r, s = n ++ (gap ++ f :: r) ∧ n = s.take (numberLength s) ∧ n.length = k ∧
      gap.length = g ∧ IsGap gap ∧ beginsFactor f = true ∧ ¬ IsExponent (f :: r) := by
  obtain ⟨rfl, -, hg, f, r, hdrop, hf, hpower⟩ := factorAfter?_eq_some h
  have hlength : numberLength s + g < s.length := by
    by_contra hle
    rw [List.drop_of_length_le (Nat.not_lt.mp hle)] at hdrop
    cases hdrop
  rw [← List.drop_drop] at hdrop
  refine ⟨_, (s.drop (numberLength s)).take g, f, r, ?_, rfl, ?_, ?_, ?_, hf, fun hexp => ?_⟩
  · rw [← hdrop, List.take_append_drop, List.take_append_drop]
  · rw [List.length_take, Nat.min_eq_left (by omega)]
  · rw [List.length_take, List.length_drop, Nat.min_eq_left (by omega)]
  · exact hg ▸ isGap_take_blanks _
  · rw [isExponent_iff.mpr hexp] at hpower
    cases hpower

/-- What the pass finds at a digit is a block of the rule. -/
theorem applies_of_factorAfter? {p : Nat × Nat} (hc : isDigit c = true)
    (h : factorAfter? (c :: s) = some p) : Applies NumberRule false (c :: s) := by
  obtain ⟨n, gap, f, r, hs, hn, -, -, hgap, hf, hpower⟩ := exists_of_factorAfter? h
  refine ⟨_, _, r, ?_, .product (hn ▸ isNumber_take hc s) hgap hf hpower⟩
  rw [hs, List.append_assoc, List.append_assoc, List.singleton_append]

theorem multiplyNumbers_skip (k : Nat) (inWord : Bool) (s : List Char) :
    multiplyNumbers k inWord s = multiplyNumbers 0 (endsInWord inWord (s.take k)) (s.drop k) := by
  induction s generalizing k inWord with
  | nil => cases k <;> rfl
  | cons c s ih =>
    cases k with
    | zero => rfl
    | succ k => exact ih k (isWord c)

theorem multiplyNumbers_factor
    (h : factorAfter? (n ++ (gap ++ f :: r)) = some (n.length, gap.length)) :
    multiplyNumbers 0 false (n ++ (gap ++ f :: r)) =
      n ++ '*' :: f :: multiplyNumbers 0 (isWord f) r := by
  obtain ⟨hlength, hne, -⟩ := factorAfter?_eq_some h
  obtain ⟨c, m, rfl⟩ : ∃ c m, n = c :: m := List.exists_cons_of_length_pos (by omega)
  have hblock : m ++ (gap ++ f :: r) = (m ++ (gap ++ [f])) ++ r := by simp
  have hskip : (c :: m).length + gap.length = (m ++ (gap ++ [f])).length := by
    simp only [List.length_append, List.length_cons, List.length_nil]
    omega
  have hrest : (c :: m ++ (gap ++ f :: r)).drop ((c :: m).length + gap.length) = f :: r := by
    rw [← List.drop_drop, List.drop_left, List.drop_left]
  have htake : (c :: m ++ (gap ++ f :: r)).take (c :: m).length = c :: m := List.take_left
  rw [List.cons_append] at h hrest htake ⊢
  rw [multiplyNumbers, if_neg Bool.false_ne_true, h]
  simp only
  rw [htake, hrest, multiplyNumbers_skip, hskip, hblock, List.take_left, List.drop_left]
  simp

/-- Without a digit in front the pass finds a number at a point only. -/
theorem eq_point_of_numberLength (hc : isDigit c = false) (h : numberLength (c :: s) ≠ 0) :
    c = '.' ∧ s.takeWhile isDigit ≠ [] ∧
      (c :: s).take (numberLength (c :: s)) = c :: s.takeWhile isDigit := by
  have hnone : (c :: s).takeWhile isDigit = [] := List.takeWhile_cons_of_neg (by simp [hc])
  rw [numberLength, hnone] at h ⊢
  dsimp only [List.length_nil, List.drop_zero] at h ⊢
  split at h
  next r hs =>
    obtain ⟨rfl, rfl⟩ := List.cons_eq_cons.mp hs
    split at h
    · exact absurd rfl h
    next hm =>
      rw [if_neg hm, Nat.zero_add, Nat.add_comm, List.take_succ_cons, take_length_takeWhile]
      exact ⟨rfl, by simpa using hm, rfl⟩
  next => exact absurd rfl h

/-- What does not begin with a digit is kept, also a point that the pass takes for the beginning of
a number. -/
theorem multiplyNumbers_keep (hc : isDigit c = false) (s : List Char) :
    multiplyNumbers 0 false (c :: s) = c :: multiplyNumbers 0 (isWord c) s := by
  cases hfactor : factorAfter? (c :: s) with
  | none => rw [multiplyNumbers, if_neg Bool.false_ne_true, hfactor]
  | some p =>
    obtain ⟨n, gap, f, r, hs, hn, hk, hg, hgap, hf, hpower⟩ := exists_of_factorAfter? hfactor
    obtain ⟨-, hne, -⟩ := factorAfter?_eq_some hfactor
    obtain ⟨rfl, hdigits, htake⟩ := eq_point_of_numberLength hc hne
    have hm : ∀ a ∈ s.takeWhile isDigit, isDigit a = true := fun a ha => List.mem_takeWhile_imp ha
    rw [htake] at hn
    generalize s.takeWhile isDigit = m at hn hdigits hm
    subst hn
    obtain rfl : s = m ++ (gap ++ f :: r) := (List.cons_eq_cons.mp hs).2
    -- the digits behind the point are the number of the rule
    have hpoint : multiplyNumbers 0 false ('.' :: m ++ (gap ++ f :: r)) = _ :=
      multiplyNumbers_factor (hk ▸ hg ▸ hfactor)
    have hwhole := multiplyNumbers_factor (factorAfter?_number (.whole hdigits hm) hgap hf hpower)
    exact hpoint.trans (congrArg ('.' :: ·) hwhole.symm)

theorem nameRoots_skip (k : Nat) (s : List Char) : nameRoots k s = nameRoots 0 (s.drop k) := by
  induction s generalizing k with
  | nil => cases k <;> rfl
  | cons c s ih =>
    cases k with
    | zero => rfl
    | succ k => exact ih k

theorem multiplyBrackets_skip (k : Nat) (s : List Char) :
    multiplyBrackets k s = multiplyBrackets 0 (s.drop k) := by
  induction s generalizing k with
  | nil => cases k <;> rfl
  | cons c s ih =>
    cases k with
    | zero => rfl
    | succ k => exact ih k

/-- Inside a run the superscripts are written without a sign. -/
theorem lowerRaised_run (hs : ∀ c ∈ s, (raised? c).isSome) (ht : ∀ a ∈ t.head?, raised? a = none) :
    lowerRaised true (s ++ t) = s.filterMap raised? ++ lowerRaised false t := by
  induction s with
  | nil =>
    cases t with
    | nil => rfl
    | cons a t => simp [lowerRaised, ht a rfl]
  | cons c s ih =>
    obtain ⟨hc, hs⟩ := List.forall_mem_cons.mp hs
    obtain ⟨d, hd⟩ := Option.isSome_iff_exists.mp hc
    simp [lowerRaised, hd, ih hs]

theorem exists_run (s : List Char) :
    ∃ run r, s = run ++ r ∧ (∀ c ∈ run, (raised? c).isSome) ∧ ∀ a ∈ r.head?, raised? a = none := by
  induction s with
  | nil => exact ⟨[], [], rfl, nofun, nofun⟩
  | cons c s ih =>
    cases hc : raised? c with
    | none => exact ⟨[], c :: s, rfl, nofun, fun a ha => by cases ha; exact hc⟩
    | some d =>
      obtain ⟨run, r, rfl, hrun, hr⟩ := ih
      exact ⟨c :: run, r, rfl, List.forall_mem_cons.mpr ⟨by simp [hc], hrun⟩, hr⟩

theorem applies_raisedRule {before : Bool} (hc : (raised? c).isSome) :
    Applies RaisedRule before (c :: s) := by
  obtain ⟨run, r, rfl, hrun, hr⟩ := exists_run s
  exact ⟨c :: run, _, r, rfl,
    .run (List.cons_ne_nil c run) (List.forall_mem_cons.mpr ⟨hc, hrun⟩) hr⟩

end

theorem consumes_signRule : Consumes SignRule := by
  rintro _ _ _ _ ⟨-⟩
  exact List.cons_ne_nil _ _

theorem consumes_raisedRule : Consumes RaisedRule := by
  rintro _ _ _ _ ⟨nonempty, -, -⟩
  exact nonempty

theorem consumes_rootRule : Consumes RootRule := by
  rintro _ _ _ _ ⟨-⟩
  exact List.cons_ne_nil _ _

theorem consumes_numberRule : Consumes NumberRule := by
  rintro _ _ _ _ ⟨-, -, -, -⟩
  simp

theorem consumes_bracketRule : Consumes BracketRule := by
  rintro _ _ _ _ ⟨-, -⟩
  exact List.cons_ne_nil _ _

theorem consumes_spaceRule : Consumes SpaceRule := by
  rintro _ _ _ _ ⟨-, -⟩
  exact List.cons_ne_nil _ _

section

variable {before : Bool} {s o : List Char}

theorem flatMap_plainSign_of_rewrites (h : Rewrites SignRule before s o) :
    s.flatMap plainSign = o := by
  induction h with
  | nil => rfl
  | replace hrule _ ih =>
    obtain ⟨-⟩ := hrule
    exact congrArg (plainSign _ ++ ·) ih
  | @keep before c s o hnot _ ih =>
    have hc : plainSign c = [c] := by
      by_contra hne
      exact hnot ⟨_, _, s, rfl, .sign hne⟩
    rw [List.flatMap_cons, hc, ih]
    rfl

theorem lowerRaised_of_rewrites (h : Rewrites RaisedRule before s o) : lowerRaised false s = o := by
  induction h with
  | nil => rfl
  | @replace before u v r o hrule _ ih =>
    obtain ⟨nonempty, raised, ends⟩ := hrule
    obtain ⟨c, u, rfl⟩ := List.exists_cons_of_ne_nil nonempty
    obtain ⟨hc, hu⟩ := List.forall_mem_cons.mp raised
    obtain ⟨d, hd⟩ := Option.isSome_iff_exists.mp hc
    simp [lowerRaised, hd, lowerRaised_run hu ends, ih]
  | @keep before c s o hnot _ ih =>
    have hc : raised? c = none := by
      by_contra hc
      exact hnot (applies_raisedRule (Option.isSome_iff_ne_none.mpr hc))
    simp [lowerRaised, hc, ih]

theorem nameRoots_of_rewrites (h : Rewrites RootRule before s o) : nameRoots 0 s = o := by
  induction h with
  | nil => rfl
  | @replace before u v r o hrule rest ih =>
    obtain @⟨_, gap, _, blank⟩ := hrule
    have hblanks : blanks (gap ++ '(' :: r) = gap.length := blanks_gap blank (by decide) r
    have hrest : (gap ++ '(' :: r).drop (gap.length + 1) = r := by
      rw [← List.drop_drop, List.drop_left, List.drop_one, List.tail_cons]
    rw [List.cons_append, List.append_assoc, List.singleton_append, nameRoots, hblanks,
      List.drop_left, nameRoots_skip, hrest, ih]
    rfl
  | @keep before c s o hnot rest ih =>
    rw [nameRoots, if_neg, ih]
    intro hroot
    obtain ⟨rfl, hhead⟩ : c = '√' ∧ (s.drop (blanks s)).head? = some '(' := by simpa using hroot
    obtain ⟨r, hr⟩ := List.head?_eq_some_iff.mp hhead
    refine hnot ⟨_, _, r, ?_, .root (isGap_take_blanks s)⟩
    rw [List.cons_append, List.append_assoc, List.singleton_append, ← hr, List.take_append_drop]

theorem multiplyBrackets_of_rewrites (h : Rewrites BracketRule before s o) :
    multiplyBrackets 0 s = o := by
  induction h with
  | nil => rfl
  | @replace before u v r o hrule rest ih =>
    obtain @⟨_, gap, r, f, blank, factor⟩ := hrule
    have hblanks := blanks_gap blank (isBlank_of_followsBracket factor) r
    rw [List.cons_append, multiplyBrackets, hblanks, multiplyBrackets_skip, List.drop_left, ih]
    simp [factor]
  | @keep before c s o hnot rest ih =>
    rw [multiplyBrackets, if_neg, ih]
    intro hbracket
    rw [Bool.and_eq_true, beq_iff_eq] at hbracket
    obtain ⟨rfl, hhead⟩ := hbracket
    cases hr : s.drop (blanks s) with
    | nil => simp [hr] at hhead
    | cons f r =>
      refine hnot ⟨_, _, f :: r, ?_, .product (isGap_take_blanks s) (by simpa [hr] using hhead)⟩
      rw [List.cons_append, ← hr, List.take_append_drop]

theorem multiplyNumbers_of_rewrites (h : Rewrites NumberRule before s o) :
    multiplyNumbers 0 before s = o := by
  induction h with
  | nil => rfl
  | @replace before u v r o hrule rest ih =>
    obtain @⟨n, gap, _, f, number, blank, factor, power⟩ := hrule
    have hword : endsInWord false (n ++ (gap ++ [f])) = isWord f := by simp
    have hblock : n ++ (gap ++ [f]) ++ r = n ++ (gap ++ f :: r) := by simp
    rw [hword] at ih
    rw [hblock, multiplyNumbers_factor (factorAfter?_number number blank factor power), ih,
      List.append_assoc]
    rfl
  | @keep before c s o hnot rest ih =>
    cases before with
    | true => rw [multiplyNumbers, if_pos rfl, ih]
    | false =>
      cases hdigit : isDigit c with
      | false => rw [multiplyNumbers_keep hdigit, ih]
      | true =>
        cases hfactor : factorAfter? (c :: s) with
        | none => rw [multiplyNumbers, if_neg Bool.false_ne_true, hfactor, ih]
        | some p => exact absurd (applies_of_factorAfter? hdigit hfactor) hnot

theorem singleSpaced_of_rewrites (h : Rewrites SpaceRule before s o) :
    singleSpaced false s = o := by
  have hgap : ∀ gap r : List Char, IsGap gap → (∀ a ∈ r.head?, isBlank a = false) →
      singleSpaced true (gap ++ r) = singleSpaced false r := by
    intro gap r hgap hr
    induction gap with
    | nil =>
      cases r with
      | nil => rfl
      | cons a r => simp [singleSpaced, hr a rfl]
    | cons a gap ih =>
      obtain ⟨ha, hgap⟩ := List.forall_mem_cons.mp hgap
      rw [List.cons_append, singleSpaced, if_pos ha, if_pos rfl, ih hgap]
  induction h with
  | nil => rfl
  | @replace before u v r o hrule rest ih =>
    obtain @⟨_, c, gap, r, blank, ends⟩ := hrule
    obtain ⟨hc, blank⟩ := List.forall_mem_cons.mp blank
    rw [List.cons_append, singleSpaced, if_pos hc, if_neg Bool.false_ne_true, hgap gap r blank ends,
      ih]
    rfl
  | @keep before c s o hnot rest ih =>
    rw [singleSpaced, if_neg, ih]
    intro hc
    refine hnot ⟨c :: s.take (blanks s), [' '], s.drop (blanks s), ?_, ?_⟩
    · rw [List.cons_append, List.take_append_drop]
    · exact .run ((isGap_take_blanks s).cons hc) (head_drop_blanks s)

end

theorem follows_plainSign : Follows (fun _ s => s.flatMap plainSign) SignRule :=
  ⟨consumes_signRule, flatMap_plainSign_of_rewrites⟩

theorem follows_lowerRaised : Follows (fun _ => lowerRaised false) RaisedRule :=
  ⟨consumes_raisedRule, lowerRaised_of_rewrites⟩

theorem follows_nameRoots : Follows (fun _ => nameRoots 0) RootRule :=
  ⟨consumes_rootRule, nameRoots_of_rewrites⟩

theorem follows_multiplyNumbers : Follows (multiplyNumbers 0) NumberRule :=
  ⟨consumes_numberRule, multiplyNumbers_of_rewrites⟩

theorem follows_multiplyBrackets : Follows (fun _ => multiplyBrackets 0) BracketRule :=
  ⟨consumes_bracketRule, multiplyBrackets_of_rewrites⟩

theorem follows_singleSpaced : Follows (fun _ => singleSpaced false) SpaceRule :=
  ⟨consumes_spaceRule, singleSpaced_of_rewrites⟩

end Simultaneous.Formula
