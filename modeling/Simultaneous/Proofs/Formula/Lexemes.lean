import Simultaneous.Formula.Token
import Mathlib.Data.List.TakeWhile

/-!
The tokens of a text, each with the text that follows it.
-/

namespace Simultaneous.Formula.Token

open Text

/-- The first token of a text, with the text after it. -/
def step? (s : List Char) : Option (Token × List Char) :=
  let gap := (s.takeWhile (· == ' ')).length
  match s.drop gap with
  | [] => none
  | c :: r =>
    if c == '#' then some (comment, [])
    else match next? (c :: r) with
      | some (t, n) => some (t, (c :: r).drop n)
      | none => some (if gap == 0 then (stray c, r) else (stray ' ', s.drop 1))

def lexemesWithin : Nat → List Char → List (Token × List Char)
  | 0, _ => []
  | fuel + 1, s => match step? s with
    | none => []
    | some (t, r) => (t, r) :: lexemesWithin fuel r

/-- The tokens of a text, with the text after each of them. -/
def lexemes (s : List Char) : List (Token × List Char) := lexemesWithin (2 * s.length + 1) s

theorem scanWithin_succ (fuel : Nat) (s : List Char) :
    scanWithin (fuel + 1) s = match step? s with
      | none => []
      | some (t, r) => t :: scanWithin fuel r := by
  have hnil : scanWithin fuel [] = [] := by cases fuel <;> rfl
  rw [scanWithin, step?]
  cases s.drop (s.takeWhile (· == ' ')).length with
  | nil => rfl
  | cons c r =>
    simp only
    cases hc : c == '#' with
    | true => simp [hnil]
    | false =>
      simp only [Bool.false_eq_true, if_false]
      cases next? (c :: r) with
      | none =>
        simp only
        split <;> rfl
      | some p => rfl

theorem map_fst_lexemesWithin (fuel : Nat) (s : List Char) :
    (lexemesWithin fuel s).map Prod.fst = scanWithin fuel s := by
  induction fuel generalizing s with
  | zero => rfl
  | succ fuel ih =>
    rw [lexemesWithin, scanWithin_succ]
    cases step? s with
    | none => rfl
    | some p => rw [List.map_cons, ih]

theorem map_fst_lexemes (s : List Char) : (lexemes s).map Prod.fst = scan s :=
  map_fst_lexemesWithin _ s

/-- How a token spells the text it is read from. -/
inductive Spells : List Char → Token → Nat → Prop
  | number {s : List Char} {n : Nat} (pos : 0 < n) :
    Spells s (.number (String.ofList (s.take n))) n
  | sign {s : List Char} {w : String} (mem : w ∈ signs) (isPrefix : w.toList <+: s) :
    Spells s (.sign w) w.length
  | text {s : List Char} {v : String} {n : Nat} : Spells s (.text v) n
  | bytes {s : List Char} {n : Nat} : Spells s .bytes n
  | name {s w : List Char} {c : Char} (word_eq : s.takeWhile isWord = c :: w)
    (begins : beginsName c = true) : Spells s (.name (String.ofList (c :: w))) (c :: w).length
  | stray {s w : List Char} {c : Char} (word_eq : s.takeWhile isWord = c :: w)
    (begins : beginsName c = false) (digit : isAsciiDigit c = false) :
    Spells s (.stray c) (c :: w).length

theorem numberAt_ne_zero {c : Char} (h : isAsciiDigit c = true) (s : List Char) :
    numberAt (c :: s) ≠ 0 := by
  have hdigits : digitsAt (c :: s) ≠ 0 := by
    rw [digitsAt, if_pos h, digitRun.eq_def]
    simp [h]
  have hinteger : integerAt (c :: s) ≠ 0 := by
    rw [integerAt.eq_def]
    split
    · exact Nat.succ_ne_zero _
    · exact hdigits
  rw [numberAt]
  split
  · exact Nat.succ_ne_zero _
  · split
    · split
      · exact Nat.succ_ne_zero _
      next hfloat _ => simpa using hfloat
    · exact hinteger

theorem spells_of_quotedAt? {s : List Char} {t : Token} {n : Nat} (h : quotedAt? s = some (t, n)) :
    Spells s t n := by
  have hkind : t = .bytes ∨ ∃ v, t = .text v := by
    rw [quotedAt?] at h
    dsimp only at h
    split at h
    · split at h
      · split at h
        · obtain ⟨p, -, hp⟩ := Option.map_eq_some_iff.mp h
          obtain ⟨rfl, -⟩ := Prod.mk.inj hp
          split
          · exact .inl rfl
          · exact .inr ⟨_, rfl⟩
        · cases h
      · cases h
    · cases h
  obtain rfl | ⟨v, rfl⟩ := hkind
  · exact .bytes
  · exact .text

theorem spells_of_next? {s : List Char} {t : Token} {n : Nat} (h : next? s = some (t, n)) :
    Spells s t n := by
  rw [next?] at h
  dsimp only at h
  split at h
  next hn =>
    cases h
    exact .number (Nat.pos_of_ne_zero (by simpa using hn))
  next hn =>
    split at h
    next w hw =>
      cases h
      exact .sign (List.mem_of_find?_eq_some hw)
        (List.isPrefixOf_iff_prefix.mp (by simpa using List.find?_some hw))
    · split at h
      next q hq =>
        cases h
        exact spells_of_quotedAt? hq
      · split at h
        · cases h
        next c w hw =>
          cases h
          have hdigit : isAsciiDigit c = false := Bool.eq_false_iff.mpr fun hdigit => by
            obtain ⟨r, rfl⟩ : ∃ r, s = c :: r := by
              cases s with
              | nil => cases hw
              | cons d r =>
                rw [List.takeWhile_cons] at hw
                split at hw <;> cases hw
                exact ⟨r, rfl⟩
            exact numberAt_ne_zero hdigit r (by simpa using hn)
          rw [hw]
          split
          next hbegins => exact .name hw hbegins
          next hbegins => exact .stray hw (Bool.eq_false_iff.mpr hbegins) hdigit

/-- A text where no token begins has no word character there. -/
theorem isWord_of_next? {c : Char} {s : List Char} (h : next? (c :: s) = none) :
    isWord c = false := by
  rw [next?] at h
  dsimp only at h
  split at h
  · cases h
  · split at h
    · cases h
    · split at h
      · cases h
      · split at h
        next hw =>
          cases hc : isWord c with
          | true =>
            rw [List.takeWhile_cons_of_pos hc] at hw
            cases hw
          | false => rfl
        · cases h

/-- How the first token of a text spells what stands behind the blanks. -/
inductive Begins (s : List Char) : Token → List Char → Prop
  | comment : Begins s .comment []
  | spells {t : Token} {n : Nat} (h : Spells s t n) : Begins s t (s.drop n)
  | stray {c : Char} {r : List Char} (eq_cons : s = c :: r) (not_word : isWord c = false) :
    Begins s (.stray c) r

theorem Begins.eq_nil_of_comment {s r : List Char} (h : Begins s .comment r) : r = [] := by
  cases h with
  | comment => rfl
  | spells h => cases h

theorem Begins.subset {s r : List Char} {t : Token} (h : Begins s t r) : r ⊆ s := by
  cases h with
  | comment => exact List.nil_subset s
  | spells h => exact List.drop_subset _ s
  | stray hcons _ => exact hcons ▸ List.subset_cons_self _ r

/-- The blanks at the head, and what is behind them. -/
theorem exists_gap (s : List Char) : ∃ gap, (∀ c ∈ gap, c = ' ') ∧
    gap.length = (s.takeWhile (· == ' ')).length ∧
    s = gap ++ s.drop (s.takeWhile (· == ' ')).length :=
  ⟨s.takeWhile (· == ' '), fun c hc => by simpa using List.mem_takeWhile_imp hc, rfl,
    (List.prefix_iff_eq_append.mp (List.takeWhile_prefix _)).symm⟩

/-- What a step reads. The blanks before a stray character are read one by one. -/
theorem exists_of_step? {s r : List Char} {t : Token} (h : step? s = some (t, r)) :
    ∃ gap u, s = gap ++ u ∧ u ≠ [] ∧ (∀ c ∈ gap, c = ' ') ∧ Begins u t r := by
  obtain ⟨gap, hgap, hlength, hs⟩ := exists_gap s
  rw [step?, ← hlength] at h
  rw [← hlength] at hs
  split at h
  · cases h
  next c u hu =>
    rw [hu] at hs
    split at h
    · cases h
      exact ⟨gap, c :: u, hs, List.cons_ne_nil c u, hgap, .comment⟩
    · split at h
      next hnext =>
        cases h
        exact ⟨gap, c :: u, hs, List.cons_ne_nil c u, hgap, .spells (spells_of_next? hnext)⟩
      next hnext =>
        split at h
        · cases h
          exact ⟨gap, c :: r, hs, List.cons_ne_nil c r, hgap, .stray rfl (isWord_of_next? hnext)⟩
        next hlong =>
          cases h
          obtain ⟨d, gap, rfl⟩ : ∃ d rest, gap = d :: rest :=
            List.exists_cons_of_ne_nil fun hnil => by simp [hnil] at hlong
          obtain rfl := hgap d List.mem_cons_self
          subst hs
          exact ⟨[], _, rfl, List.cons_ne_nil _ _, nofun, .stray rfl (by decide)⟩

end Simultaneous.Formula.Token
