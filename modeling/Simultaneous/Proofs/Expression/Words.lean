import Simultaneous.Expression

/-!
The words of a text: where one ends and the next can begin.
-/

namespace Simultaneous.Expression

open Text

/-- The words of a text from left to right. -/
def words (s : List Char) : List String := identifiers [] s

/-- No word goes on here. -/
def AtBoundary (s : List Char) : Prop := ∀ c ∈ s.head?, continuesIdentifier c = false

variable {c : Char} {p s word : List Char}

theorem toNat_lt_of_continues (h : continuesIdentifier c = true) : c.toNat < 128 := by
  have hchar : (('a' ≤ c ∧ c ≤ 'z' ∨ 'A' ≤ c ∧ c ≤ 'Z') ∨ c = '_') ∨ '0' ≤ c ∧ c ≤ '9' := by
    simpa [continuesIdentifier, beginsIdentifier, isAsciiLetter, isAsciiDigit] using h
  obtain ((⟨-, h⟩ | ⟨-, h⟩) | rfl) | ⟨-, h⟩ := hchar
  · exact Nat.lt_of_le_of_lt (show c.toNat ≤ 122 from h) (by decide)
  · exact Nat.lt_of_le_of_lt (show c.toNat ≤ 90 from h) (by decide)
  · decide
  · exact Nat.lt_of_le_of_lt (show c.toNat ≤ 57 from h) (by decide)

/-- In ASCII the words of names are these words. -/
theorem isWord_eq (h : c.toNat < 128) : isWord c = continuesIdentifier c := by
  unfold isWord continuesIdentifier beginsIdentifier
  rw [if_pos h, Bool.or_assoc, Bool.or_comm]

theorem beginsName_eq (h : c.toNat < 128) : beginsName c = beginsIdentifier c := by
  unfold beginsName beginsIdentifier
  rw [if_pos h]

theorem continues_eq_false (h : isWord c = false) : continuesIdentifier c = false :=
  Bool.eq_false_iff.mpr fun hc => by
    rw [isWord_eq (toNat_lt_of_continues hc), hc] at h
    cases h

theorem continues_of_begins (h : beginsIdentifier c = true) : continuesIdentifier c = true := by
  unfold continuesIdentifier
  rw [h, Bool.true_or]

theorem begins_eq_false (h : continuesIdentifier c = false) : beginsIdentifier c = false :=
  Bool.eq_false_iff.mpr fun hc => by simp [continues_of_begins hc] at h

theorem identifiers_nil (word : List Char) :
    identifiers word [] = if word.isEmpty then [] else [String.ofList word.reverse] := rfl

theorem identifiers_cons (word : List Char) (c : Char) (s : List Char) :
    identifiers word (c :: s) =
      if word.isEmpty then identifiers (if beginsIdentifier c then [c] else []) s
      else if continuesIdentifier c then identifiers (c :: word) s
      else String.ofList word.reverse :: identifiers [] s := rfl

theorem words_cons_of_not (h : beginsIdentifier c = false) (s : List Char) :
    words (c :: s) = words s := by
  simp [words, identifiers_cons, h]

theorem words_append_of_not (h : ∀ c ∈ p, beginsIdentifier c = false) (s : List Char) :
    words (p ++ s) = words s := by
  induction p with
  | nil => rfl
  | cons c p ih =>
    rw [List.cons_append, words_cons_of_not (h c List.mem_cons_self)]
    exact ih fun d hd => h d (List.mem_cons_of_mem c hd)

/-- A word that has begun ends at a boundary. -/
theorem identifiers_of_atBoundary (hword : word ≠ []) (hs : AtBoundary s) :
    identifiers word s = String.ofList word.reverse :: words s := by
  have hempty : word.isEmpty = false := List.isEmpty_eq_false_iff.mpr hword
  cases s with
  | nil => simp [identifiers_nil, hempty, words]
  | cons c s =>
    have hc : continuesIdentifier c = false := hs c rfl
    rw [words_cons_of_not (begins_eq_false hc)]
    simp [identifiers_cons, hempty, hc, words]

/-- The words on both sides of a boundary are read apart. -/
theorem identifiers_append (hs : AtBoundary s) (word p : List Char) :
    identifiers word (p ++ s) = identifiers word p ++ words s := by
  induction p generalizing word with
  | nil =>
    by_cases hword : word = []
    · subst hword
      simp [identifiers_nil, words]
    · simp [identifiers_nil, identifiers_of_atBoundary hword hs, hword]
  | cons c p ih =>
    rw [List.cons_append, identifiers_cons, identifiers_cons]
    split
    · exact ih _
    · split
      · exact ih _
      · rw [ih, List.cons_append]

theorem words_append (hs : AtBoundary s) (p : List Char) : words (p ++ s) = words p ++ words s :=
  identifiers_append hs [] p

theorem identifiers_of_continues (hword : word ≠ []) (hp : ∀ c ∈ p, continuesIdentifier c = true) :
    identifiers word p = [String.ofList (word.reverse ++ p)] := by
  induction p generalizing word with
  | nil => simp [identifiers_nil, hword]
  | cons c p ih =>
    rw [identifiers_cons, if_neg (by simpa using hword), if_pos (hp c List.mem_cons_self),
      ih (List.cons_ne_nil c word) fun d hd => hp d (List.mem_cons_of_mem c hd)]
    simp

theorem words_name (hc : beginsIdentifier c = true) (hp : ∀ d ∈ p, continuesIdentifier d = true) :
    words (c :: p) = [String.ofList (c :: p)] := by
  rw [words, identifiers_cons, if_pos (by rfl), if_pos hc,
    identifiers_of_continues (List.cons_ne_nil c []) hp]
  rfl

theorem identifiers_ne_nil (hword : word ≠ []) (p : List Char) : identifiers word p ≠ [] := by
  induction p generalizing word with
  | nil => simp [identifiers_nil, hword]
  | cons c p ih =>
    rw [identifiers_cons, if_neg (by simpa using hword)]
    split
    · exact ih (List.cons_ne_nil c word)
    · exact List.cons_ne_nil _ _

/-- Where no word begins, no word can go on. -/
theorem words_append_of_nil (hp : words p = []) (s : List Char) : words (p ++ s) = words s := by
  induction p with
  | nil => rfl
  | cons c p ih =>
    cases hc : beginsIdentifier c with
    | true =>
      rw [words, identifiers_cons, if_pos (by rfl), if_pos hc] at hp
      exact absurd hp (identifiers_ne_nil (List.cons_ne_nil c []) p)
    | false =>
      rw [words_cons_of_not hc] at hp
      rw [List.cons_append, words_cons_of_not hc, ih hp]

end Simultaneous.Expression
