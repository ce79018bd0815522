import Simultaneous.Literal.Reader
import Simultaneous.Proofs.Decimal.Shortest

/-!
Numerals: how a number is written in digits, and what the reader makes of it in front of a comma or
a closing bracket.
-/

namespace Simultaneous.Literal

open Text Decimal

/-- Nothing or a character that no number goes on with. -/
def IsDelimited (rest : List Char) : Prop := ∀ c ∈ rest.head?, c = ',' ∨ c = ']'

/-- Nothing or a character that is no digit. -/
def IsStop (s : List Char) : Prop := ∀ c ∈ s.head?, isAsciiDigit c = false

/-- Digits before a point, after it, and an exponent. -/
structure Numeral where
  whole : List Char
  frac : List Char
  expo : Option Int

namespace Numeral

variable (w : Numeral)

def fracChars : List Char := if w.frac.isEmpty then [] else '.' :: w.frac

def expoChars : List Char := w.expo.elim [] fun e => (exponentText e).toList

def chars : List Char := w.whole ++ (w.fracChars ++ w.expoChars)

/-- Digits on both sides of the point, and no zero in front of another digit. -/
structure Valid : Prop where
  whole_digits : ∀ c ∈ w.whole, isAsciiDigit c = true
  frac_digits : ∀ c ∈ w.frac, isAsciiDigit c = true
  whole_form : w.whole = ['0'] ∨ ∃ c s, w.whole = c :: s ∧ c ≠ '0'
  whole_short : w.whole.length ≤ maxIntegerDigits

/-- What a numeral stands for: an integer unless it has a point or an exponent. -/
def literal (neg : Bool) : Literal :=
  if w.frac.isEmpty && w.expo.isNone then
    .int (if neg then -(digitsValue w.whole : Int) else digitsValue w.whole)
  else .float (scaled neg (digitsValue (w.whole ++ w.frac)) (w.whole ++ w.frac).length
    (w.expo.getD 0 - w.frac.length))

end Numeral

theorem takeWhile_digits {ds rest : List Char} (hds : ∀ c ∈ ds, isAsciiDigit c = true)
    (hrest : IsStop rest) : (ds ++ rest).takeWhile isAsciiDigit = ds := by
  rw [List.takeWhile_append_of_pos hds]
  cases rest with
  | nil => simp
  | cons c rest => simp [hrest c rfl]

theorem dropWhile_digits {ds rest : List Char} (hds : ∀ c ∈ ds, isAsciiDigit c = true)
    (hrest : IsStop rest) : (ds ++ rest).dropWhile isAsciiDigit = rest := by
  rw [List.dropWhile_append_of_pos hds]
  cases rest with
  | nil => rfl
  | cons c rest => simp [hrest c rfl]

theorem IsDelimited.isStop {rest : List Char} (h : IsDelimited rest) : IsStop rest := by
  intro c hc
  obtain rfl | rfl := h c hc <;> decide

theorem isAsciiDigit_of_mem_toDigits {n : Nat} :
    ∀ c ∈ Nat.toDigits 10 n, isAsciiDigit c = true :=
  fun _ hc => Nat.isDigit_of_mem_toDigits (by decide) (by decide) hc

theorem digitsValue_toDigits (n : Nat) : digitsValue (Nat.toDigits 10 n) = n :=
  Nat.ofDigitChars_toDigits (by decide) (by decide)

theorem digitsValue_zeros_append (k : Nat) (ds : List Char) :
    digitsValue (List.replicate k '0' ++ ds) = digitsValue ds := by
  induction k with
  | zero => rfl
  | succ k ih => exact ih

theorem digitsValue_append_zeros (ds : List Char) (k : Nat) :
    digitsValue (ds ++ List.replicate k '0') = digitsValue ds * 10 ^ k := by
  change Nat.ofDigitChars 10 _ 0 = Nat.ofDigitChars 10 ds 0 * 10 ^ k
  rw [Nat.ofDigitChars_append, Nat.ofDigitChars_replicate_zero, Nat.mul_comm]

/-- An exponent is its mark, a sign and digits. -/
theorem exponentText_toList (e : Int) : ∃ ds, (exponentText e).toList =
      'e' :: (if e < 0 then '-' else '+') :: ds ∧ ds ≠ [] ∧ (∀ c ∈ ds, isAsciiDigit c = true) ∧
      digitsValue ds = e.natAbs := by
  refine ⟨List.replicate (if e.natAbs < 10 then 1 else 0) '0' ++ Nat.toDigits 10 e.natAbs,
    ?_, ?_, ?_, ?_⟩
  · rw [exponentText]
    simp only [String.toList_append]
    split <;> split <;> simp [Nat.toList_repr]
  · simp [Nat.toDigits_ne_nil]
  · intro c hc
    obtain hc | hc := List.mem_append.mp hc
    · rw [List.eq_of_mem_replicate hc]
      rfl
    · exact isAsciiDigit_of_mem_toDigits c hc
  · rw [digitsValue_zeros_append, digitsValue_toDigits]

theorem fractionPart_append {frac rest : List Char} (hfrac : ∀ c ∈ frac, isAsciiDigit c = true)
    (hne : frac ≠ []) (hrest : IsStop rest) :
    fractionPart ('.' :: frac ++ rest) = '.' :: frac := by
  rw [List.cons_append, fractionPart, takeWhile_digits hfrac hrest]
  cases frac with
  | nil => exact absurd rfl hne
  | cons c frac => rfl

theorem exponentPart_append (e : Int) {rest : List Char} (hrest : IsStop rest) :
    exponentPart ((exponentText e).toList ++ rest) = (exponentText e).toList := by
  obtain ⟨ds, htext, hne, hds, -⟩ := exponentText_toList e
  have hdigits := takeWhile_digits hds hrest
  obtain ⟨c, ds, rfl⟩ := List.exists_cons_of_ne_nil hne
  rw [List.cons_append] at hdigits
  rw [htext]
  split <;> simp [exponentPart, hdigits]

theorem readExponent?_exponentText (e : Int) : readExponent? (exponentText e).toList = some e := by
  obtain ⟨ds, htext, hne, hds, hvalue⟩ := exponentText_toList e
  have hdigits : isDigits ds = true := by
    rw [isDigits, Bool.and_eq_true, List.all_eq_true]
    exact ⟨by simpa using hne, hds⟩
  rw [htext]
  split
  next he => simp [readExponent?, takeSign, hdigits, hvalue, abs_of_neg he]
  next he => simp [readExponent?, takeSign, hdigits, hvalue, abs_of_nonneg (not_lt.mp he)]

namespace Numeral

variable {w : Numeral}

theorem isStop_expoChars (w : Numeral) {rest : List Char} (hrest : IsStop rest) :
    IsStop (w.expoChars ++ rest) := by
  rw [expoChars]
  cases w.expo with
  | none => exact hrest
  | some e =>
    obtain ⟨ds, htext, -⟩ := exponentText_toList e
    rw [Option.elim_some, htext]
    intro c hc
    obtain rfl := Option.some_inj.mp hc
    decide

theorem isStop_fracChars (w : Numeral) {rest : List Char} (hrest : IsStop rest) :
    IsStop (w.fracChars ++ rest) := by
  rw [fracChars]
  split
  · exact hrest
  · intro c hc
    obtain rfl := Option.some_inj.mp hc
    decide

theorem wholePart_append (hw : w.Valid) {rest : List Char} (hrest : IsStop rest) :
    wholePart (w.whole ++ rest) = w.whole := by
  have hdigits := takeWhile_digits hw.whole_digits hrest
  obtain hzero | ⟨c, s, hs, hc⟩ := hw.whole_form
  · rw [hzero]
    rfl
  · rw [hs, List.cons_append] at hdigits ⊢
    unfold wholePart
    split
    next heq => exact absurd (List.cons_eq_cons.mp heq).1 hc
    · exact hdigits

/-- What follows a numeral begins neither a fraction nor an exponent. -/
theorem parts_of_isDelimited {rest : List Char} (hrest : IsDelimited rest) :
    fractionPart rest = [] ∧ exponentPart rest = [] := by
  cases rest with
  | nil => exact ⟨rfl, rfl⟩
  | cons c rest =>
    obtain rfl | rfl := hrest c rfl
    · exact ⟨rfl, rfl⟩
    · exact ⟨rfl, rfl⟩

theorem fractionPart_expoChars (w : Numeral) {rest : List Char} (hrest : IsDelimited rest) :
    fractionPart (w.expoChars ++ rest) = [] := by
  rw [expoChars]
  cases w.expo with
  | none => exact (parts_of_isDelimited hrest).1
  | some e =>
    obtain ⟨ds, htext, -⟩ := exponentText_toList e
    rw [Option.elim_some, htext]
    rfl

theorem fractionPart_chars (hw : w.Valid) {rest : List Char} (hrest : IsDelimited rest) :
    fractionPart (w.fracChars ++ (w.expoChars ++ rest)) = w.fracChars := by
  rw [fracChars]
  split
  · exact fractionPart_expoChars w hrest
  next hne =>
    exact fractionPart_append hw.frac_digits (by simpa using hne)
      (isStop_expoChars w hrest.isStop)

theorem exponentPart_chars (w : Numeral) {rest : List Char} (hrest : IsDelimited rest) :
    exponentPart (w.expoChars ++ rest) = w.expoChars := by
  rw [expoChars]
  cases w.expo with
  | none => exact (parts_of_isDelimited hrest).2
  | some e => exact exponentPart_append e hrest.isStop

theorem readExponent?_expoChars (w : Numeral) :
    readExponent? w.expoChars = some (w.expo.getD 0) := by
  rw [expoChars]
  cases w.expo with
  | none => rfl
  | some e => exact readExponent?_exponentText e

theorem isStop_nil : IsStop [] := fun _ hc => by cases hc

theorem whole_ne_nil (hw : w.Valid) : w.whole ≠ [] := by
  obtain h | ⟨c, s, h, -⟩ := hw.whole_form <;> rw [h] <;> nofun

theorem readScientific?_chars (hw : w.Valid) : readScientific? w.chars =
    some ⟨digitsValue (w.whole ++ w.frac), (w.whole ++ w.frac).length,
      w.expo.getD 0 - w.frac.length⟩ := by
  have hexpo : IsStop w.expoChars := by simpa using isStop_expoChars w isStop_nil
  have hstop : IsStop (w.fracChars ++ w.expoChars) := isStop_fracChars w hexpo
  have hwhole : w.whole.isEmpty = false := by simpa using whole_ne_nil hw
  rw [readScientific?, chars, takeWhile_digits hw.whole_digits hstop,
    dropWhile_digits hw.whole_digits hstop]
  split
  next frac rest heq =>
  obtain ⟨rfl, rfl⟩ : w.frac = frac ∧ w.expoChars = rest := by
    rw [fracChars] at heq
    split_ifs at heq with hempty
    · have hfrac : w.frac = [] := by simpa using hempty
      rw [hfrac]
      rw [expoChars] at heq ⊢
      cases hexpo : w.expo with
      | none =>
        rw [hexpo] at heq
        exact Prod.mk.inj heq
      | some e =>
        obtain ⟨ds, htext, -⟩ := exponentText_toList e
        rw [hexpo, Option.elim_some, htext] at heq
        rw [Option.elim_some, htext]
        exact Prod.mk.inj heq
    · simpa [takeWhile_digits hw.frac_digits hexpo, dropWhile_digits hw.frac_digits hexpo]
        using heq
  simp [hwhole, readExponent?_expoChars]

/-- The sign in front of a number. -/
def signChars (neg : Bool) : List Char := if neg then ['-'] else []

theorem isEmpty_signChars (neg : Bool) : (signChars neg).isEmpty = !neg := by
  cases neg <;> rfl

theorem isEmpty_fracChars (w : Numeral) : w.fracChars.isEmpty = w.frac.isEmpty := by
  rw [fracChars]
  cases w.frac <;> rfl

theorem isEmpty_expoChars (w : Numeral) : w.expoChars.isEmpty = w.expo.isNone := by
  rw [expoChars]
  cases w.expo with
  | none => rfl
  | some e =>
    obtain ⟨ds, htext, -⟩ := exponentText_toList e
    rw [Option.elim_some, htext]
    rfl

theorem exists_whole_eq_cons (hw : w.Valid) : ∃ c s, w.whole = c :: s ∧ c ≠ '-' := by
  obtain ⟨c, s, hs⟩ := List.exists_cons_of_ne_nil (whole_ne_nil hw)
  refine ⟨c, s, hs, ?_⟩
  rintro rfl
  exact absurd (hw.whole_digits '-' (hs ▸ List.mem_cons_self)) (by decide)

/-- A numeral in front of a comma or a bracket is read in full. -/
theorem readNumber_chars (hw : w.Valid) {rest : List Char} (hrest : IsDelimited rest) (neg : Bool)
    (pos : Nat) :
    readNumber ⟨pos, signChars neg ++ (w.chars ++ rest)⟩ =
      .ok (w.literal neg, ⟨pos + (signChars neg ++ w.chars).length, rest⟩) := by
  have hstop : IsStop (w.fracChars ++ (w.expoChars ++ rest)) :=
    isStop_fracChars w (isStop_expoChars w hrest.isStop)
  have hwhole : w.whole.isEmpty = false := by simpa using whole_ne_nil hw
  have hsplit : w.chars ++ rest = w.whole ++ (w.fracChars ++ (w.expoChars ++ rest)) := by
    simp [chars]
  have hscientific := readScientific?_chars hw
  have hskip : ((⟨pos, signChars neg ++ (w.chars ++ rest)⟩ : Cursor).skip
      (signChars neg ++ w.chars).length) = ⟨pos + (signChars neg ++ w.chars).length, rest⟩ := by
    rw [Cursor.skip, ← List.append_assoc, List.drop_left]
  rw [readNumber]
  split
  next sign s heq =>
  obtain ⟨rfl, rfl⟩ : signChars neg = sign ∧ w.chars ++ rest = s := by
    cases neg with
    | true => exact Prod.mk.inj heq
    | false =>
      obtain ⟨c, t, hs, hc⟩ := exists_whole_eq_cons hw
      rw [hsplit, hs] at heq ⊢
      simpa [signChars, hc] using heq
  have hwholePart : wholePart (w.chars ++ rest) = w.whole := by
    rw [hsplit, wholePart_append hw hstop]
  have hafter : (w.chars ++ rest).drop w.whole.length = w.fracChars ++ (w.expoChars ++ rest) := by
    rw [hsplit, List.drop_left]
  simp only [hwholePart, hafter, List.drop_left, fractionPart_chars hw hrest,
    exponentPart_chars w hrest, hwhole]
  have hchars :
      signChars neg ++ w.whole ++ w.fracChars ++ w.expoChars = signChars neg ++ w.chars := by
    simp [chars]
  have hunsigned : w.whole ++ w.fracChars ++ w.expoChars = w.chars := by simp [chars]
  rw [hchars, hskip, hunsigned, hscientific]
  rw [isEmpty_fracChars, isEmpty_expoChars, isEmpty_signChars, literal, if_neg (by decide),
    Bool.not_not]
  split
  · rw [if_neg (not_lt.mpr hw.whole_short)]
    cases neg <;> rfl
  · rfl

end Numeral

end Simultaneous.Literal
