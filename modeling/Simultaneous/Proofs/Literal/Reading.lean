import Simultaneous.Proofs.Literal.Numeral

/-!
Written values: numerals, names of numbers, and lists, which are read when their items are, with
fuel for every item and one more level of nesting.
-/

namespace Simultaneous.Literal

open Text Decimal

/-- With so much fuel and nesting the text is read as the value, in front of a comma or a
bracket. -/
def Reads (fuel depth : Nat) (s : List Char) (v : Literal) : Prop :=
  ∀ fuel', fuel ≤ fuel' → ∀ pos rest, IsDelimited rest →
    readValue fuel' depth ⟨pos, s ++ rest⟩ = .ok (v, ⟨pos + s.length, rest⟩)

/-- A text that can stand first in a list. -/
def IsItem (s : List Char) : Prop := ∃ c t, s = c :: t ∧ isSpacing c = false ∧ c ≠ ']'

/-- A list in square brackets, its items separated by a comma and a space. -/
def listChars (items : List (List Char)) : List Char :=
  '[' :: (List.intercalate [',', ' '] items ++ [']'])

theorem ne_of_digit {c : Char} (hc : isAsciiDigit c = true) (a : Char)
    (ha : isAsciiDigit a = false) : c ≠ a := by
  rintro rfl
  rw [hc] at ha
  cases ha

/-- A digit, or a minus sign before one, begins no constant. -/
theorem constant?_of_digit {c : Char} (hc : isAsciiDigit c = true) (neg : Bool) (s : List Char) :
    constant? (Numeral.signChars neg ++ c :: s) = none := by
  have hn := (ne_of_digit hc 'n' rfl).symm
  have ht := (ne_of_digit hc 't' rfl).symm
  have hf := (ne_of_digit hc 'f' rfl).symm
  have hnan := (ne_of_digit hc 'N' rfl).symm
  have hinf := (ne_of_digit hc 'I' rfl).symm
  have hminus := (ne_of_digit hc '-' rfl).symm
  cases neg <;>
    simp [constant?, Numeral.signChars, List.isPrefixOf, hn, ht, hf, hnan, hinf, hminus]

theorem isSpacing_of_digit {c : Char} (hc : isAsciiDigit c = true) : isSpacing c = false := by
  simp [isSpacing, ne_of_digit hc ' ' rfl, ne_of_digit hc '\t' rfl, ne_of_digit hc '\n' rfl,
    ne_of_digit hc '\r' rfl]

theorem readValue_of_constant {k depth pos : Nat} {c : Char} {s : List Char}
    (hc : c ∉ ['"', '[', '\x7b']) : readValue (k + 1) depth ⟨pos, c :: s⟩ =
      match constant? (c :: s) with
      | some (v, n) => .ok (v, Cursor.skip ⟨pos, c :: s⟩ n)
      | none => readNumber ⟨pos, c :: s⟩ := by
  simp only [List.mem_cons, List.not_mem_nil, or_false, not_or] at hc
  rw [readValue]
  split
  next heq => cases heq
  next heq => exact absurd (List.cons_eq_cons.mp heq).1 hc.1
  next heq => exact absurd (List.cons_eq_cons.mp heq).1 hc.2.1
  next heq => exact absurd (List.cons_eq_cons.mp heq).1 hc.2.2
  · rfl

theorem reads_numeral {w : Numeral} (hw : w.Valid) (neg : Bool) (depth : Nat) :
    IsItem (Numeral.signChars neg ++ w.chars) ∧
      Reads 1 depth (Numeral.signChars neg ++ w.chars) (w.literal neg) := by
  obtain ⟨c, s, hs⟩ := List.exists_cons_of_ne_nil (Numeral.whole_ne_nil hw)
  have hc : isAsciiDigit c = true := hw.whole_digits c (hs ▸ List.mem_cons_self)
  have hhead : ∃ a t, Numeral.signChars neg ++ w.chars = a :: t ∧ a ∉ ['"', '[', '\x7b'] ∧
      isSpacing a = false ∧ a ≠ ']' := by
    rw [Numeral.chars, hs]
    cases neg
    · refine ⟨c, _, rfl, ?_, isSpacing_of_digit hc, ne_of_digit hc ']' rfl⟩
      simp [ne_of_digit hc '"' rfl, ne_of_digit hc '[' rfl, ne_of_digit hc '\x7b' rfl]
    · exact ⟨'-', _, rfl, by decide, by decide, by decide⟩
  obtain ⟨a, t, ht, ha, hitem⟩ := hhead
  refine ⟨⟨a, t, ht, hitem⟩, fun fuel hfuel pos rest hrest => ?_⟩
  obtain ⟨k, rfl⟩ : ∃ k, fuel = k + 1 := ⟨fuel - 1, by omega⟩
  have hconstant := constant?_of_digit hc neg (s ++ (w.fracChars ++ w.expoChars) ++ rest)
  have hnumber := Numeral.readNumber_chars hw hrest neg pos
  have htext : Numeral.signChars neg ++ c :: (s ++ (w.fracChars ++ w.expoChars) ++ rest) =
      Numeral.signChars neg ++ w.chars ++ rest := by
    rw [Numeral.chars, hs]
    simp
  rw [htext, ht, List.cons_append] at hconstant
  rw [← List.append_assoc, ht, List.cons_append] at hnumber
  rw [ht, List.cons_append, readValue_of_constant ha, hconstant]
  exact hnumber

/-- The names of the numbers that have no digits. -/
theorem reads_name {name : List Char} {x : Float}
    (h : (name, x) ∈ [("NaN".toList, 0.0 / 0.0), ("Infinity".toList, infinity false),
      ("-Infinity".toList, infinity true)]) (depth : Nat) :
    IsItem name ∧ Reads 1 depth name (.float x) := by
  simp only [List.mem_cons, List.not_mem_nil, or_false, Prod.mk.injEq] at h
  have hreads : Reads 1 depth name (.float x) := by
    intro fuel hfuel pos rest hrest
    obtain ⟨k, rfl⟩ : ∃ k, fuel = k + 1 := ⟨fuel - 1, by omega⟩
    obtain ⟨rfl, rfl⟩ | ⟨rfl, rfl⟩ | ⟨rfl, rfl⟩ := h <;> rfl
  refine ⟨?_, hreads⟩
  obtain ⟨rfl, rfl⟩ | ⟨rfl, rfl⟩ | ⟨rfl, rfl⟩ := h <;> exact ⟨_, _, rfl, by decide, by decide⟩

theorem skipSpacing_cons {pos : Nat} {c : Char} {s : List Char} (hc : isSpacing c = false) :
    Cursor.skipSpacing ⟨pos, c :: s⟩ = ⟨pos, c :: s⟩ := by
  simp [Cursor.skipSpacing, Cursor.skip, hc]

theorem skipSpacing_space {pos : Nat} {s : List Char} (hs : IsItem s) (rest : List Char) :
    Cursor.skipSpacing ⟨pos, ' ' :: (s ++ rest)⟩ = ⟨pos + 1, s ++ rest⟩ := by
  obtain ⟨c, t, rfl, hc, -⟩ := hs
  simp [Cursor.skipSpacing, Cursor.skip, hc, show isSpacing ' ' = true from rfl]

theorem IsItem.intercalate {s : List Char} (hs : IsItem s) (items : List (List Char)) :
    IsItem (List.intercalate [',', ' '] (s :: items)) := by
  obtain ⟨c, t, rfl, hc⟩ := hs
  cases items with
  | nil => exact ⟨c, t, List.intercalate_singleton, hc⟩
  | cons r items =>
    rw [List.intercalate_cons_cons]
    exact ⟨c, _, rfl, hc⟩

section

variable {k depth : Nat}

/-- Items are read one after the other up to the closing bracket. -/
theorem readItems_chars {items : List (List Char × Literal)} (hne : items ≠ [])
    (hitems : ∀ i ∈ items, IsItem i.1 ∧ Reads k depth i.1 i.2) {fuel : Nat}
    (hfuel : k + items.length ≤ fuel) (pos : Nat) (rest : List Char) :
    readItems fuel depth ⟨pos, List.intercalate [',', ' '] (items.map (·.1)) ++ ']' :: rest⟩ =
      .ok (items.map (·.2),
        ⟨pos + (List.intercalate [',', ' '] (items.map (·.1))).length + 1, rest⟩) := by
  -- A round for each item, and in it as much fuel as any of the items takes.
  induction items generalizing fuel pos with
  | nil => exact absurd rfl hne
  | cons i items ih =>
    obtain ⟨hitem, hreads⟩ := hitems i List.mem_cons_self
    obtain ⟨fuel, rfl⟩ : ∃ f, fuel = f + 1 := ⟨fuel - 1, by simp at hfuel; omega⟩
    have hk : k ≤ fuel := by simp at hfuel; omega
    have hspacing : isSpacing ']' = false ∧ isSpacing ',' = false := by decide
    rw [readItems]
    cases items with
    | nil =>
      have hclose : IsDelimited (']' :: rest) := by simp [IsDelimited]
      rw [List.map_cons, List.map_nil, List.intercalate_singleton, hreads fuel hk pos _ hclose]
      simp only
      rw [skipSpacing_cons hspacing.1]
      rfl
    | cons j items =>
      have hcomma : IsDelimited (',' :: ' ' :: (List.intercalate [',', ' ']
          ((j :: items).map (·.1)) ++ ']' :: rest)) := by simp [IsDelimited]
      have hnext := (hitems j (by simp)).1.intercalate (items.map (·.1))
      have hlen : k + (j :: items).length ≤ fuel := by simp at hfuel ⊢; omega
      have hrest := ih nofun (fun a ha => hitems a (List.mem_cons_of_mem i ha)) hlen
        (pos + i.1.length + 1 + 1)
      rw [List.map_cons] at hrest hcomma
      rw [List.map_cons, List.map_cons, List.intercalate_cons_cons, List.append_assoc,
        List.append_assoc, List.cons_append, List.cons_append, List.nil_append,
        hreads fuel hk pos _ hcomma]
      simp only
      rw [skipSpacing_cons hspacing.2]
      simp only [Cursor.skip, List.drop_succ_cons, List.drop_zero]
      rw [skipSpacing_space hnext, hrest]
      simp
      omega

/-- A list is read when its items are. -/
theorem reads_list {items : List (List Char × Literal)} (hne : items ≠ [])
    (hitems : ∀ i ∈ items, IsItem i.1 ∧ Reads k depth i.1 i.2) :
    Reads (k + items.length + 1) (depth + 1) (listChars (items.map (·.1)))
      (.list (items.map (·.2))) := by
  intro fuel hfuel pos rest hrest
  obtain ⟨fuel, rfl⟩ : ∃ f, fuel = f + 1 := ⟨fuel - 1, by omega⟩
  have hread := readItems_chars hne hitems (show k + items.length ≤ fuel by omega) (pos + 1) rest
  obtain ⟨i, items, rfl⟩ := List.exists_cons_of_ne_nil hne
  obtain ⟨c, t, ht, hc, hclose⟩ := (hitems i List.mem_cons_self).1.intercalate (items.map (·.1))
  rw [List.map_cons] at hread
  rw [listChars, List.cons_append, List.append_assoc, List.singleton_append, List.map_cons]
  generalize List.intercalate [',', ' '] (i.1 :: items.map (·.1)) = s at hread ht ⊢
  subst ht
  rw [readValue]
  simp only [Cursor.skip, List.drop_succ_cons, List.drop_zero, List.cons_append] at hread ⊢
  rw [if_neg (Nat.succ_ne_zero depth), skipSpacing_cons hc, Nat.add_sub_cancel]
  split
  next heq => exact absurd (List.cons_eq_cons.mp heq).1 hclose
  · rw [hread]
    simp
    omega

end

/-- What reads as a value in front of a bracket is read from a whole text. -/
theorem read_eq {s : List Char} {v : Literal} (hs : IsItem s)
    (hmark : ∀ c ∈ s.head?, c.toNat ≠ 0xFEFF) (h : Reads (2 * s.length + 2) maxNesting s v) :
    read s = .ok v := by
  obtain ⟨c, t, rfl, hc, -⟩ := hs
  have hvalue := h _ le_rfl 0 [] nofun
  rw [List.append_nil] at hvalue
  have hmark : ¬ (c.toNat == 0xFEFF) = true := by simpa using hmark c rfl
  rw [read, if_neg hmark, skipSpacing_cons hc, hvalue]
  rfl

theorem mem_intercalate {c : Char} {items : List (List Char)}
    (h : c ∈ List.intercalate [',', ' '] items) : c = ',' ∨ c = ' ' ∨ ∃ s ∈ items, c ∈ s := by
  induction items with
  | nil => cases h
  | cons s items ih =>
    cases items with
    | nil => exact .inr (.inr ⟨s, List.mem_cons_self, by rwa [List.intercalate_singleton] at h⟩)
    | cons t items =>
      rw [List.intercalate_cons_cons] at h
      obtain hs | rfl | rfl | h : c ∈ s ∨ c = ',' ∨ c = ' ' ∨
          c ∈ List.intercalate [',', ' '] (t :: items) := by simpa using h
      · exact .inr (.inr ⟨s, List.mem_cons_self, hs⟩)
      · exact .inl rfl
      · exact .inr (.inl rfl)
      · exact (ih h).imp_right (.imp_right fun ⟨r, hr, hc⟩ => ⟨r, List.mem_cons_of_mem s hr, hc⟩)

theorem mem_listChars {c : Char} {items : List (List Char)} (h : c ∈ listChars items) :
    c ∈ ['[', ']', ',', ' '] ∨ ∃ s ∈ items, c ∈ s := by
  obtain rfl | h | rfl : c = '[' ∨ c ∈ List.intercalate [',', ' '] items ∨ c = ']' := by
    simpa [listChars] using h
  · exact .inl (by decide)
  · obtain rfl | rfl | h := mem_intercalate h
    · exact .inl (by decide)
    · exact .inl (by decide)
    · exact .inr h
  · exact .inl (by decide)

theorem length_intercalate {items : List (List Char)} (hpos : ∀ s ∈ items, 0 < s.length) :
    ∀ s ∈ items, s.length + items.length ≤ (List.intercalate [',', ' '] items).length + 1 := by
  induction items with
  | nil => nofun
  | cons r items ih =>
    intro s hs
    cases items with
    | nil =>
      obtain rfl := List.mem_singleton.mp hs
      rw [List.intercalate_singleton]
      rfl
    | cons t items =>
      have hrest := ih fun a ha => hpos a (List.mem_cons_of_mem r ha)
      have htpos := hpos t (by simp)
      have ht := hrest t List.mem_cons_self
      rw [List.intercalate_cons_cons]
      simp only [List.length_append, List.length_cons, List.length_nil] at ht ⊢
      obtain rfl | hs := List.mem_cons.mp hs
      · omega
      · have := hrest s hs
        simp only [List.length_cons] at this
        omega

/-- A written list is longer than each of its items, by one character for each of them. -/
theorem length_listChars {items : List (List Char)} (hpos : ∀ s ∈ items, 0 < s.length) :
    ∀ s ∈ items, s.length + items.length < (listChars items).length := by
  intro s hs
  have := length_intercalate hpos s hs
  simp [listChars]
  omega

end Simultaneous.Literal
