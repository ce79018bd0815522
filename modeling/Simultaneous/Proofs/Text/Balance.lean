import Simultaneous.Proofs.Text.Brackets

/-!
Where the brackets of a text go wrong. As long as the scan has not failed, the text can be
completed by the brackets that are still awaited; where it fails, no completion is left.
-/

namespace Simultaneous.Text

/-- The kinds of brackets. -/
def bracketPairs : List (Char × Char) := [('(', ')'), ('[', ']'), ('{', '}')]

/-- The texts of the grammar S → empty | S S | (S) | [S] | {S}. -/
inductive Dyck : List Char → Prop
  | empty : Dyck []
  | append {u v : List Char} (left : Dyck u) (right : Dyck v) : Dyck (u ++ v)
  | enclose {p : Char × Char} {u : List Char} (mem : p ∈ bracketPairs) (inside : Dyck u) :
      Dyck (p.1 :: u ++ [p.2])

/-- The text is the beginning of one whose brackets are generated by the grammar. -/
def Extendable (p : List Char) : Prop := ∃ rest, Dyck (brackets (p ++ rest))

def IsOpener (s : List Char) (i : Nat) : Prop := ∃ p ∈ bracketPairs, s[i]? = some p.1

/-- The opening bracket at this place has its closing one, with only generated brackets between the
two. -/
def IsMatched (s : List Char) (i : Nat) : Prop :=
  ∃ before inner after, ∃ p ∈ bracketPairs,
    s = before ++ p.1 :: (inner ++ p.2 :: after) ∧ before.length = i ∧ Dyck (brackets inner)

/-- The leftmost opening bracket without a closing one. -/
structure IsFirstUnmatched (s : List Char) (i : Nat) : Prop where
  opener : IsOpener s i
  unmatched : ¬ IsMatched s i
  first : ∀ j < i, IsOpener s j → IsMatched s j

/-- The shortest beginning of the text that no rest completes. -/
structure IsShortestDead (s p : List Char) : Prop where
  isPrefix : p <+: s
  dead : ¬ Extendable p
  shortest : ∀ q, q <+: s → ¬ Extendable q → p.length ≤ q.length

theorem closerOf?_eq_some_iff {c d : Char} : closerOf? c = some d ↔ (c, d) ∈ bracketPairs := by
  constructor
  · intro h
    unfold closerOf? at h
    split at h <;> cases h <;> decide
  · intro h
    simp only [bracketPairs, List.mem_cons, Prod.mk.injEq, List.not_mem_nil, or_false] at h
    obtain ⟨rfl, rfl⟩ | ⟨rfl, rfl⟩ | ⟨rfl, rfl⟩ := h <;> rfl

theorem Nested.append {u v : List Char} (hu : Nested u) (hv : Nested v) : Nested (u ++ v) := by
  induction hu with
  | nil => exact hv
  | other opens closes rest ih => exact .other opens closes ih
  | pair opens inside rest _ ih =>
    rw [List.append_assoc, List.cons_append]
    exact .pair opens inside ih

theorem nested_of_dyck {s : List Char} (h : Dyck s) : Nested s := by
  induction h with
  | empty => exact .nil
  | append _ _ hu hv => exact hu.append hv
  | enclose mem _ ih => exact .pair (closerOf?_eq_some_iff.mpr mem) ih .nil

theorem dyck_brackets_of_nested {s : List Char} (h : Nested s) : Dyck (brackets s) := by
  induction h with
  | nil => exact .empty
  | @other c s opens closes rest ih =>
    rw [brackets, List.filter_cons_of_neg (by simp [isBracket, opens, closes])]
    exact ih
  | @pair c d inner s opens inside rest ihinside ihrest =>
    have hc : brackets [c] = [c] := List.filter_cons_of_pos (by simp [isBracket, opens])
    have hd : brackets [d] = [d] :=
      List.filter_cons_of_pos (by simp [isBracket, (closerOf?_closer opens).2])
    have hsplit : brackets (c :: inner ++ d :: s) = c :: brackets inner ++ [d] ++ brackets s := by
      rw [brackets_append, brackets_cons c, brackets_cons d, hc, hd, List.append_assoc _ [d]]
      rfl
    rw [hsplit]
    exact .append (.enclose (closerOf?_eq_some_iff.mp opens) ihinside) ihrest

/-- The grammar, on the brackets alone, is the nesting of the whole text. -/
theorem dyck_brackets_iff {s : List Char} : Dyck (brackets s) ↔ Nested s := by
  constructor
  · intro h
    have hidem : brackets (brackets s) = brackets s := List.filter_filter.trans (by simp [brackets])
    exact (nested_iff_of_brackets_eq hidem).mp (nested_of_dyck h)
  · exact dyck_brackets_of_nested

theorem extendable_iff {p : List Char} : Extendable p ↔ ∃ rest, Nested (p ++ rest) :=
  exists_congr fun _ => dyck_brackets_iff

theorem Extendable.of_prefix {p q : List Char} (hpq : p <+: q) (h : Extendable q) :
    Extendable p := by
  obtain ⟨r, rfl⟩ := hpq
  obtain ⟨rest, hrest⟩ := h
  exact ⟨r ++ rest, List.append_assoc p r rest ▸ hrest⟩

/-- The brackets on the stack are open at the end of the text, each from its noted place on, with
nested texts between them. -/
inductive Opens : List (Char × Nat) → List Char → Prop
  | nested {s : List Char} (h : Nested s) : Opens [] s
  | opener {stack : List (Char × Nat)} {p s : List Char} {c d : Char} (before : Opens stack p)
      (opens : closerOf? c = some d) (inside : Nested s) :
      Opens ((d, p.length) :: stack) (p ++ c :: s)

namespace Opens

variable {stack : List (Char × Nat)} {p s : List Char} {c d : Char} {j : Nat}

theorem append_nested (h : Opens stack p) (hs : Nested s) : Opens stack (p ++ s) := by
  cases h with
  | nested h => exact .nested (h.append hs)
  | opener before opens inside =>
    rw [List.append_assoc]
    exact .opener before opens (inside.append hs)

theorem append_closer (h : Opens ((d, j) :: stack) p) : Opens stack (p ++ [d]) := by
  cases h with
  | opener before opens inside =>
    rw [List.append_assoc]
    exact before.append_nested (.pair opens inside .nil)

/-- The scan of a text with open brackets has them on its stack. -/
theorem balance_append (h : Opens stack p) (s : List Char) :
    balance (p ++ s) = scanBrackets stack p.length s := by
  induction h generalizing s with
  | nested h => rw [balance, scanBrackets_append h, Nat.zero_add]
  | @opener stack p u c d before opens inside ih =>
    rw [List.append_assoc, ih, List.cons_append, scanBrackets_opener opens,
      scanBrackets_append inside]
    congr 1
    rw [List.length_append, List.length_cons]
    omega

/-- The awaited brackets complete the text. -/
theorem nested_append_closers (h : Opens stack p) : Nested (p ++ stack.map Prod.fst) := by
  induction stack generalizing p with
  | nil =>
    cases h with
    | nested h => rwa [List.map_nil, List.append_nil]
  | cons top stack ih =>
    rw [List.map_cons, ← List.singleton_append, ← List.append_assoc]
    exact ih h.append_closer

theorem extendable (h : Opens stack p) : Extendable p :=
  extendable_iff.mpr ⟨_, h.nested_append_closers⟩

/-- One more character keeps some brackets open or ends the scan, whatever comes after it. -/
theorem step (h : Opens stack p) (c : Char) :
    (∃ stack', Opens stack' (p ++ [c])) ∨ ∀ r, balance (p ++ c :: r) = .broken p.length := by
  cases hopens : closerOf? c with
  | some d => exact .inl ⟨_, .opener h hopens .nil⟩
  | none =>
    cases hcloses : isCloser c with
    | false => exact .inl ⟨stack, h.append_nested (.other hopens hcloses .nil)⟩
    | true =>
      cases stack with
      | nil =>
        refine .inr fun r => ?_
        rw [h.balance_append, scanBrackets_unexpected hopens hcloses]
      | cons top stack =>
        by_cases htop : top.1 = c
        · exact .inl ⟨stack, htop ▸ h.append_closer⟩
        · refine .inr fun r => ?_
          rw [h.balance_append, scanBrackets_closer hopens hcloses, if_neg htop]

/-- The outermost open bracket stands behind a nested text. -/
theorem exists_outermost (h : Opens stack s) (hlast : stack.getLast? = some (d, j)) :
    ∃ w c r, s = w ++ c :: r ∧ closerOf? c = some d ∧ Nested w ∧ w.length = j := by
  induction h with
  | nested => cases hlast
  | @opener stack p u c e before opens inside ih =>
    cases stack with
    | nil =>
      cases before with
      | nested hp =>
        obtain ⟨rfl, rfl⟩ : e = d ∧ p.length = j := by simpa using hlast
        exact ⟨p, c, u, rfl, opens, hp, rfl⟩
    | cons top stack =>
      obtain ⟨w, b, r, rfl, hb, hw, hj⟩ := ih (by simpa using hlast)
      exact ⟨w, b, r ++ c :: u, by simp, hb, hw, hj⟩

end Opens

/-- The scan goes through the rest of the text, or up to the character that ends it. -/
theorem Opens.exists_or {stack : List (Char × Nat)} {p : List Char} (h : Opens stack p)
    (s : List Char) :
    (∃ stack', Opens stack' (p ++ s)) ∨
      ∃ u c v, s = u ++ c :: v ∧ (∃ stack', Opens stack' (p ++ u)) ∧
        ∀ r, balance (p ++ u ++ c :: r) = .broken (p ++ u).length := by
  induction s generalizing stack p with
  | nil => exact .inl ⟨stack, by rwa [List.append_nil]⟩
  | cons c s ih =>
    obtain ⟨stack', h'⟩ | hbroken := h.step c
    · obtain hopens | ⟨u, b, v, rfl, hopens, hbroken⟩ := ih h'
      · exact .inl (by rwa [List.append_assoc] at hopens)
      · rw [List.append_assoc, List.singleton_append] at hopens hbroken
        exact .inr ⟨c :: u, b, v, rfl, hopens, hbroken⟩
    · exact .inr ⟨[], c, s, rfl, ⟨stack, by rwa [List.append_nil]⟩, by rwa [List.append_nil]⟩

theorem not_extendable_of_broken {p : List Char} {c : Char} {i : Nat}
    (h : ∀ r, balance (p ++ c :: r) = .broken i) : ¬ Extendable (p ++ [c]) := by
  rintro ⟨rest, hrest⟩
  have hbalanced := balance_eq_balanced_iff.mpr (dyck_brackets_iff.mp hrest)
  rw [List.append_assoc, List.singleton_append, h] at hbalanced
  cases hbalanced

/-- The scan fails at the end of the shortest dead beginning. -/
theorem isShortestDead_of_broken {p v : List Char} {c : Char} {i : Nat} (hp : Extendable p)
    (h : ∀ r, balance (p ++ c :: r) = .broken i) : IsShortestDead (p ++ c :: v) (p ++ [c]) := by
  refine ⟨⟨v, by simp⟩, not_extendable_of_broken h, fun q hq hdead => ?_⟩
  -- a shorter beginning would be one of `p`
  by_contra hlt
  rw [List.length_append, List.length_singleton] at hlt
  exact hdead
    (hp.of_prefix (List.prefix_of_prefix_length_le hq (List.prefix_append p _) (by omega)))

/-- Inside a nested text every opening bracket has its closing one. -/
theorem Nested.exists_closer {s u v : List Char} {c d : Char} (h : Nested s)
    (hs : s = u ++ c :: v) (hc : closerOf? c = some d) :
    ∃ inner after, v = inner ++ d :: after ∧ Nested inner := by
  induction h generalizing u v with
  | nil => simp at hs
  | other opens closes rest ih =>
    cases u with
    | nil =>
      obtain ⟨rfl, -⟩ := List.cons_eq_cons.mp hs
      simp [opens] at hc
    | cons a u => exact ih (List.cons_eq_cons.mp hs).2
  | @pair a b w t opens inside rest ihinside ihrest =>
    have hb := (closerOf?_closer opens).1
    cases u with
    | nil =>
      obtain ⟨rfl, rfl⟩ := List.cons_eq_cons.mp hs
      obtain rfl : b = d := Option.some.inj (opens.symm.trans hc)
      exact ⟨w, t, rfl, inside⟩
    | cons a' u =>
      have hs : w ++ b :: t = u ++ c :: v := (List.cons_eq_cons.mp hs).2
      obtain ⟨x, rfl, hx⟩ | ⟨x, rfl, hx⟩ := List.append_eq_append_iff.mp hs
      · cases x with
        | nil =>
          obtain ⟨rfl, -⟩ := List.cons_eq_cons.mp hx
          simp [hb] at hc
        | cons e x => exact ihrest (List.cons_eq_cons.mp hx).2
      · cases x with
        | nil =>
          obtain ⟨rfl, -⟩ := List.cons_eq_cons.mp hx
          simp [hb] at hc
        | cons e x =>
          obtain ⟨rfl, rfl⟩ := List.cons_eq_cons.mp hx
          obtain ⟨inner, after, rfl, hinner⟩ := ihinside rfl
          exact ⟨inner, after ++ b :: t, by simp, hinner⟩

/-- A failure is reported at a place that is still to be scanned or on the stack. -/
theorem le_of_scanBrackets {stack : List (Char × Nat)} {i j : Nat} {s : List Char}
    (h : scanBrackets stack i s = .broken j) : i ≤ j ∨ j ∈ stack.map Prod.snd := by
  induction s generalizing stack i with
  | nil =>
    cases hlast : stack.getLast? with
    | none => simp [scanBrackets, hlast] at h
    | some top =>
      obtain rfl : top.2 = j := by simpa [scanBrackets, hlast] using h
      exact .inr (List.mem_map_of_mem (List.mem_of_getLast? hlast))
  | cons c s ih =>
    cases hopens : closerOf? c with
    | some d =>
      rw [scanBrackets_opener hopens] at h
      obtain hle | hmem := ih h
      · exact .inl (Nat.le_of_succ_le hle)
      · obtain rfl | hmem := List.mem_cons.mp hmem
        · exact .inl (Nat.le_refl _)
        · exact .inr hmem
    | none =>
      cases hcloses : isCloser c with
      | false =>
        rw [scanBrackets_other hopens hcloses] at h
        exact (ih h).imp_left Nat.le_of_succ_le
      | true =>
        cases stack with
        | nil =>
          rw [scanBrackets_unexpected hopens hcloses] at h
          cases h
          exact .inl (Nat.le_refl _)
        | cons top stack =>
          rw [scanBrackets_closer hopens hcloses] at h
          split at h
          · exact (ih h).imp Nat.le_of_succ_le (List.mem_cons_of_mem _)
          · cases h
            exact .inl (Nat.le_refl _)

/-- The outermost open bracket is the first without a closing one. -/
theorem Opens.isFirstUnmatched {stack : List (Char × Nat)} {s : List Char} {d : Char} {j : Nat}
    (h : Opens stack s) (hlast : stack.getLast? = some (d, j)) : IsFirstUnmatched s j := by
  have hbroken : balance s = .broken j := by
    rw [← List.append_nil s, h.balance_append, scanBrackets, hlast]
  obtain ⟨w, c, r, rfl, hc, hw, rfl⟩ := h.exists_outermost hlast
  refine ⟨⟨(c, d), closerOf?_eq_some_iff.mp hc, by simp⟩, ?_, fun i hi hopener => ?_⟩
  · rintro ⟨before, inner, after, p, hp, hs, hlength, hinner⟩
    -- behind the matching bracket the stack is empty, and only later places can be reported
    obtain ⟨rfl, hs⟩ := List.append_inj hs hlength.symm
    have hpair := Nested.pair (closerOf?_eq_some_iff.mpr hp) (dyck_brackets_iff.mp hinner) .nil
    rw [hs] at hbroken
    have hsplit : w ++ p.1 :: (inner ++ p.2 :: after) = w ++ (p.1 :: inner ++ [p.2]) ++ after := by
      simp
    rw [hsplit, (Opens.nested (hw.append hpair)).balance_append] at hbroken
    obtain hle | hmem := le_of_scanBrackets hbroken
    · simp only [List.length_append, List.length_cons] at hle
      omega
    · cases hmem
  · obtain ⟨p, hp, hi'⟩ := hopener
    rw [List.getElem?_append_left hi] at hi'
    obtain ⟨hlt, hi'⟩ := List.getElem?_eq_some_iff.mp hi'
    have hsplit : w = w.take i ++ p.1 :: w.drop (i + 1) := by
      rw [← hi', List.getElem_cons_drop, List.take_append_drop]
    obtain ⟨inner, after, hdrop, hinner⟩ :=
      hw.exists_closer hsplit (closerOf?_eq_some_iff.mpr hp)
    refine ⟨w.take i, inner, after ++ c :: r, p, hp, ?_, ?_, dyck_brackets_iff.mpr hinner⟩
    · conv_lhs => rw [hsplit, hdrop]
      simp
    · rw [List.length_take, Nat.min_eq_left (Nat.le_of_lt hi)]

/-- The scan accepts the texts whose brackets are generated by the grammar. It reports the last
character of the shortest beginning that nothing completes; if every beginning can be completed, it
reports the leftmost opening bracket without a closing one. -/
theorem balance_locates (s : List Char) :
    (balance s = .balanced ↔ Dyck (brackets s)) ∧
      ((∃ p, p <+: s ∧ ¬ Extendable p) →
        ∃ p c, IsShortestDead s (p ++ [c]) ∧ balance s = .broken p.length) ∧
      (¬ Dyck (brackets s) → (∀ p, p <+: s → Extendable p) →
        ∃ i, IsFirstUnmatched s i ∧ balance s = .broken i) := by
  have hgrammar : balance s = .balanced ↔ Dyck (brackets s) :=
    balance_eq_balanced_iff.trans dyck_brackets_iff.symm
  refine ⟨hgrammar, ?_⟩
  obtain ⟨stack, hopens⟩ | ⟨p, c, v, rfl, ⟨stack, hopens⟩, hbroken⟩ :=
    (Opens.nested .nil).exists_or s
  · rw [List.nil_append] at hopens
    refine ⟨fun ⟨p, hp, hdead⟩ => absurd (hopens.extendable.of_prefix hp) hdead, fun hnot _ => ?_⟩
    have hscan : balance s = scanBrackets stack s.length [] := by
      rw [← hopens.balance_append, List.append_nil]
    cases hlast : stack.getLast? with
    | none =>
      rw [scanBrackets, hlast] at hscan
      exact absurd (hgrammar.mp hscan) hnot
    | some top =>
      rw [scanBrackets, hlast] at hscan
      exact ⟨top.2, hopens.isFirstUnmatched hlast, hscan⟩
  · rw [List.nil_append] at hopens hbroken
    have hdead := isShortestDead_of_broken (v := v) hopens.extendable hbroken
    exact ⟨fun _ => ⟨p, c, hdead, hbroken v⟩,
      fun _ hall => absurd (hall _ hdead.isPrefix) hdead.dead⟩

theorem balance_locates_crossedAndOpen :
    (∃ p c, IsShortestDead "(a]b".toList (p ++ [c]) ∧ p.length = 2) ∧
      IsFirstUnmatched "(a)[{x}".toList 3 := by
  have hdead : ¬ Extendable "(a]".toList :=
    not_extendable_of_broken (p := "(a".toList) (i := 2) fun _ => rfl
  have hextendable : ∀ p, p <+: "(a)[{x}".toList → Extendable p := fun p hp =>
    Extendable.of_prefix hp ⟨"]".toList, dyck_brackets_iff.mpr
      (balance_eq_balanced_iff.mp (by decide))⟩
  constructor
  · obtain ⟨p, c, hshortest, hbroken⟩ :=
      (balance_locates "(a]b".toList).2.1 ⟨_, by decide, hdead⟩
    have hposition : Balance.broken 2 = .broken p.length := hbroken
    exact ⟨p, c, hshortest, (Balance.broken.inj hposition).symm⟩
  · obtain ⟨hgrammar, -, hopen⟩ := balance_locates "(a)[{x}".toList
    obtain ⟨i, hfirst, hbroken⟩ := hopen (hgrammar.not.mp (by decide)) hextendable
    have hposition : Balance.broken 3 = .broken i := hbroken
    exact Balance.broken.inj hposition ▸ hfirst

end Simultaneous.Text
