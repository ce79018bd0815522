import Mathlib.Data.List.Basic
import Simultaneous.Text.Brackets

/-!
Properly nested brackets. The scan with a stack accepts just the texts whose brackets are properly
nested, and looks at nothing but their brackets.
-/

namespace Simultaneous.Text

/-- Every opening bracket has its closing one after it, and what stands between them is nested
too. -/
inductive Nested : List Char → Prop
  | nil : Nested []
  | other {c : Char} {s : List Char} (opens : closerOf? c = none) (closes : isCloser c = false)
      (rest : Nested s) : Nested (c :: s)
  | pair {c d : Char} {inner s : List Char} (opens : closerOf? c = some d) (inside : Nested inner)
      (rest : Nested s) : Nested (c :: inner ++ d :: s)

theorem closerOf?_closer {c d : Char} (h : closerOf? c = some d) :
    closerOf? d = none ∧ isCloser d = true := by
  unfold closerOf? at h
  split at h <;> cases h <;> decide

section

variable {stack : List (Char × Nat)} {i : Nat} {c d : Char} {s : List Char}

theorem scanBrackets_cons : scanBrackets stack i (c :: s) =
    match closerOf? c with
    | some d => scanBrackets ((d, i) :: stack) (i + 1) s
    | none =>
      if isCloser c then match stack with
        | [] => .broken i
        | (d, _) :: rest => if d = c then scanBrackets rest (i + 1) s else .broken i
      else scanBrackets stack (i + 1) s := rfl

theorem scanBrackets_opener (opens : closerOf? c = some d) :
    scanBrackets stack i (c :: s) = scanBrackets ((d, i) :: stack) (i + 1) s := by
  rw [scanBrackets_cons, opens]

theorem scanBrackets_other (opens : closerOf? c = none) (closes : isCloser c = false) :
    scanBrackets stack i (c :: s) = scanBrackets stack (i + 1) s := by
  simp [scanBrackets_cons, opens, closes]

theorem scanBrackets_unexpected (opens : closerOf? c = none) (closes : isCloser c = true) :
    scanBrackets [] i (c :: s) = .broken i := by
  simp [scanBrackets_cons, opens, closes]

theorem scanBrackets_closer {j : Nat} (opens : closerOf? c = none) (closes : isCloser c = true) :
    scanBrackets ((d, j) :: stack) i (c :: s) =
      if d = c then scanBrackets stack (i + 1) s else .broken i := by
  simp [scanBrackets_cons, opens, closes]

theorem scanBrackets_left (top : Char × Nat) :
    scanBrackets (top :: stack) i [] ≠ .balanced := by
  simp [scanBrackets, List.getLast?_cons]

end

/-- A text that closes the awaited brackets in their order, nested texts standing between them. -/
def Closes : List Char → List Char → Prop
  | [], s => Nested s
  | d :: ds, s => ∃ inner rest, s = inner ++ d :: rest ∧ Nested inner ∧ Closes ds rest

theorem closes_cons {ds s : List Char} {c : Char} (opens : closerOf? c = none)
    (closes : isCloser c = false) (h : Closes ds s) : Closes ds (c :: s) := by
  cases ds with
  | nil => exact .other opens closes h
  | cons d ds =>
    obtain ⟨inner, rest, rfl, hinner, hrest⟩ := h
    exact ⟨c :: inner, rest, rfl, .other opens closes hinner, hrest⟩

theorem closes_pair {ds inner s : List Char} {c d : Char} (opens : closerOf? c = some d)
    (inside : Nested inner) (h : Closes ds s) : Closes ds (c :: inner ++ d :: s) := by
  cases ds with
  | nil => exact .pair opens inside h
  | cons e ds =>
    obtain ⟨between, rest, rfl, hbetween, hrest⟩ := h
    exact ⟨c :: inner ++ d :: between, rest, by simp, .pair opens inside hbetween, hrest⟩

theorem closes_of_scanBrackets {stack : List (Char × Nat)} {i : Nat} {s : List Char}
    (h : scanBrackets stack i s = .balanced) : Closes (stack.map Prod.fst) s := by
  -- The stack holds the brackets that are still to come, the innermost first.
  induction s generalizing stack i with
  | nil =>
    cases stack with
    | nil => exact .nil
    | cons top stack => exact absurd h (scanBrackets_left top)
  | cons c s ih =>
    cases hopens : closerOf? c with
    | some d =>
      rw [scanBrackets_opener hopens] at h
      obtain ⟨inner, rest, rfl, hinner, hrest⟩ := ih h
      exact closes_pair hopens hinner hrest
    | none =>
      cases hcloses : isCloser c with
      | false =>
        rw [scanBrackets_other hopens hcloses] at h
        exact closes_cons hopens hcloses (ih h)
      | true =>
        cases stack with
        | nil => rw [scanBrackets_unexpected hopens hcloses] at h; cases h
        | cons top stack =>
          rw [scanBrackets_closer hopens hcloses] at h
          split at h
          next htop => exact ⟨[], s, by rw [List.nil_append, ← htop], .nil, ih h⟩
          next => cases h

/-- A nested text leaves the stack as it was. -/
theorem scanBrackets_append {u : List Char} (h : Nested u) (stack : List (Char × Nat)) (i : Nat)
    (s : List Char) : scanBrackets stack i (u ++ s) = scanBrackets stack (i + u.length) s := by
  induction h generalizing stack i s with
  | nil => rfl
  | other opens closes rest ih =>
    rw [List.cons_append, scanBrackets_other opens closes, ih, List.length_cons,
      Nat.add_right_comm, Nat.add_assoc]
  | pair opens inside rest ihinside ihrest =>
    obtain ⟨hopens, hcloses⟩ := closerOf?_closer opens
    rw [List.append_assoc, List.cons_append, scanBrackets_opener opens, ihinside, List.cons_append,
      scanBrackets_closer hopens hcloses, if_pos rfl, ihrest]
    congr 1
    simp only [List.length_append, List.length_cons]
    omega

/-- The scan with a stack decides whether the brackets are properly nested. -/
theorem balance_eq_balanced_iff {s : List Char} : balance s = .balanced ↔ Nested s := by
  constructor
  · exact closes_of_scanBrackets
  · intro h
    rw [← List.append_nil s, balance, scanBrackets_append h]
    rfl

def isBracket (c : Char) : Bool := (closerOf? c).isSome || isCloser c

/-- The brackets of a text in their order. -/
def brackets (s : List Char) : List Char := s.filter isBracket

theorem brackets_append (s t : List Char) : brackets (s ++ t) = brackets s ++ brackets t :=
  List.filter_append s t

theorem brackets_cons (c : Char) (s : List Char) :
    brackets (c :: s) = brackets [c] ++ brackets s := brackets_append [c] s

theorem mem_of_isBracket {c : Char} (h : isBracket c = true) :
    c ∈ ['(', ')', '[', ']', '{', '}'] := by
  simp only [isBracket, isCloser, Bool.or_eq_true, beq_iff_eq] at h
  unfold closerOf? at h
  split at h <;> simp_all [or_assoc]

/-- Where brackets stand has no influence on whether they are balanced. -/
theorem scanBrackets_brackets {stack stack' : List (Char × Nat)} {i j : Nat} {s : List Char}
    (hstack : stack.map Prod.fst = stack'.map Prod.fst) :
    scanBrackets stack i s = .balanced ↔ scanBrackets stack' j (brackets s) = .balanced := by
  -- Positions are only reported, so the stacks need to agree in their brackets alone.
  induction s generalizing stack stack' i j with
  | nil =>
    cases stack with
    | nil => rw [List.map_eq_nil_iff.mp hstack.symm]; exact Iff.rfl
    | cons top stack =>
      obtain ⟨top', stack', rfl, -, -⟩ := List.map_eq_cons_iff.mp hstack.symm
      exact iff_of_false (scanBrackets_left top) (scanBrackets_left top')
  | cons c s ih =>
    cases hopens : closerOf? c with
    | some d =>
      have hkeep : brackets (c :: s) = c :: brackets s :=
        List.filter_cons_of_pos (by simp [isBracket, hopens])
      rw [hkeep, scanBrackets_opener hopens, scanBrackets_opener hopens]
      exact ih (by simp [hstack])
    | none =>
      cases hcloses : isCloser c with
      | false =>
        have hskip : brackets (c :: s) = brackets s :=
          List.filter_cons_of_neg (by simp [isBracket, hopens, hcloses])
        rw [hskip, scanBrackets_other hopens hcloses]
        exact ih hstack
      | true =>
        have hkeep : brackets (c :: s) = c :: brackets s :=
          List.filter_cons_of_pos (by simp [isBracket, hcloses])
        rw [hkeep]
        cases stack with
        | nil =>
          rw [List.map_eq_nil_iff.mp hstack.symm, scanBrackets_unexpected hopens hcloses,
            scanBrackets_unexpected hopens hcloses]
          simp
        | cons top stack =>
          obtain ⟨top', stack', rfl, htop, hrest⟩ := List.map_eq_cons_iff.mp hstack.symm
          rw [scanBrackets_closer hopens hcloses, scanBrackets_closer hopens hcloses, htop]
          split
          · exact ih hrest.symm
          · simp

theorem balance_brackets (s : List Char) :
    balance s = .balanced ↔ balance (brackets s) = .balanced := scanBrackets_brackets rfl

theorem nested_iff_of_brackets_eq {s t : List Char} (h : brackets s = brackets t) :
    Nested s ↔ Nested t := by
  rw [← balance_eq_balanced_iff, ← balance_eq_balanced_iff, balance_brackets s, h,
    ← balance_brackets t]

end Simultaneous.Text
