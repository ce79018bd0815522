import Simultaneous.Proofs.Algebra.Sorting
import Simultaneous.Algebra.Order

/-!
The symbols and constants of a tree. The order of writing brings no others in, and no higher trees.
-/

namespace Simultaneous.Algebra.Expr

mutual

/-- The symbols and constants in a tree. -/
def leaves : Expr → List Expr
  | num _ => []
  | sym s => [sym s]
  | const c => [const c]
  | sum xs | product xs | call _ xs => leavesOf xs
  | power b x => b.leaves ++ x.leaves

def leavesOf : List Expr → List Expr
  | [] => []
  | x :: xs => x.leaves ++ leavesOf xs

end

variable {x y l : Expr} {xs : List Expr}

theorem leavesOf_cons (x : Expr) (xs : List Expr) : leavesOf (x :: xs) = x.leaves ++ leavesOf xs :=
  rfl

theorem heightOf_cons (x : Expr) (xs : List Expr) :
    heightOf (x :: xs) = max x.height (heightOf xs) := rfl

theorem leavesOf_singleton (x : Expr) : leavesOf [x] = x.leaves := List.append_nil _

theorem heightOf_singleton (x : Expr) : heightOf [x] = x.height := Nat.max_zero _

theorem mem_leavesOf : l ∈ leavesOf xs ↔ ∃ x ∈ xs, l ∈ x.leaves := by
  induction xs with
  | nil => simp [leavesOf]
  | cons x xs ih => simp [leavesOf_cons, ih]

mutual

theorem mem_symbols_iff {s : String} : ∀ x : Expr, s ∈ x.symbols ↔ sym s ∈ x.leaves
  | num _ | sym _ | const _ => by simp [symbols, leaves]
  | sum xs | product xs | call _ xs => by rw [symbols, leaves, mem_symbolsOf_iff xs]
  | power b x => by
    rw [symbols, leaves, List.mem_append, List.mem_append, mem_symbols_iff b, mem_symbols_iff x]

theorem mem_symbolsOf_iff {s : String} : ∀ xs : List Expr, s ∈ symbolsOf xs ↔ sym s ∈ leavesOf xs
  | [] => by simp [symbolsOf, leavesOf]
  | x :: xs => by
    rw [symbolsOf, leavesOf, List.mem_append, List.mem_append, mem_symbols_iff x,
      mem_symbolsOf_iff xs]

end

mutual

theorem eq_of_mem_leaves : ∀ {x : Expr}, l ∈ x.leaves → (∃ s, l = sym s) ∨ ∃ c, l = const c
  | sym s, h => .inl ⟨s, List.mem_singleton.mp h⟩
  | const c, h => .inr ⟨c, List.mem_singleton.mp h⟩
  | sum _, h | product _, h | call _ _, h => eq_of_mem_leavesOf h
  | power _ _, h => (List.mem_append.mp h).elim eq_of_mem_leaves eq_of_mem_leaves

theorem eq_of_mem_leavesOf :
    ∀ {xs : List Expr}, l ∈ leavesOf xs → (∃ s, l = sym s) ∨ ∃ c, l = const c
  | _ :: _, h => (List.mem_append.mp h).elim eq_of_mem_leaves eq_of_mem_leavesOf

end

/-- A tree that is no higher than all of some trees, with no other leaves than theirs. -/
structure Below (x : Expr) (xs : List Expr) : Prop where
  height_le : x.height ≤ heightOf xs
  leaves_subset : ∀ l ∈ x.leaves, l ∈ leavesOf xs

theorem Below.of_mem (h : x ∈ xs) : Below x xs where
  height_le := by
    induction xs with
    | nil => cases h
    | cons y xs ih =>
      rw [heightOf_cons]
      obtain rfl | h := List.mem_cons.mp h
      · exact Nat.le_max_left _ _
      · exact (ih h).trans (Nat.le_max_right _ _)
  leaves_subset _ hl := mem_leavesOf.mpr ⟨x, h, hl⟩

theorem below_num (n : Number) (xs : List Expr) : Below (num n) xs :=
  ⟨Nat.zero_le _, fun _ hl => absurd hl List.not_mem_nil⟩

theorem Below.trans {ys : List Expr} (h : Below x ys) (hys : ∀ y ∈ ys, Below y xs) :
    Below x xs where
  height_le := by
    refine h.height_le.trans ?_
    clear h
    induction ys with
    | nil => exact Nat.zero_le _
    | cons y ys ih =>
      rw [heightOf_cons]
      exact Nat.max_le.mpr ⟨(hys y List.mem_cons_self).height_le,
        ih fun z hz => hys z (List.mem_cons_of_mem _ hz)⟩
  leaves_subset l hl := by
    obtain ⟨y, hy, hl⟩ := mem_leavesOf.mp (h.leaves_subset l hl)
    exact (hys y hy).leaves_subset l hl

theorem Below.cons (h : Below x xs) (y : Expr) : Below x (y :: xs) :=
  h.trans fun _ hz => .of_mem (List.mem_cons_of_mem y hz)

theorem below_of_mem_factors (h : x ∈ y.factors) : Below x [y] := by
  unfold factors at h
  split at h
  next xs =>
    obtain ⟨hheight, hleaves⟩ := Below.of_mem h
    refine ⟨?_, fun l hl => ?_⟩
    · rw [heightOf_singleton]
      exact Nat.le_succ_of_le hheight
    · rw [leavesOf_singleton]
      exact hleaves l hl
  next => exact .of_mem h

theorem below_of_mem_rawProduct (h : x ∈ (rawProduct xs).factors) : Below x xs := by
  unfold rawProduct at h
  split at h
  · obtain rfl := List.mem_singleton.mp h
    exact below_num _ _
  · exact below_of_mem_factors h
  · exact .of_mem h

/-- Another number in front of a product brings in nothing else. -/
theorem below_of_mem_scale {q : Rat} (h : x ∈ ((product xs).scale q).factors) : Below x xs := by
  unfold scale at h
  split at h
  next => contradiction
  next hproduct =>
    cases hproduct
    exact .of_mem h
  next n ys _ hproduct =>
    cases hproduct
    dsimp only at h
    split at h
    · exact (below_of_mem_rawProduct h).cons _
    · obtain rfl | h := List.mem_cons.mp h
      · exact below_num _ _
      · exact .of_mem (List.mem_cons_of_mem _ h)
  next hproduct =>
    cases hproduct
    split at h
    · exact .of_mem h
    · obtain rfl | h := List.mem_cons.mp h
      · exact below_num _ _
      · exact .of_mem h
  next hproduct => exact absurd rfl (hproduct xs)

theorem constantFirst?_subset {ts us : List Expr} (h : constantFirst? ts = some us) : us ⊆ ts := by
  unfold constantFirst? at h
  split at h
  next a b =>
    dsimp only at h
    -- the two terms may change places first
    split_ifs at h
    all_goals
      split at h
      · split_ifs at h
        cases h
        simp
      · cases h
  next => cases h

theorem orderedTerms_subset (ts : List Expr) : orderedTerms ts ⊆ ts := by
  rw [orderedTerms, orderedWithin]
  split
  next us h => exact constantFirst?_subset h
  · intro t ht
    obtain ⟨p, hp, rfl⟩ := List.mem_map.mp ht
    obtain ⟨u, hu, rfl⟩ := List.mem_map.mp (mem_sortBy.mp hp)
    exact hu

theorem orderedFactors_subset (fs : List Expr) : orderedFactors fs ⊆ fs := by
  intro f hf
  rw [orderedFactors] at hf
  obtain ⟨p, hp, rfl⟩ := List.mem_map.mp hf
  obtain ⟨g, hg, rfl⟩ := List.mem_map.mp (mem_sortBy.mp hp)
  exact hg

theorem below_of_mem_orderedTerms (h : x ∈ orderedTerms xs) : Below x xs :=
  .of_mem (orderedTerms_subset xs h)

end Simultaneous.Algebra.Expr
