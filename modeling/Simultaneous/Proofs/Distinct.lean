import Mathlib.Data.List.Induction
import Mathlib.Data.List.Basic

/-!
A list without its repetitions keeps each element where it stands first.
-/

namespace Simultaneous.Distinct

variable {α : Type} [DecidableEq α]

theorem eraseDups_concat (xs : List α) (x : α) :
    (xs ++ [x]).eraseDups = if x ∈ xs then xs.eraseDups else xs.eraseDups ++ [x] := by
  rw [List.eraseDups_append]
  by_cases h : x ∈ xs <;> simp [List.removeAll, List.eraseDups_cons, h]

/-- The elements follow each other as their first occurrences do. -/
theorem pairwise_eraseDups (xs : List α) :
    xs.eraseDups.Pairwise fun x y => xs.idxOf x < xs.idxOf y := by
  induction xs using List.reverseRecOn with
  | nil => simp
  | append_singleton xs z ih =>
    have hold : ∀ x ∈ xs, (xs ++ [z]).idxOf x = xs.idxOf x :=
      fun x hx => List.idxOf_append_of_mem hx
    have hkept : xs.eraseDups.Pairwise fun x y => (xs ++ [z]).idxOf x < (xs ++ [z]).idxOf y := by
      apply ih.imp_of_mem
      intro x y hx hy hlt
      rwa [hold x (List.mem_eraseDups.mp hx), hold y (List.mem_eraseDups.mp hy)]
    rw [eraseDups_concat]
    split
    · exact hkept
    next hz =>
      apply List.pairwise_append.mpr ⟨hkept, List.pairwise_singleton _ _, ?_⟩
      intro x hx y hy
      obtain rfl := List.mem_singleton.mp hy
      have hx := List.mem_eraseDups.mp hx
      rw [hold x hx, List.idxOf_append_of_notMem hz]
      exact Nat.lt_add_right _ (List.idxOf_lt_length_of_mem hx)

theorem nodup_eraseDups (xs : List α) : xs.eraseDups.Nodup :=
  (pairwise_eraseDups xs).imp fun hlt heq => by simp [heq] at hlt

theorem eraseDups_filter (p : α → Bool) (xs : List α) :
    (xs.filter p).eraseDups = xs.eraseDups.filter p := by
  induction xs using List.reverseRecOn with
  | nil => rfl
  | append_singleton xs z ih =>
    rw [List.filter_append, eraseDups_concat]
    by_cases hp : p z
    · rw [List.filter_cons_of_pos hp, List.filter_nil, eraseDups_concat, ih]
      by_cases hz : z ∈ xs <;> simp [hz, hp]
    · rw [List.filter_cons_of_neg hp, List.filter_nil, List.append_nil, ih]
      by_cases hz : z ∈ xs <;> simp [hz, hp]

/-- First occurrences keep their order among the elements that are kept. -/
theorem idxOf_filter_lt_iff {p : α → Bool} {u v : α} (hu : p u = true) (hv : p v = true)
    (xs : List α) :
    (xs.filter p).idxOf u < (xs.filter p).idxOf v ↔ xs.idxOf u < xs.idxOf v := by
  induction xs with
  | nil => rfl
  | cons x xs ih =>
    cases hx : p x with
    | false =>
      have hne : ∀ w, p w = true → (x == w) = false := fun w hw =>
        beq_eq_false_iff_ne.mpr fun h => by rw [h, hw] at hx; cases hx
      simp [hx, ih, List.idxOf_cons, hne u hu, hne v hv]
    | true =>
      simp only [List.filter_cons, hx, if_true, List.idxOf_cons]
      cases x == u <;> cases x == v <;> simp [ih]

theorem eraseDups_of_nodup {xs : List α} (h : xs.Nodup) : xs.eraseDups = xs := by
  induction xs with
  | nil => rfl
  | cons x xs ih =>
    obtain ⟨hx, hxs⟩ := List.nodup_cons.mp h
    have hrest : xs.filter (fun y => !y == x) = xs := by
      apply List.filter_eq_self.mpr
      rintro y hy
      simpa using ne_of_mem_of_not_mem hy hx
    rw [List.eraseDups_cons, hrest, ih hxs]

theorem eraseDups_eq_nil_iff {xs : List α} : xs.eraseDups = [] ↔ xs = [] := by
  simp only [List.eq_nil_iff_forall_not_mem, List.mem_eraseDups]

/-- Whether repetitions are removed before lists are joined makes no difference after it. -/
theorem eraseDups_append_congr {xs xs' ys ys' : List α} (hx : xs.eraseDups = xs'.eraseDups)
    (hy : ys.eraseDups = ys'.eraseDups) : (xs ++ ys).eraseDups = (xs' ++ ys').eraseDups := by
  have hmem : ∀ x, x ∈ xs ↔ x ∈ xs' := by
    intro x
    rw [← List.mem_eraseDups, hx, List.mem_eraseDups]
  have helem : (fun y => !xs.elem y) = fun y => !xs'.elem y := by
    funext y
    simp [hmem]
  rw [List.eraseDups_append, List.eraseDups_append, List.removeAll, List.removeAll,
    eraseDups_filter, eraseDups_filter, hx, hy, helem]

theorem eraseDups_flatMap_eraseDups {β : Type} (f : β → List α) (xs : List β) :
    (xs.flatMap fun x => (f x).eraseDups).eraseDups = (xs.flatMap f).eraseDups := by
  induction xs with
  | nil => rfl
  | cons x xs ih =>
    rw [List.flatMap_cons, List.flatMap_cons]
    exact eraseDups_append_congr (eraseDups_of_nodup (nodup_eraseDups (f x))) ih

end Simultaneous.Distinct
