import Mathlib.Data.List.Induction
import Mathlib.Data.List.Sort
import Simultaneous.Algebra.Sorting

/-!
A sorted list has the elements of the list it was sorted from, in order; and where the order is
total, runs of equal elements joined to one leave each element once.
-/

namespace Simultaneous.Algebra

variable {α : Type} {before : α → α → Bool}

theorem merge_eq (xs ys : List α) : merge before xs ys = xs.merge ys fun a b => !before b a := by
  induction xs generalizing ys with
  | nil => rw [merge, List.nil_merge]
  | cons x xs ih =>
    induction ys with
    | nil => rw [merge, mergeInto, List.merge_right]
    | cons y ys ihys =>
      rw [merge] at ihys
      rw [merge, mergeInto, List.cons_merge_cons]
      cases before y x
      · simp [ih]
      · simp [ihys]

theorem mergePairs_cons_cons (a b : List α) (rest : List (List α)) :
    mergePairs before (a :: b :: rest) = merge before a b :: mergePairs before rest := rfl

theorem mergePairs_perm (runs : List (List α)) :
    (mergePairs before runs).flatten.Perm runs.flatten := by
  induction runs using List.twoStepInduction with
  | nil | singleton a => exact .refl _
  | cons_cons a b rest ih =>
    rw [mergePairs_cons_cons, List.flatten_cons, List.flatten_cons, List.flatten_cons, merge_eq,
      ← List.append_assoc]
    exact (List.merge_perm_append _).append ih

theorem mergeAll_nil (fuel : Nat) : mergeAll before fuel [] = [] := by
  cases fuel <;> rfl

theorem mergeAll_singleton (fuel : Nat) (xs : List α) : mergeAll before fuel [xs] = xs := by
  cases fuel <;> rfl

theorem mergeAll_perm (fuel : Nat) (runs : List (List α)) :
    (mergeAll before fuel runs).Perm runs.flatten := by
  induction fuel generalizing runs with
  | zero =>
    match runs with
    | [] => rw [mergeAll_nil, List.flatten_nil]
    | [xs] => rw [mergeAll_singleton, List.flatten_singleton]
    | _ :: _ :: _ => exact .refl _
  | succ fuel ih =>
    match runs with
    | [] => rw [mergeAll_nil, List.flatten_nil]
    | [xs] => rw [mergeAll_singleton, List.flatten_singleton]
    | a :: b :: rest => exact (ih _).trans (mergePairs_perm (a :: b :: rest))

/-- Sorting keeps the elements. -/
theorem sortBy_perm (xs : List α) : (sortBy before xs).Perm xs := by
  have hflatten : (xs.map fun x => [x]).flatten = xs := by
    induction xs with
    | nil => rfl
    | cons x xs ih => rw [List.map_cons, List.flatten_cons, ih, List.singleton_append]
  exact (mergeAll_perm _ _).trans (.of_eq hflatten)

@[simp] theorem mem_sortBy {x : α} {xs : List α} : x ∈ sortBy before xs ↔ x ∈ xs :=
  (sortBy_perm xs).mem_iff

section

variable (htrans : ∀ a b c, before b a = false → before c b = false → before c a = false)
  (htotal : ∀ a b, before b a = false ∨ before a b = false)

include htrans htotal

theorem merge_pairwise {xs ys : List α} (hxs : xs.Pairwise fun a b => before b a = false)
    (hys : ys.Pairwise fun a b => before b a = false) :
    (merge before xs ys).Pairwise fun a b => before b a = false := by
  have h : (xs.merge ys fun a b => !before b a).Pairwise fun a b => (!before b a) = true :=
    List.pairwise_merge (by simpa using htrans) (by simpa using htotal) xs ys (by simpa using hxs)
      (by simpa using hys)
  rw [merge_eq]
  simpa using h

theorem mergePairs_pairwise {runs : List (List α)}
    (h : ∀ run ∈ runs, run.Pairwise fun a b => before b a = false) :
    ∀ run ∈ mergePairs before runs, run.Pairwise fun a b => before b a = false := by
  induction runs using List.twoStepInduction with
  | nil | singleton a => exact h
  | cons_cons a b rest ih =>
    rw [mergePairs_cons_cons]
    intro run hrun
    obtain rfl | hrun := List.mem_cons.mp hrun
    · exact merge_pairwise htrans htotal (h a (by simp)) (h b (by simp))
    · exact ih (fun r hr => h r (by simp [hr])) run hrun

omit htrans htotal in
theorem length_mergePairs (runs : List (List α)) :
    (mergePairs before runs).length = (runs.length + 1) / 2 := by
  induction runs using List.twoStepInduction with
  | nil | singleton a => simp [mergePairs]
  | cons_cons a b rest ih =>
    rw [mergePairs_cons_cons, List.length_cons, ih, List.length_cons, List.length_cons]
    omega

/-- Each round halves the number of runs, so that one run is left when the rounds are over. -/
theorem mergeAll_pairwise {fuel : Nat} {runs : List (List α)} (hfuel : runs.length ≤ fuel + 1)
    (h : ∀ run ∈ runs, run.Pairwise fun a b => before b a = false) :
    (mergeAll before fuel runs).Pairwise fun a b => before b a = false := by
  induction fuel generalizing runs with
  | zero =>
    match runs, hfuel with
    | [], _ => exact .nil
    | [xs], _ => exact h xs (List.mem_singleton.mpr rfl)
  | succ fuel ih =>
    match runs, hfuel with
    | [], _ => exact .nil
    | [xs], _ => exact h xs (List.mem_singleton.mpr rfl)
    | a :: b :: rest, hfuel =>
      have hlength : (mergePairs before (a :: b :: rest)).length ≤ fuel + 1 := by
        rw [length_mergePairs]
        omega
      exact ih hlength (mergePairs_pairwise htrans htotal h)

/-- Sorting puts the elements in order. -/
theorem sortBy_pairwise (xs : List α) : (sortBy before xs).Pairwise fun a b => before b a = false :=
  mergeAll_pairwise htrans htotal (by rw [List.length_map]; exact Nat.le_succ _) fun run hrun => by
    obtain ⟨x, -, rfl⟩ := List.mem_map.mp hrun
    exact List.pairwise_singleton _ _

end

theorem joinRuns_cons (same : α → α → Bool) (join : α → α → α) (x : α) (xs : List α) :
    joinRuns same join (x :: xs) =
      match joinRuns same join xs with
      | [] => [x]
      | y :: ys => if same x y then join x y :: ys else x :: y :: ys := rfl

section

variable [DecidableEq α]

theorem mem_joinRuns {x : α} {xs : List α} : x ∈ joinRuns (· == ·) (fun a _ => a) xs ↔ x ∈ xs := by
  induction xs with
  | nil => rfl
  | cons y ys ih =>
    rw [joinRuns_cons, List.mem_cons, ← ih]
    rcases joinRuns (· == ·) (fun a _ => a) ys with _ | ⟨z, zs⟩
    · simp
    · by_cases hyz : y = z <;> simp [hyz]

theorem joinRuns_sublist (xs : List α) : (joinRuns (· == ·) (fun a _ => a) xs).Sublist xs := by
  induction xs with
  | nil => exact .slnil
  | cons y ys ih =>
    rw [joinRuns_cons]
    rcases hys : joinRuns (· == ·) (fun a _ => a) ys with _ | ⟨z, zs⟩ <;> rw [hys] at ih
    · exact .cons_cons y ih
    · by_cases hyz : y = z
      · subst hyz
        simpa using ih.cons y
      · simpa [hyz] using ih

/-- In order, equal elements stand in one run. -/
theorem nodup_joinRuns {r : α → α → Prop} (hantisymm : ∀ a b, r a b → r b a → a = b) {xs : List α}
    (h : xs.Pairwise r) : (joinRuns (· == ·) (fun a _ => a) xs).Nodup := by
  induction xs with
  | nil => exact .nil
  | cons y ys ih =>
    obtain ⟨hy, hys⟩ := List.pairwise_cons.mp h
    have hnodup := ih hys
    have hsorted : (joinRuns (· == ·) (fun a _ => a) ys).Pairwise r :=
      hys.sublist (joinRuns_sublist ys)
    have hfirst : ∀ z ∈ joinRuns (· == ·) (fun a _ => a) ys, r y z :=
      fun z hz => hy z (mem_joinRuns.mp hz)
    rw [joinRuns_cons]
    rcases hjoin : joinRuns (· == ·) (fun a _ => a) ys with _ | ⟨z, zs⟩ <;>
      rw [hjoin] at hnodup hsorted hfirst
    · exact List.nodup_singleton y
    by_cases hyz : y = z
    · subst hyz
      simpa using hnodup
    · simp only [beq_iff_eq, hyz, if_false]
      refine List.nodup_cons.mpr ⟨fun hmem => ?_, hnodup⟩
      obtain rfl | hmem := List.mem_cons.mp hmem
      · exact hyz rfl
      · exact hyz (hantisymm y z (hfirst z (by simp))
          ((List.pairwise_cons.mp hsorted).1 y hmem))

end

end Simultaneous.Algebra
