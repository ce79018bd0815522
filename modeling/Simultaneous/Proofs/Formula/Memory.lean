import Simultaneous.Formula.Parse
import Simultaneous.Proofs.Distinct
import Simultaneous.Proofs.Formula.Admission

/-!
What a memory of expressions holds after a series of uses: the latest forms, each with the
expression that it was read as.
-/

namespace Simultaneous.Formula.Memory

open Algebra Attempt

section

variable {α : Type} [DecidableEq α]

/-- Of the first `n + 1` elements, at most one is taken away. -/
theorem take_filter_take {xs : List α} (h : xs.Nodup) (a : α) (n : Nat) :
    ((xs.take (n + 1)).filter (· != a)).take n = (xs.filter (· != a)).take n := by
  induction xs generalizing n with
  | nil => rfl
  | cons x xs ih =>
    obtain ⟨hx, hxs⟩ := List.nodup_cons.mp h
    rw [List.take_succ_cons]
    by_cases hxa : x = a
    · subst hxa
      have hkept : ∀ ys ⊆ xs, ys.filter (· != x) = ys := by
        intro ys hys
        apply List.filter_eq_self.mpr
        intro y hy
        simpa using ne_of_mem_of_not_mem (hys hy) hx
      rw [List.filter_cons_of_neg (by simp), List.filter_cons_of_neg (by simp),
        hkept _ (List.take_subset n xs), hkept _ (List.Subset.refl xs), List.take_take, Nat.min_self]
    · rw [List.filter_cons_of_pos (by simpa using hxa), List.filter_cons_of_pos (by simpa using hxa)]
      cases n with
      | zero => rfl
      | succ n => rw [List.take_succ_cons, List.take_succ_cons, ih hxs]

end

/-- The form was read as the expression, under some limits. -/
structure Admitted (form : String) (e : Expr) : Prop where
  datum : datumOf form.toList = .ok (.expr e)
  accepted : ∃ limits n, accept limits 0 0 (.ofExpr e) = .ok n

theorem admitted_of_parsePlain {limits : Settings} {t : List Char} {e : Expr}
    (h : parsePlain limits t = .ok e) : Admitted (String.ofList t) e := by
  obtain ⟨hdatum, hadmissible⟩ := parsePlain_eq_ok_iff.mp h
  exact ⟨by rwa [String.toList_ofList], limits, _, accept_eq_ok_iff.mpr ⟨rfl, hadmissible⟩⟩

/-- A memory holds the latest of the forms used, the last one first. -/
structure Recalls (m : Memory) (used : List String) : Prop where
  forms : m.entries.map Prod.fst = used.eraseDups.take m.capacity
  admitted : ∀ p ∈ m.entries, Admitted p.1 p.2

variable {m : Memory} {used : List String} {form : String} {e : Expr}

theorem recalls_empty (capacity : Nat) : Recalls { capacity } [] := ⟨by simp, by simp⟩

theorem Recalls.keep (h : Recalls m used) (he : Admitted form e) :
    Recalls (m.keep form e) (form :: used) := by
  constructor
  · rw [Memory.keep, List.map_take, List.map_cons, List.eraseDups_cons]
    have hrest : (m.entries.filter (·.1 != form)).map Prod.fst =
        (used.eraseDups.take m.capacity).filter (· != form) := by
      rw [← h.forms, List.filter_map]
      rfl
    rw [hrest]
    cases m.capacity with
    | zero => rfl
    | succ n =>
      rw [List.take_succ_cons, List.take_succ_cons,
        take_filter_take (Distinct.nodup_eraseDups used), ← Distinct.eraseDups_filter]
      rfl
  · intro p hp
    obtain rfl | hp := List.mem_cons.mp (List.mem_of_mem_take hp)
    · exact he
    · exact h.admitted p (List.mem_of_mem_filter hp)

theorem Recalls.find?_eq_some (h : Recalls m used) (hfind : m.find? form = some e) :
    form ∈ used.eraseDups.take m.capacity ∧ Admitted form e := by
  obtain ⟨p, hp, rfl⟩ := Option.map_eq_some_iff.mp hfind
  have hform : p.1 = form := by simpa using List.find?_some hp
  have hmem := List.mem_of_find?_eq_some hp
  subst hform
  exact ⟨h.forms ▸ List.mem_map_of_mem hmem, h.admitted p hmem⟩

theorem Recalls.find?_eq_none (h : Recalls m used) (hfind : m.find? form = none) :
    form ∉ used.eraseDups.take m.capacity := by
  rw [← h.forms]
  intro hmem
  obtain ⟨p, hp, rfl⟩ := List.mem_map.mp hmem
  have hnone := List.find?_eq_none.mp (Option.map_eq_none_iff.mp hfind) p hp
  simp at hnone

end Simultaneous.Formula.Memory
