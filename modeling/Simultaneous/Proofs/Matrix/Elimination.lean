import Simultaneous.Matrix.Inverse
import Simultaneous.Proofs.Matrix.Shape

/-!
Elimination keeps the size of the grid it works on. An inversion gives a matrix of the same size,
and fails only for want of a pivot or by a division by zero.
-/

namespace Simultaneous.Matrix

open Attempt

variable {α : Type} {n w : Nat}

theorem isGrid_swapRows {work : List (List α)} (h : IsGrid work n w) {i j : Nat} (hi : i < n)
    (hj : j < n) : IsGrid (swapRows i j work) n w := by
  obtain ⟨rfl, hrow⟩ := h
  have hget : ∀ k < work.length, (work.getD k []).length = w := by
    intro k hk
    rw [List.getD_eq_getElem?_getD, List.getElem?_eq_getElem hk, Option.getD_some]
    exact hrow _ (List.getElem_mem hk)
  refine ⟨by simp [swapRows], fun row h => ?_⟩
  obtain h | rfl := List.mem_or_eq_of_mem_set h
  · obtain h | rfl := List.mem_or_eq_of_mem_set h
    · exact hrow row h
    · exact hget j hj
  · exact hget i hi

variable [Scalar α]

theorem largest_mem (size : Nat → α) (best : Nat) (rs : List Nat) :
    largest size best rs ∈ best :: rs := by
  induction rs generalizing best with
  | nil => simp [largest]
  | cons r rs ih =>
    rw [largest]
    have h := ih (if Scalar.less (size best) (size r) then r else best)
    obtain h | h := List.mem_cons.mp h
    · rw [h]
      split <;> simp
    · simp [h]

theorem pivotRow_lt {work : List (List α)} {k : Nat} (hk : k < work.length) :
    pivotRow work k < work.length := by
  rcases List.mem_cons.mp (largest_mem (fun r => Scalar.magnitude (entry work r k)) k
    ((List.range work.length).drop (k + 1))) with h | h
  · rwa [pivotRow, h]
  · exact List.mem_range.mp (List.mem_of_mem_drop h)

theorem entry_swapRows {work : List (List α)} {i j : Nat} (hi : i < work.length) (c : Nat) :
    entry (swapRows i j work) i c = entry work j c := by
  have hrow : (swapRows i j work).getD i [] = work.getD j [] := by
    rw [swapRows, List.getD_eq_getElem?_getD, List.getElem?_set, List.length_set]
    split
    next hji => rw [if_pos (hji ▸ hi), Option.getD_some, hji]
    next => rw [List.getElem?_set_self hi, Option.getD_some]
  rw [entry, hrow, entry]

/-- Why a matrix has no inverse: a column without a pivot, or a pivot that is large enough and still
does not divide. -/
inductive Singular (tolerance : α) : Failure → Prop
  | noPivot (column : Nat) : Singular tolerance (.matrix (.noPivot column) false)
  | zeroPivot {x pivot : α} (large : ¬ Scalar.less (Scalar.magnitude pivot) tolerance = true)
      (over?_eq : Scalar.over? x pivot = none) :
      Singular tolerance (.broken .floatDivisionByZero)

theorem normalize_ensures {tolerance pivot : α}
    (large : ¬ Scalar.less (Scalar.magnitude pivot) tolerance = true) (row : List α) :
    Ensures (fun unit => unit.length = row.length) (Singular tolerance) (normalize row pivot) := by
  rw [normalize]
  refine (Ensures.mapM (Q := fun _ => True) fun y _ => ?_).imp (fun _ h => h.1) fun _ h => h
  split
  · exact .ok trivial
  next hover => exact .error (.zeroPivot large hover)

theorem length_clear (k : Nat) {unit row : List α} (h : unit.length = row.length) :
    (clear k unit row).length = row.length := by
  rw [clear]
  split
  · rfl
  · rw [List.length_zipWith, h, Nat.min_self]

/-- Reducing a column keeps the size of the grid. -/
theorem eliminate_ensures (tolerance : α) {work : List (List α)} (h : IsGrid work n w) {k : Nat}
    (hk : k < n) : Ensures (IsGrid · n w) (Singular tolerance) (eliminate tolerance work k) := by
  rw [eliminate]
  split
  · exact .error (.noPivot k)
  next large =>
  rw [← entry_swapRows (h.length_cells.symm ▸ hk)] at large
  have hp : pivotRow work k < n := h.length_cells ▸ pivotRow_lt (h.length_cells ▸ hk)
  have hs := isGrid_swapRows h hk hp
  generalize swapRows k (pivotRow work k) work = swapped at hs large ⊢
  have hlen : (swapped.getD k []).length = w := by
    have hk' : k < swapped.length := hs.length_cells.symm ▸ hk
    rw [List.getD_eq_getElem?_getD, List.getElem?_eq_getElem hk', Option.getD_some]
    exact hs.length_row _ (List.getElem_mem hk')
  apply (normalize_ensures large (swapped.getD k [])).bind
  intro unit hunit
  refine .ok ⟨by simp [hs.length_cells], fun row hrow => ?_⟩
  obtain ⟨r, hr, rfl⟩ := List.mem_mapIdx.mp hrow
  split
  · exact hunit.trans hlen
  · have hw := hs.length_row _ (List.getElem_mem hr)
    rw [length_clear k ((hunit.trans hlen).trans hw.symm), hw]

theorem isGrid_diagonal (n : Nat) : IsGrid (diagonal n : List (List α)) n n := by
  refine ⟨by simp [diagonal], fun row h => ?_⟩
  obtain ⟨i, -, rfl⟩ := List.mem_map.mp h
  simp

/-- An inversion of a square matrix gives one of the same size. -/
theorem inv_ensures (tolerance : α) {m : Matrix α} (h : m.HasShape n n) :
    Ensures (HasShape · n n) (Singular tolerance) (m.inv tolerance) := by
  have hn : 0 < n := h.rows_eq ▸ h.rows_pos
  have haug : IsGrid (augmented m) n (n + n) := by
    rw [augmented, h.rows_eq]
    exact isGrid_zipWith h.isGrid (isGrid_diagonal n) fun a b ha hb => by simp [ha, hb]
  rw [inv, if_neg (by simp [h.rows_eq, h.cols_eq]), h.rows_eq]
  apply (Ensures.foldlM (fun work k hk hwork =>
    eliminate_ensures tolerance hwork (List.mem_range.mp hk)) haug).bind
  intro work hwork
  have hg : IsGrid (work.map (·.drop n)) n n := isGrid_map hwork fun a ha => by simp [ha]
  exact .ok (hg.hasShape hn hn)

end Simultaneous.Matrix
