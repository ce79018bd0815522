import Mathlib.Algebra.BigOperators.Intervals
import Mathlib.Algebra.Field.Rat
import Mathlib.Algebra.Order.Ring.Abs
import Mathlib.Algebra.Order.Ring.Unbundled.Rat
import Simultaneous.Proofs.Matrix.Entries

/-!
Exact arithmetic. The operations on rational numbers are those of the field, and an entry of a
product of rational matrices is a sum of products.
-/

namespace Simultaneous

namespace Scalar

variable {x y : ℚ}

theorem less_iff : less x y = true ↔ x < y := decide_eq_true_iff

theorem less_eq_false_iff : less x y = false ↔ y ≤ x := by
  rw [← Bool.not_eq_true, less_iff, not_lt]

theorem magnitude_eq (x : ℚ) : magnitude x = |x| := by
  change (if x < 0 then -x else x) = |x|
  split
  next h => exact (abs_of_neg h).symm
  next h => exact (abs_of_nonneg (not_lt.mp h)).symm

theorem isZero_iff : isZero x = true ↔ x = 0 := beq_iff_eq

theorem over?_of_ne (h : y ≠ 0) : over? x y = some (x / y) := if_neg h

theorem over?_zero (x : ℚ) : over? x 0 = none := if_pos rfl

end Scalar

namespace Matrix

theorem dot_eq_sum {xs ys : List ℚ} {n : Nat} (hx : xs.length = n) (hy : ys.length = n) :
    dot xs ys = ∑ k ∈ Finset.range n, xs.getD k 0 * ys.getD k 0 := by
  have hzip : xs.zipWith (· * ·) ys = (List.range n).map fun k => xs.getD k 0 * ys.getD k 0 := by
    refine List.ext_getElem (by simp [hx, hy]) fun k hk hk' => ?_
    have hkn : k < n := by simpa using hk'
    rw [List.getElem_zipWith, List.getElem_map, List.getElem_range,
      List.getD_eq_getElem xs 0 (hx ▸ hkn), List.getD_eq_getElem ys 0 (hy ▸ hkn)]
  change (xs.zipWith (· * ·) ys).foldl (· + ·) 0 = _
  rw [hzip, ← List.sum_eq_foldl]
  rfl

theorem mul_eq {a b : Matrix ℚ} {r n c : Nat} (ha : a.HasShape r n) (hb : b.HasShape n c) :
    ∃ d, a.mul b = .ok d ∧ d.HasShape r c ∧ ∀ i < r, ∀ j < c,
      entry d.cells i j = ∑ k ∈ Finset.range n, entry a.cells i k * entry b.cells k j := by
  obtain ⟨d, hd, hshape⟩ := mul_eq_ok ha hb
  refine ⟨d, hd, hshape, fun i hi j hj => ?_⟩
  rw [mul, if_neg (by simp [ha.cols_eq, hb.rows_eq])] at hd
  cases hd
  have hcolumn : (b.cells.map fun row => row.getD j (0 : ℚ)).length = n := by
    rw [List.length_map, hb.isGrid.length_cells]
  have hentry : entry (a.cells.map fun row => (columnsOf b.cols b.cells).map (dot row)) i j =
      dot (a.cells.getD i []) (b.cells.map fun row => row.getD j (0 : ℚ)) := by
    rw [entry_map (ha.isGrid.length_cells.symm ▸ hi), columnsOf, hb.cols_eq, List.map_map,
      getD_map_range _ _ hj]
    rfl
  rw [hentry, dot_eq_sum (ha.isGrid.length_getD hi) hcolumn]
  refine Finset.sum_congr rfl fun k hk => ?_
  have hk : k < b.cells.length := hb.isGrid.length_cells.symm ▸ Finset.mem_range.mp hk
  rw [List.getD_eq_getElem (b.cells.map _) 0 (by simpa using hk), List.getElem_map, entry, entry,
    List.getD_eq_getElem b.cells [] hk]

theorem identity_eq {n : Nat} (hn : 0 < n) :
    (identity n : Attempt (Matrix ℚ)) = .ok ⟨n, n, diagonal n⟩ := by
  rw [identity, filled_eq_ok hn hn]
  rfl

/-- A product is the identity if its entries are those of the identity. -/
theorem mul_eq_identity {a b : Matrix ℚ} {n : Nat} (ha : a.HasShape n n) (hb : b.HasShape n n)
    (h : ∀ i < n, ∀ j < n, ∑ k ∈ Finset.range n, entry a.cells i k * entry b.cells k j =
      if i = j then 1 else 0) : a.mul b = identity n := by
  obtain ⟨⟨rows, cols, cells⟩, hd, hshape, hentry⟩ := mul_eq ha hb
  have hcells : cells = diagonal n := hshape.isGrid.ext (isGrid_diagonal n) fun i hi j hj => by
    rw [hentry i hi j hj, h i hi j hj, entry_diagonal hi hj]
  rw [hd, identity_eq (ha.rows_eq ▸ ha.rows_pos), hcells, ← hshape.rows_eq]
  exact congrArg (fun c => Except.ok (Matrix.mk rows c _)) (hshape.cols_eq.trans hshape.rows_eq.symm)

end Matrix

end Simultaneous
