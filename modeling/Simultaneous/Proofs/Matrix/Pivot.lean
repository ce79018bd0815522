import Simultaneous.Proofs.Matrix.Exact

/-!
The reduction of one column in exact arithmetic. The pivot is the largest entry left in the column;
unless it is too small, it gets a one and everything else in the column a zero.
-/

namespace Simultaneous.Matrix

open Attempt

section

variable {work work' : List (List ℚ)} {tolerance : ℚ} {n w c r j : Nat}

theorem le_largest (size : Nat → ℚ) {best : Nat} {rs : List Nat} (hr : r ∈ best :: rs) :
    size r ≤ size (largest size best rs) := by
  induction rs generalizing best r with
  | nil => rw [List.mem_singleton.mp hr, largest]
  | cons s rs ih =>
    rw [largest]
    split
    next hlt =>
      obtain rfl | hr := List.mem_cons.mp hr
      · exact (Scalar.less_iff.mp hlt).le.trans (ih List.mem_cons_self)
      · exact ih hr
    next hge =>
      have hle : size s ≤ size best := Scalar.less_eq_false_iff.mp (Bool.not_eq_true _ ▸ hge)
      obtain rfl | hr := List.mem_cons.mp hr
      · exact ih List.mem_cons_self
      obtain rfl | hr := List.mem_cons.mp hr
      · exact hle.trans (ih List.mem_cons_self)
      · exact ih (List.mem_cons_of_mem best hr)

theorem mem_rowsFrom (hc : c < n) :
    r ∈ c :: (List.range n).drop (c + 1) ↔ c ≤ r ∧ r < n := by
  rw [List.mem_cons, List.range_eq_range', List.drop_range', List.mem_range'_1]
  omega

/-- The pivot is in one of the rows from `c` on, and no entry there is larger. -/
theorem pivotRow_spec (hg : IsGrid work n w) (hc : c < n) :
    c ≤ pivotRow work c ∧ pivotRow work c < n ∧
      ∀ r, c ≤ r → r < n → |entry work r c| ≤ |entry work (pivotRow work c) c| := by
  have hmem := largest_mem (fun r => Scalar.magnitude (entry work r c)) c
    ((List.range work.length).drop (c + 1))
  rw [hg.length_cells, mem_rowsFrom hc] at hmem
  rw [pivotRow, hg.length_cells]
  refine ⟨hmem.1, hmem.2, fun r hcr hrn => ?_⟩
  have hle := le_largest (fun r => Scalar.magnitude (entry work r c))
    ((mem_rowsFrom hc).mpr ⟨hcr, hrn⟩)
  simpa only [Scalar.magnitude_eq] using hle

theorem normalize_of_ne {x : ℚ} (hx : x ≠ 0) (row : List ℚ) :
    normalize row x = .ok (row.map (· / x)) := by
  simp only [normalize, Scalar.over?_of_ne hx]
  exact List.mapM_pure

theorem ne_zero_of_normalize {x : ℚ} {row unit : List ℚ} (hrow : row ≠ [])
    (h : normalize row x = .ok unit) : x ≠ 0 := by
  rintro rfl
  obtain ⟨y, row, rfl⟩ := List.exists_cons_of_ne_nil hrow
  rw [normalize, List.mapM_cons, Scalar.over?_zero] at h
  cases h

theorem getD_clear {unit row : List ℚ} (hunit : unit.length = w) (hrow : row.length = w)
    (hj : j < w) :
    (clear c unit row).getD j 0 = row.getD j 0 - row.getD c 0 * unit.getD j 0 := by
  have hju : j < unit.length := hunit.symm ▸ hj
  have hjr : j < row.length := hrow.symm ▸ hj
  rw [clear]
  split
  next h => rw [Scalar.isZero_iff.mp h, zero_mul, sub_zero]
  next =>
    rw [List.getD_eq_getElem _ 0 (by simp [hju, hjr]), List.getElem_zipWith,
      List.getD_eq_getElem row 0 hjr, List.getD_eq_getElem unit 0 hju]

/-- The grid with column `c` reduced to a unit column. -/
def reduced (work : List (List ℚ)) (c : Nat) : List (List ℚ) :=
  let p := pivotRow work c
  let swapped := swapRows c p work
  let unit := (swapped.getD c []).map (· / entry work p c)
  swapped.mapIdx fun r row => if r = c then unit else clear c unit row

theorem eliminate_of_lt (h : |entry work (pivotRow work c) c| < tolerance) :
    eliminate tolerance work c = .error (.matrix (.noPivot c) false) := by
  rw [eliminate, if_pos (Scalar.less_iff.mpr (Scalar.magnitude_eq _ ▸ h))]

theorem eliminate_eq (hg : IsGrid work n w) (hc : c < n)
    (hle : tolerance ≤ |entry work (pivotRow work c) c|) :
    eliminate tolerance work c =
      normalize ((swapRows c (pivotRow work c) work).getD c []) (entry work (pivotRow work c) c) >>=
        fun unit => .ok ((swapRows c (pivotRow work c) work).mapIdx fun r row =>
          if r = c then unit else clear c unit row) := by
  have hless := Scalar.less_eq_false_iff.mpr (Scalar.magnitude_eq _ ▸ hle)
  rw [eliminate, if_neg (by simp [hless]), ← entry_swapRows (hg.length_cells.symm ▸ hc)]
  rfl

theorem eliminate_of_le (hg : IsGrid work n w) (hc : c < n)
    (hle : tolerance ≤ |entry work (pivotRow work c) c|)
    (hne : entry work (pivotRow work c) c ≠ 0) :
    eliminate tolerance work c = .ok (reduced work c) := by
  rw [eliminate_eq hg hc hle, normalize_of_ne hne]
  rfl

theorem eliminate_eq_ok (hg : IsGrid work n w) (hc : c < n) (hw : 0 < w)
    (h : eliminate tolerance work c = .ok work') :
    tolerance ≤ |entry work (pivotRow work c) c| ∧ entry work (pivotRow work c) c ≠ 0 ∧
      work' = reduced work c := by
  have hle : tolerance ≤ |entry work (pivotRow work c) c| := by
    by_contra hlt
    rw [eliminate_of_lt (not_le.mp hlt)] at h
    cases h
  have hne : entry work (pivotRow work c) c ≠ 0 := by
    rw [eliminate_eq hg hc hle] at h
    obtain ⟨unit, hunit, -⟩ := bind_eq_ok.mp h
    obtain ⟨-, hp, -⟩ := pivotRow_spec hg hc
    have hrow := (isGrid_swapRows hg hc hp).length_getD hc
    exact ne_zero_of_normalize (List.ne_nil_of_length_pos (hrow ▸ hw)) hunit
  rw [eliminate_of_le hg hc hle hne] at h
  cases h
  exact ⟨hle, hne, rfl⟩

theorem length_unit (hg : IsGrid work n w) (hc : c < n) (x : ℚ) :
    (((swapRows c (pivotRow work c) work).getD c []).map (· / x)).length = w := by
  obtain ⟨-, hp, -⟩ := pivotRow_spec hg hc
  rw [List.length_map, (isGrid_swapRows hg hc hp).length_getD hc]

theorem isGrid_reduced (hg : IsGrid work n w) (hc : c < n) : IsGrid (reduced work c) n w := by
  obtain ⟨-, hp, -⟩ := pivotRow_spec hg hc
  have hs := isGrid_swapRows hg hc hp
  have hunit := length_unit hg hc (entry work (pivotRow work c) c)
  refine ⟨by simp [reduced, hs.length_cells], fun row hrow => ?_⟩
  obtain ⟨r, hr, rfl⟩ := List.mem_mapIdx.mp hrow
  split
  · exact hunit
  · have hl := hs.length_row _ (List.getElem_mem hr)
    rw [length_clear c (hunit.trans hl.symm), hl]

/-- The row of the pivot is divided by it and goes to place `c`; of every other row a multiple is
taken. -/
theorem entry_reduced (hg : IsGrid work n w) (hc : c < n) (hr : r < n) (hj : j < w) :
    entry (reduced work c) r j =
      if r = c then entry work (pivotRow work c) j / entry work (pivotRow work c) c
      else entry work (Equiv.swap c (pivotRow work c) r) j -
        entry work (Equiv.swap c (pivotRow work c) r) c *
          (entry work (pivotRow work c) j / entry work (pivotRow work c) c) := by
  obtain ⟨-, hp, -⟩ := pivotRow_spec hg hc
  have hs := isGrid_swapRows hg hc hp
  have hunit := length_unit hg hc (entry work (pivotRow work c) c)
  have hgetD : ∀ i < n, (swapRows c (pivotRow work c) work).getD i [] =
      work.getD (Equiv.swap c (pivotRow work c) i) [] := by
    intro i hi
    exact getD_swapRows (hg.length_cells.symm ▸ hc) (hg.length_cells.symm ▸ hp)
      (hg.length_cells.symm ▸ hi)
  have hunitD : (((swapRows c (pivotRow work c) work).getD c []).map
      (· / entry work (pivotRow work c) c)).getD j 0 =
        entry work (pivotRow work c) j / entry work (pivotRow work c) c := by
    rw [hgetD c hc, Equiv.swap_apply_left]
    have hmap := List.getD_map (l := work.getD (pivotRow work c) []) (n := j) (d := (0 : ℚ))
      (· / entry work (pivotRow work c) c)
    rwa [zero_div] at hmap
  rw [reduced, entry_mapIdx (hs.length_cells.symm ▸ hr)]
  split
  · exact hunitD
  · rw [getD_clear hunit (hs.length_getD hr) hj, hunitD, hgetD r hr]
    rfl

end

end Simultaneous.Matrix
