import Mathlib.Algebra.BigOperators.Field
import Mathlib.LinearAlgebra.Matrix.ToLinearEquiv
import Simultaneous.Matrix.Store
import Simultaneous.Proofs.Matrix.Pivot

/-!
Inversion in exact arithmetic. A matrix beside the identity has a kernel, and the reduction of a
column does not change it. When all columns are reduced, the kernel says that the grid on the right
is the inverse; a column without a pivot gives a vector that the matrix sends to zero.
-/

namespace Simultaneous.Matrix

open Attempt

section

variable {work : List (List ℚ)} {n w c r j : Nat}

/-- Every row of the grid, as a row of coefficients, vanishes at `z`. -/
def InKernel (work : List (List ℚ)) (n w : Nat) (z : Nat → ℚ) : Prop :=
  ∀ r < n, ∑ j ∈ Finset.range w, entry work r j * z j = 0

theorem sum_reduced (hg : IsGrid work n w) (hc : c < n) (hr : r < n) (z : Nat → ℚ) :
    ∑ j ∈ Finset.range w, entry (reduced work c) r j * z j =
      if r = c then
        (∑ j ∈ Finset.range w, entry work (pivotRow work c) j * z j) /
          entry work (pivotRow work c) c
      else
        ∑ j ∈ Finset.range w, entry work (Equiv.swap c (pivotRow work c) r) j * z j -
          entry work (Equiv.swap c (pivotRow work c) r) c *
            ((∑ j ∈ Finset.range w, entry work (pivotRow work c) j * z j) /
              entry work (pivotRow work c) c) := by
  rw [Finset.sum_congr rfl fun j hj => by
    rw [entry_reduced hg hc hr (Finset.mem_range.mp hj)]]
  split
  · rw [Finset.sum_div]
    exact Finset.sum_congr rfl fun j _ => div_mul_eq_mul_div _ _ _
  · rw [Finset.sum_div, Finset.mul_sum, ← Finset.sum_sub_distrib]
    exact Finset.sum_congr rfl fun j _ => by ring

/-- A reduction is invertible: it keeps the vectors at which all rows vanish. -/
theorem inKernel_reduced (hg : IsGrid work n w) (hc : c < n)
    (hne : entry work (pivotRow work c) c ≠ 0) (z : Nat → ℚ) :
    InKernel (reduced work c) n w z ↔ InKernel work n w z := by
  obtain ⟨-, hp, -⟩ := pivotRow_spec hg hc
  refine ⟨fun h => ?_, fun h r hr => ?_⟩
  · have hpivot : ∑ j ∈ Finset.range w, entry work (pivotRow work c) j * z j = 0 := by
      have := h c hc
      rw [sum_reduced hg hc hc, if_pos rfl, div_eq_zero_iff] at this
      exact this.resolve_right hne
    intro s hs
    by_cases hsp : s = pivotRow work c
    · rw [hsp, hpivot]
    -- row `s` has moved to the place that the exchange gives it
    have hr := swap_lt hc hp hs
    have hrc : Equiv.swap c (pivotRow work c) s ≠ c := fun h =>
      hsp (by rw [← Equiv.swap_apply_self c (pivotRow work c) s, h, Equiv.swap_apply_left])
    have := h _ hr
    rwa [sum_reduced hg hc hr, if_neg hrc, Equiv.swap_apply_self, hpivot, zero_div, mul_zero,
      sub_zero] at this
  · rw [sum_reduced hg hc hr, h _ hp]
    split
    · exact zero_div _
    · rw [h _ (swap_lt hc hp hr), zero_div, mul_zero, sub_zero]

/-- The columns before `c` are those of the identity. -/
def HasUnits (work : List (List ℚ)) (n c : Nat) : Prop :=
  ∀ j < c, ∀ r < n, entry work r j = if r = j then 1 else 0

theorem hasUnits_reduced (hg : IsGrid work n w) (hc : c < n) (hw : n ≤ w)
    (hne : entry work (pivotRow work c) c ≠ 0) (h : HasUnits work n c) :
    HasUnits (reduced work c) n (c + 1) := by
  obtain ⟨hcp, hp, -⟩ := pivotRow_spec hg hc
  intro j hj r hr
  rw [entry_reduced hg hc hr (by omega)]
  obtain rfl | hjc : j = c ∨ j < c := by omega
  · rw [div_self hne, mul_one, sub_self]
  -- the pivot and the row it is exchanged with are both below the units
  · have hpj : entry work (pivotRow work c) j = 0 := by rw [h j hjc _ hp, if_neg (by omega)]
    rw [hpj, zero_div, mul_zero, sub_zero, h j hjc _ (swap_lt hc hp hr), Equiv.swap_apply_def]
    split_ifs <;> first | rfl | omega

end

section

variable {a : Matrix ℚ} {work work' : List (List ℚ)} {tolerance : ℚ} {n c : Nat}

/-- What holds when the columns before `c` have been reduced. -/
structure Progress (a : Matrix ℚ) (n c : Nat) (work : List (List ℚ)) : Prop where
  grid : IsGrid work n (n + n)
  units : HasUnits work n c
  inKernel_iff : ∀ z, InKernel work n (n + n) z ↔ InKernel (augmented a) n (n + n) z

theorem isGrid_augmented (ha : a.HasShape n n) : IsGrid (augmented a) n (n + n) := by
  rw [augmented, ha.rows_eq]
  exact isGrid_zipWith ha.isGrid (isGrid_diagonal n) fun x y hx hy => by simp [hx, hy]

theorem Progress.initial (ha : a.HasShape n n) : Progress a n 0 (augmented a) :=
  ⟨isGrid_augmented ha, fun j hj => absurd hj (Nat.not_lt_zero j), fun _ => Iff.rfl⟩

theorem Progress.reduced (h : Progress a n c work) (hc : c < n)
    (hne : entry work (pivotRow work c) c ≠ 0) : Progress a n (c + 1) (reduced work c) :=
  ⟨isGrid_reduced h.grid hc, hasUnits_reduced h.grid hc (Nat.le_add_left n n) hne h.units,
    fun z => (inKernel_reduced h.grid hc hne z).trans (h.inKernel_iff z)⟩

/-- The elimination of the columns before `c`. -/
def eliminateBefore (tolerance : ℚ) (a : Matrix ℚ) (c : Nat) : Attempt (List (List ℚ)) :=
  (List.range c).foldlM (eliminate tolerance) (augmented a)

theorem eliminateBefore_succ :
    eliminateBefore tolerance a (c + 1) =
      eliminateBefore tolerance a c >>= fun work => eliminate tolerance work c := by
  rw [eliminateBefore, List.range_succ, List.foldlM_append, eliminateBefore]
  simp

theorem progress_of_eliminateBefore (ha : a.HasShape n n) (hc : c ≤ n)
    (h : eliminateBefore tolerance a c = .ok work) : Progress a n c work := by
  induction c generalizing work with
  | zero => cases h; exact .initial ha
  | succ c ih =>
    rw [eliminateBefore_succ] at h
    obtain ⟨before, hbefore, h⟩ := bind_eq_ok.mp h
    have hprogress := ih (by omega) hbefore
    obtain ⟨-, hne, rfl⟩ := eliminate_eq_ok hprogress.grid hc (by omega) h
    exact hprogress.reduced hc hne

/-- The coordinates `x`, and `y` after them. -/
def joined (n : Nat) (x y : Nat → ℚ) (j : Nat) : ℚ := if j < n then x j else y (j - n)

theorem sum_joined (work : List (List ℚ)) (n r : Nat) (x y : Nat → ℚ) :
    ∑ j ∈ Finset.range (n + n), entry work r j * joined n x y j =
      ∑ j ∈ Finset.range n, entry work r j * x j +
        ∑ j ∈ Finset.range n, entry work r (n + j) * y j := by
  rw [Finset.sum_range_add]
  congr 1
  · refine Finset.sum_congr rfl fun j hj => ?_
    rw [joined, if_pos (Finset.mem_range.mp hj)]
  · refine Finset.sum_congr rfl fun j _ => ?_
    rw [joined, if_neg (by omega), Nat.add_sub_cancel_left]

theorem sum_unit {f : Nat → ℚ} {m r : Nat} (hf : ∀ j < m, f j = if r = j then 1 else 0)
    (x : Nat → ℚ) : ∑ j ∈ Finset.range m, f j * x j = if r < m then x r else 0 := by
  rw [Finset.sum_congr rfl fun j hj => by
    rw [hf j (Finset.mem_range.mp hj), ite_mul, one_mul, zero_mul], Finset.sum_ite_eq]
  simp only [Finset.mem_range]

theorem inKernel_augmented (ha : a.HasShape n n) (x y : Nat → ℚ) :
    InKernel (augmented a) n (n + n) (joined n x y) ↔
      ∀ r < n, ∑ j ∈ Finset.range n, entry a.cells r j * x j + y r = 0 := by
  refine forall₂_congr fun r hr => ?_
  have hleft : ∑ j ∈ Finset.range n, entry (augmented a) r j * x j =
      ∑ j ∈ Finset.range n, entry a.cells r j * x j :=
    Finset.sum_congr rfl fun j hj => by
      rw [entry_augmented_left ha hr (Finset.mem_range.mp hj)]
  have hright : ∑ j ∈ Finset.range n, entry (augmented a) r (n + j) * y j = y r := by
    rw [sum_unit (fun j hj => entry_augmented_right ha hr hj), if_pos hr]
  rw [sum_joined, hleft, hright]

theorem entry_drop {n : Nat} (hr : r < work.length) :
    entry (work.map (·.drop n)) r c = entry work r (n + c) := by
  rw [entry_map hr, List.getD_eq_getElem?_getD, List.getElem?_drop, ← List.getD_eq_getElem?_getD,
    entry]

theorem Progress.inKernel_complete (h : Progress a n n work) (x y : Nat → ℚ) :
    InKernel work n (n + n) (joined n x y) ↔
      ∀ r < n, x r + ∑ j ∈ Finset.range n, entry (work.map (·.drop n)) r j * y j = 0 := by
  refine forall₂_congr fun r hr => ?_
  have hleft : ∑ j ∈ Finset.range n, entry work r j * x j = x r := by
    rw [sum_unit (fun j hj => h.units j hj r hr), if_pos hr]
  rw [sum_joined, hleft]
  simp only [entry_drop (h.grid.length_cells.symm ▸ hr)]

/-- The grid on the right as a matrix. -/
def rightHalf (n : Nat) (work : List (List ℚ)) : Matrix ℚ := ⟨n, n, work.map (·.drop n)⟩

theorem Progress.hasShape_rightHalf (h : Progress a n n work) (hn : 0 < n) :
    (rightHalf n work).HasShape n n :=
  (isGrid_map h.grid fun row hrow => by simp [hrow]).hasShape hn hn

/-- The matrix sends `x` to `-y` if and only if the grid on the right sends `y` to `-x`. -/
theorem Progress.sum_eq_zero_iff (ha : a.HasShape n n) (h : Progress a n n work) (x y : Nat → ℚ) :
    (∀ r < n, ∑ j ∈ Finset.range n, entry a.cells r j * x j + y r = 0) ↔
      ∀ r < n, x r + ∑ j ∈ Finset.range n, entry (rightHalf n work).cells r j * y j = 0 := by
  rw [← inKernel_augmented ha, ← h.inKernel_iff, h.inKernel_complete]
  rfl

theorem Progress.mul_rightHalf (ha : a.HasShape n n) (h : Progress a n n work) :
    a.mul (rightHalf n work) = identity n ∧ (rightHalf n work).mul a = identity n := by
  have hb := h.hasShape_rightHalf (ha.rows_eq ▸ ha.rows_pos)
  have hunit : ∀ (f : Nat → ℚ), ∀ k < n,
      ∑ j ∈ Finset.range n, f j * (if j = k then 1 else 0) = f k := by
    intro f k hk
    simp [Finset.sum_ite_eq', hk]
  constructor
  · refine mul_eq_identity ha hb fun i hi k hk => ?_
    -- column `k` of the right side, and minus the unit vector `k`
    have := (h.sum_eq_zero_iff ha (fun j => entry (rightHalf n work).cells j k)
      fun j => -if j = k then 1 else 0).mpr fun r hr => by
        simp only [mul_neg, Finset.sum_neg_distrib]
        rw [hunit _ k hk, add_neg_cancel]
    have := this i hi
    rwa [add_neg_eq_zero] at this
  · refine mul_eq_identity hb ha fun i hi k hk => ?_
    have := (h.sum_eq_zero_iff ha (fun j => if j = k then 1 else 0)
      fun j => -entry a.cells j k).mp fun r hr => by rw [hunit _ k hk, add_neg_cancel]
    have := this i hi
    simp only [mul_neg, Finset.sum_neg_distrib] at this
    rw [add_neg_eq_zero] at this
    exact this.symm

/-- A vector that is not zero is sent to zero. -/
def HasKernel (a : Matrix ℚ) (n : Nat) : Prop :=
  ∃ x : Nat → ℚ, (∃ j < n, x j ≠ 0) ∧
    ∀ r < n, ∑ j ∈ Finset.range n, entry a.cells r j * x j = 0

/-- Column `c` as it depends on the columns before it, when these are reduced. -/
def dependence (work : List (List ℚ)) (c j : Nat) : ℚ :=
  if j < c then -entry work j c else if j = c then 1 else 0

theorem sum_dependence (hc : c < n) (f : Nat → ℚ) :
    ∑ j ∈ Finset.range n, f j * dependence work c j =
      ∑ j ∈ Finset.range c, f j * dependence work c j + f c := by
  obtain ⟨d, rfl⟩ : ∃ d, n = c + 1 + d := ⟨n - c - 1, by omega⟩
  have hrest : ∑ j ∈ Finset.range d, f (c + 1 + j) * dependence work c (c + 1 + j) = 0 := by
    refine Finset.sum_eq_zero fun j _ => ?_
    rw [dependence, if_neg (by omega), if_neg (by omega), mul_zero]
  rw [Finset.sum_range_add, Finset.sum_range_succ, hrest, add_zero]
  simp [dependence]

/-- Without a pivot a column depends on the columns before it. -/
theorem Progress.hasKernel (ha : a.HasShape n n) (h : Progress a n c work) (hc : c < n)
    (hzero : entry work (pivotRow work c) c = 0) : HasKernel a n := by
  obtain ⟨-, -, hmax⟩ := pivotRow_spec h.grid hc
  have hbelow : ∀ r, c ≤ r → r < n → entry work r c = 0 := fun r hcr hrn => by
    simpa [hzero] using hmax r hcr hrn
  refine ⟨dependence work c, ⟨c, hc, by simp [dependence]⟩, ?_⟩
  have hkernel : InKernel work n (n + n) (joined n (dependence work c) fun _ => 0) := by
    intro r hr
    rw [sum_joined, sum_dependence hc, sum_unit (fun j hj => h.units j hj r hr)]
    split
    next hrc => simp [dependence, hrc]
    next hrc => simp [hbelow r (by omega) hr]
  have := (inKernel_augmented ha (dependence work c) fun _ => 0).mp ((h.inKernel_iff _).mp hkernel)
  simpa using this

/-- The determinant. -/
noncomputable def det (m : Matrix ℚ) : ℚ :=
  (Matrix.of fun i j : Fin m.rows => entry m.cells i j).det

theorem det_eq_zero_iff (ha : a.HasShape n n) : a.det = 0 ↔ HasKernel a n := by
  obtain rfl := ha.rows_eq
  rw [det, ← Matrix.exists_mulVec_eq_zero_iff]
  constructor
  · rintro ⟨v, hv, h⟩
    obtain ⟨i, hi⟩ := Function.ne_iff.mp hv
    refine ⟨fun j => if hj : j < a.rows then v ⟨j, hj⟩ else 0, ⟨i, i.isLt, by simpa using hi⟩, ?_⟩
    intro r hr
    rw [Finset.sum_range]
    simpa [Matrix.mulVec, dotProduct] using congrFun h ⟨r, hr⟩
  · rintro ⟨x, ⟨j, hj, hx⟩, h⟩
    refine ⟨fun i => x i, Function.ne_iff.mpr ⟨⟨j, hj⟩, hx⟩, funext fun r => ?_⟩
    have := h r r.isLt
    rw [Finset.sum_range] at this
    simpa [Matrix.mulVec, dotProduct] using this

end

end Simultaneous.Matrix
