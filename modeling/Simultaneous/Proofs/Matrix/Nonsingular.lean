import Simultaneous.Proofs.Matrix.Inversion

/-!
Which matrices have an inverse. With a positive tolerance an inversion gives an inverse, or stops at
a column in which everything left is smaller than the tolerance. The matrices that are inverted with
some tolerance are those whose determinant is not zero.
-/

namespace Simultaneous.Matrix

open Attempt

section

variable {a : Matrix ℚ} {tolerance : ℚ} {n c : Nat}

theorem inv_eq (ha : a.HasShape n n) :
    a.inv tolerance = eliminateBefore tolerance a n >>= fun work => .ok (rightHalf n work) := by
  rw [inv, if_neg (by simp [ha.rows_eq, ha.cols_eq]), ha.rows_eq]
  rfl

/-- The matrix sends `x` to `-y` if and only if its inverse sends `y` to `-x`. -/
theorem sum_eq_zero_iff {b : Matrix ℚ} (ha : a.HasShape n n) (h : a.inv tolerance = .ok b)
    (x y : Nat → ℚ) :
    (∀ r < n, ∑ j ∈ Finset.range n, entry a.cells r j * x j + y r = 0) ↔
      ∀ r < n, x r + ∑ j ∈ Finset.range n, entry b.cells r j * y j = 0 := by
  rw [inv_eq ha] at h
  obtain ⟨work, hwork, h⟩ := bind_eq_ok.mp h
  cases h
  exact (progress_of_eliminateBefore ha le_rfl hwork).sum_eq_zero_iff ha x y

/-- An elimination stops only at a column in which everything left is small. -/
theorem eliminateBefore_outcome (ha : a.HasShape n n) (htolerance : 0 < tolerance) (hc : c ≤ n) :
    (∃ work, eliminateBefore tolerance a c = .ok work) ∨
      ∃ k < c, ∃ work, eliminateBefore tolerance a k = .ok work ∧
        (∀ r, k ≤ r → r < n → |entry work r k| < tolerance) ∧
        eliminateBefore tolerance a c = .error (.matrix (.noPivot k) false) := by
  induction c with
  | zero => exact .inl ⟨_, rfl⟩
  | succ c ih =>
    rw [eliminateBefore_succ]
    obtain ⟨work, hwork⟩ | ⟨k, hk, work, hwork, hsmall, herror⟩ := ih (by omega)
    · have hgrid := (progress_of_eliminateBefore ha (by omega) hwork).grid
      rw [hwork, ok_bind]
      obtain hlt | hle := lt_or_ge |entry work (pivotRow work c) c| tolerance
      · refine .inr ⟨c, c.lt_succ_self, work, hwork, fun r hcr hrn => ?_, eliminate_of_lt hlt⟩
        obtain ⟨-, -, hmax⟩ := pivotRow_spec hgrid hc
        exact (hmax r hcr hrn).trans_lt hlt
      · have hne := abs_pos.mp (htolerance.trans_le hle)
        exact .inl ⟨_, eliminate_of_le hgrid hc hle hne⟩
    · rw [herror]
      exact .inr ⟨k, by omega, work, hwork, hsmall, rfl⟩

/-- An inverse sends only zero to zero. -/
theorem not_hasKernel (ha : a.HasShape n n) {work : List (List ℚ)}
    (h : eliminateBefore tolerance a n = .ok work) : ¬ HasKernel a n := by
  rintro ⟨x, ⟨j, hj, hx⟩, hkernel⟩
  have hprogress := progress_of_eliminateBefore ha le_rfl h
  have := (hprogress.sum_eq_zero_iff ha x fun _ => 0).mp (by simpa using hkernel) j hj
  exact hx (by simpa using this)

/-- Without a kernel no column lacks a pivot, and the smallest pivot bounds the tolerances. -/
theorem exists_threshold (ha : a.HasShape n n) (hkernel : ¬ HasKernel a n) (hc : c ≤ n) :
    ∃ t : ℚ, 0 < t ∧ ∃ work, ∀ tolerance ≤ t, eliminateBefore tolerance a c = .ok work := by
  induction c with
  | zero => exact ⟨1, zero_lt_one, _, fun _ _ => rfl⟩
  | succ c ih =>
    obtain ⟨t, ht, work, hwork⟩ := ih (by omega)
    have hprogress := progress_of_eliminateBefore ha (by omega) (hwork t le_rfl)
    have hne : entry work (pivotRow work c) c ≠ 0 := fun hzero =>
      hkernel (hprogress.hasKernel ha hc hzero)
    refine ⟨min t |entry work (pivotRow work c) c|, lt_min ht (abs_pos.mpr hne), reduced work c,
      fun tolerance hle => ?_⟩
    obtain ⟨hlet, hlepivot⟩ := le_min_iff.mp hle
    rw [eliminateBefore_succ, hwork tolerance hlet, ok_bind]
    exact eliminate_of_le hprogress.grid hc hlepivot hne

end

theorem Store.objects_deliver {s : Store} {k : Nat} {o : Object} (h : s.objects[k]? = some o)
    (target : Option String) (r : Attempt (Matrix Float)) :
    (s.deliver target r).1.objects[k]? = some o := by
  cases r with
  | error f => exact h
  | ok m =>
    cases target with
    | none => exact h
    | some name =>
      obtain ⟨hk, -⟩ := List.getElem?_eq_some_iff.mp h
      exact (List.getElem?_append_left hk).trans h

/-- An inversion in exact arithmetic gives a two-sided inverse or stops at a column without a pivot;
a matrix without determinant is always refused, any other one is inverted when the tolerance is
small enough. Named matrices are not changed by it. -/
theorem inv_exact {n : Nat} {a : Matrix ℚ} (ha : a.HasShape n n) :
    (∀ tolerance : ℚ, 0 < tolerance →
      (∃ b, a.inv tolerance = .ok b ∧ b.HasShape n n ∧
        a.mul b = identity n ∧ b.mul a = identity n) ∨
      ∃ c < n, ∃ work, eliminateBefore tolerance a c = .ok work ∧
        (∀ r, c ≤ r → r < n → |entry work r c| < tolerance) ∧
        a.inv tolerance = .error (.matrix (.noPivot c) false)) ∧
    (a.det = 0 → ∀ tolerance : ℚ, 0 < tolerance →
      ∃ c < n, a.inv tolerance = .error (.matrix (.noPivot c) false)) ∧
    (a.det ≠ 0 → ∃ t : ℚ, 0 < t ∧ ∀ tolerance ≤ t, ∃ b, a.inv tolerance = .ok b) ∧
    (∀ (settings : Settings) (s : Store) (target : Option String) (x y : Operand) (k : Nat)
      (o : Object), s.objects[k]? = some o →
      (s.apply settings target (.operate .inv x y)).1.objects[k]? = some o) := by
  have hn : 0 < n := ha.rows_eq ▸ ha.rows_pos
  refine ⟨fun tolerance htolerance => ?_, fun hdet tolerance htolerance => ?_, fun hdet => ?_,
    fun settings s target x y k o h => Store.objects_deliver h target _⟩
  · obtain ⟨work, hwork⟩ | ⟨c, hc, work, hwork, hsmall, herror⟩ :=
      eliminateBefore_outcome ha htolerance le_rfl
    · have hprogress := progress_of_eliminateBefore ha le_rfl hwork
      refine .inl ⟨rightHalf n work, ?_, hprogress.hasShape_rightHalf hn,
        hprogress.mul_rightHalf ha⟩
      rw [inv_eq ha, hwork, ok_bind]
    · refine .inr ⟨c, hc, work, hwork, hsmall, ?_⟩
      rw [inv_eq ha, herror, error_bind]
  · obtain ⟨work, hwork⟩ | ⟨c, hc, -, -, -, herror⟩ :=
      eliminateBefore_outcome ha htolerance le_rfl
    · exact absurd ((det_eq_zero_iff ha).mp hdet) (not_hasKernel ha hwork)
    · exact ⟨c, hc, by rw [inv_eq ha, herror, error_bind]⟩
  · obtain ⟨t, ht, work, hwork⟩ :=
      exists_threshold ha (fun h => hdet ((det_eq_zero_iff ha).mpr h)) le_rfl
    exact ⟨t, ht, fun tolerance hle => ⟨rightHalf n work, by
      rw [inv_eq ha, hwork tolerance hle, ok_bind]⟩⟩

/-- The pivot of the first column is in the second row. -/
def exchanged : Matrix ℚ := ⟨2, 2, [[0, 2], [3, 4]]⟩

/-- The second row is twice the first. -/
def dependent : Matrix ℚ := ⟨2, 2, [[1, 2], [2, 4]]⟩

theorem inv_exact_exchanged_dependent :
    exchanged.HasShape 2 2 ∧ dependent.HasShape 2 2 ∧
    (∃ b, exchanged.inv (1 / 1000) = .ok b ∧ b.cells = [[-2 / 3, 1 / 3], [1 / 2, 0]] ∧
      exchanged.mul b = identity 2 ∧ b.mul exchanged = identity 2) ∧
    dependent.det = 0 ∧ ∃ c < 2, dependent.inv (1 / 1000) = .error (.matrix (.noPivot c) false) := by
  have hexchanged : exchanged.HasShape 2 2 := ⟨⟨by decide, by decide, rfl, by decide⟩, rfl, rfl⟩
  have hdependent : dependent.HasShape 2 2 := ⟨⟨by decide, by decide, rfl, by decide⟩, rfl, rfl⟩
  have hinv : Attempt.passes (fun b => b.cells == [[-2 / 3, 1 / 3], [1 / 2, 0]])
      (exchanged.inv (1 / 1000)) = true := by decide +kernel
  obtain ⟨b, hb, hcells⟩ := exists_of_passes hinv
  have hdet : dependent.det = 0 := by
    refine (det_eq_zero_iff hdependent).mpr ⟨fun j => if j = 0 then 2 else -1, ⟨0, by decide⟩, ?_⟩
    intro r hr
    interval_cases r <;> decide +kernel
  refine ⟨hexchanged, hdependent, ⟨b, hb, beq_iff_eq.mp hcells, ?_⟩, hdet, ?_⟩
  · obtain ⟨d, hd, -, hmul⟩ | ⟨c, -, -, -, -, herror⟩ :=
      (inv_exact hexchanged).1 (1 / 1000) (by decide +kernel)
    · rw [hb] at hd
      cases hd
      exact hmul
    · rw [hb] at herror
      cases herror
  · exact (inv_exact hdependent).2.1 hdet (1 / 1000) (by decide +kernel)

end Simultaneous.Matrix
