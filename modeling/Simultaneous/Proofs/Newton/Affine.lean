import Simultaneous.Newton.Solver
import Simultaneous.Proofs.Matrix.Nonsingular
import Simultaneous.Proofs.Matrix.Vector

/-!
Affine systems in exact arithmetic. The estimated slopes are the coefficients themselves wherever
they are taken, so that the first step leads to the zero; the second step, if there is one, stays
there and changes nothing.
-/

namespace Simultaneous.Newton

open Attempt Simultaneous.Matrix

/-- Residual `i` is the sum of the unknowns, each times its coefficient in row `i`, and of a
constant; the unknowns with a coefficient occur in it. -/
structure IsAffine (p : Problem ℚ) (a : Matrix ℚ) (d : Nat → ℚ) : Prop where
  nodup : p.unknowns.Nodup
  length_residuals : p.residuals.length = p.unknowns.length
  hasShape : a.HasShape p.unknowns.length p.unknowns.length
  value_eq : ∀ i (hi : i < p.residuals.length) (env : String → Option ℚ) (x : Nat → ℚ),
    (∀ j (hj : j < p.unknowns.length), env p.unknowns[j] = some (x j)) →
    p.residuals[i].value env =
      .ok (∑ j ∈ Finset.range p.unknowns.length, entry a.cells i j * x j + d i)
  mem_unknowns : ∀ i (hi : i < p.residuals.length) j (hj : j < p.unknowns.length),
    entry a.cells i j ≠ 0 → p.unknowns[j] ∈ p.residuals[i].unknowns

/-- The value of row `i` at `x`. -/
def affineAt (a : Matrix ℚ) (d : Nat → ℚ) (n : Nat) (x : Nat → ℚ) (i : Nat) : ℚ :=
  ∑ j ∈ Finset.range n, entry a.cells i j * x j + d i

theorem find?_fst_eq {l : List (String × ℚ)} (h : (l.map Prod.fst).Nodup) {q : String × ℚ}
    (hq : q ∈ l) : l.find? (·.1 == q.1) = some q := by
  cases hf : l.find? (·.1 == q.1) with
  | none => exact absurd (beq_self_eq_true q.1) (List.find?_eq_none.mp hf q hq)
  | some r =>
    have hfst : r.1 = q.1 := by simpa using List.find?_some hf
    rw [List.inj_on_of_nodup_map h (List.mem_of_find?_eq_some hf) hq hfst]

theorem bindings_vector {names : List String} (h : names.Nodup) (x : Nat → ℚ) {j : Nat}
    (hj : j < names.length) :
    bindings names (vector names.length x) names[j] = some (x j) := by
  rw [bindings, firstColumn_vector]
  have hkeys : ((names.zip ((List.range names.length).map x)).reverse.map Prod.fst).Nodup := by
    rw [List.map_reverse, List.nodup_reverse, List.map_fst_zip (by simp)]
    exact h
  have hmem : (names[j], x j) ∈ (names.zip ((List.range names.length).map x)).reverse := by
    rw [List.mem_reverse, List.mem_iff_getElem]
    exact ⟨j, by simpa using hj, by simp⟩
  rw [find?_fst_eq hkeys hmem, Option.map_some]

theorem shift_vector {n k : Nat} (hk : k < n) (epsilon : ℚ) (x : Nat → ℚ) :
    shift epsilon k (vector n x) = .ok (vector n fun j => x j + if j = k then epsilon else 0) := by
  have hget : (vector n x).get? k 0 = some (x k) := by
    simp [get?, placeOf?, vector, hk]
  rw [shift, hget]
  have hcells : (vector n x).cells.modify k (·.set 0 (x k + epsilon)) =
      (vector n fun j => x j + if j = k then epsilon else 0).cells := by
    refine List.ext_getElem (by simp [vector]) fun j hj hj' => ?_
    rw [List.getElem_modify]
    split
    next h => simp [vector, h]
    next h => simp [vector, Ne.symm h]
  exact congrArg (fun cells => Except.ok (Matrix.mk n 1 cells)) hcells

section

variable {p : Problem ℚ} {a : Matrix ℚ} {d : Nat → ℚ} {n : Nat}

theorem affineAt_move {k : Nat} (hk : k < n) (epsilon : ℚ) (x : Nat → ℚ) (i : Nat) :
    affineAt a d n (fun j => x j + if j = k then epsilon else 0) i - affineAt a d n x i =
      entry a.cells i k * epsilon := by
  have hsum : ∑ j ∈ Finset.range n, entry a.cells i j * (x j + if j = k then epsilon else 0) =
      ∑ j ∈ Finset.range n, entry a.cells i j * x j + entry a.cells i k * epsilon := by
    simp [mul_add, Finset.sum_add_distrib, hk]
  rw [affineAt, affineAt, hsum]
  ring

namespace IsAffine

theorem pos (h : IsAffine p a d) : 0 < p.unknowns.length := h.hasShape.rows_eq ▸ h.hasShape.rows_pos

theorem value_vector (h : IsAffine p a d) {i : Nat} (hi : i < p.residuals.length) (x : Nat → ℚ) :
    p.residuals[i].value (bindings p.unknowns (vector p.unknowns.length x)) =
      .ok (affineAt a d p.unknowns.length x i) :=
  h.value_eq i hi _ x fun _ hj => bindings_vector h.nodup x hj

theorem values_vector (h : IsAffine p a d) (x : Nat → ℚ) :
    p.values (vector p.unknowns.length x) =
      .ok (vector p.unknowns.length (affineAt a d p.unknowns.length x)) := by
  rw [Problem.values, h.length_residuals, filled_eq_ok h.pos Nat.one_pos, ok_bind,
    mapM_eq_map_range fun i hi => h.value_vector hi x, ok_bind, h.length_residuals, List.map_map]
  rfl

theorem slope_vector (h : IsAffine p a d) (hepsilon : p.options.epsilon ≠ 0) {i k : Nat}
    (hi : i < p.residuals.length) (hk : k < p.unknowns.length) (x : Nat → ℚ) :
    p.slope (vector p.unknowns.length x) p.residuals[i] (affineAt a d p.unknowns.length x i) k =
      .ok (entry a.cells i k) := by
  rw [Problem.slope, shift_vector hk, ok_bind, h.value_vector hi, ok_bind, affineAt_move hk,
    Scalar.over?_of_ne hepsilon, mul_div_cancel_right₀ _ hepsilon]
  rfl

theorem slopes_vector (h : IsAffine p a d) (hepsilon : p.options.epsilon ≠ 0) {i : Nat}
    (hi : i < p.residuals.length) (x : Nat → ℚ) :
    p.slopes (vector p.unknowns.length x) i p.residuals[i]
      (affineAt a d p.unknowns.length x i) =
        .ok ((List.range p.unknowns.length).map (entry a.cells i)) := by
  rw [Problem.slopes, mapM_eq_map_range (g := entry a.cells i), List.length_zipIdx]
  intro k hk
  rw [List.length_zipIdx] at hk
  rw [List.getElem_zipIdx]
  simp only [Nat.zero_add]
  split
  · rw [h.slope_vector hepsilon hi hk, ok_bind, if_pos (h.length_residuals ▸ hi)]
    rfl
  next habsent =>
    have hzero : entry a.cells i k = 0 := by
      by_contra hne
      exact habsent (List.contains_iff_mem.mpr (h.mem_unknowns i hi k hk hne))
    rw [hzero]
    rfl

/-- The estimate of the slopes is exact at every point. -/
theorem jacobian_vector (h : IsAffine p a d) (hepsilon : p.options.epsilon ≠ 0) (x : Nat → ℚ) :
    p.jacobian (vector p.unknowns.length x)
      (vector p.unknowns.length (affineAt a d p.unknowns.length x)).firstColumn = .ok a := by
  rw [Problem.jacobian, filled_eq_ok h.pos h.pos, ok_bind, firstColumn_vector]
  generalize hzip : (p.residuals.zip ((List.range p.unknowns.length).map
    (affineAt a d p.unknowns.length x))).zipIdx = rs
  have hlength : rs.length = p.unknowns.length := by simp [← hzip, h.length_residuals]
  have hrow : ∀ i (hi : i < rs.length), p.slopes (vector p.unknowns.length x) rs[i].2 rs[i].1.1
      rs[i].1.2 = .ok ((List.range p.unknowns.length).map (entry a.cells i)) := by
    intro i hi
    have hir : i < p.residuals.length := h.length_residuals ▸ hlength ▸ hi
    have := h.slopes_vector hepsilon hir x
    simpa [← hzip] using this
  have hgrid := h.hasShape.isGrid
  rw [mapM_eq_map_range hrow, ok_bind, hlength, ← hgrid.eq_map_range]
  have hcells : a.cells.take p.unknowns.length ++ (List.replicate p.unknowns.length
      (List.replicate p.unknowns.length (0 : ℚ))).drop a.cells.length = a.cells := by
    rw [hgrid.length_cells, List.take_of_length_le hgrid.length_cells.le,
      List.drop_of_length_le (by simp), List.append_nil]
  obtain ⟨-, hrows, hcols⟩ := h.hasShape
  obtain ⟨rows, cols, cells⟩ := a
  subst hrows hcols
  exact congrArg (fun cells => Except.ok (Matrix.mk p.unknowns.length p.unknowns.length cells)) hcells

end IsAffine

end

end Simultaneous.Newton
