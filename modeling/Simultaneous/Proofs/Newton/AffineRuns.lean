import Mathlib.Tactic.Linarith
import Simultaneous.Proofs.Newton.Affine

/-!
Runs over affine systems. Wherever a step begins it leads to the zero, and a step from the zero
changes nothing, so that a run is over after two steps at the latest.
-/

namespace Simultaneous.Newton

open Attempt Simultaneous.Matrix

section

variable {p : Problem ℚ} {a b : Matrix ℚ} {d : Nat → ℚ} {n : Nat} {tolerance : ℚ}

/-- The only zero, if the matrix of the coefficients has an inverse. -/
def root (inverse : Matrix ℚ) (d : Nat → ℚ) (n i : Nat) : ℚ :=
  -∑ j ∈ Finset.range n, entry inverse.cells i j * d j

theorem affineAt_eq_zero_iff (ha : a.HasShape n n) (hb : a.inv tolerance = .ok b) (x : Nat → ℚ) :
    (∀ i < n, affineAt a d n x i = 0) ↔ ∀ i < n, x i = root b d n i := by
  simp only [root, eq_neg_iff_add_eq_zero]
  exact sum_eq_zero_iff ha hb x d

/-- A step leads to the zero from everywhere. -/
theorem sub_sum_eq_root (ha : a.HasShape n n) (hb : a.inv tolerance = .ok b) (x : Nat → ℚ) {i : Nat}
    (hi : i < n) :
    x i - ∑ k ∈ Finset.range n, entry b.cells i k * affineAt a d n x k = root b d n i := by
  have hback := (sum_eq_zero_iff ha hb x
    fun k => -∑ j ∈ Finset.range n, entry a.cells k j * x j).mp
      (fun r _ => add_neg_cancel _) i hi
  simp only [mul_neg, Finset.sum_neg_distrib] at hback
  simp only [affineAt, mul_add, Finset.sum_add_distrib]
  rw [root]
  linarith only [hback]

theorem largestOf_eq_zero {xs : List ℚ} (h : ∀ x ∈ xs, x = 0) : largestOf xs = 0 := by
  cases xs with
  | nil => rfl
  | cons x xs =>
    have hx : x = 0 := h x List.mem_cons_self
    have hxs : ∀ y ∈ xs, y = 0 := fun y hy => h y (List.mem_cons_of_mem x hy)
    subst hx
    rw [largestOf]
    clear h
    induction xs with
    | nil => rfl
    | cons y xs ih =>
      have hy : y = 0 := hxs y List.mem_cons_self
      subst hy
      rw [List.foldl_cons, ite_self]
      exact ih fun y hy => hxs y (List.mem_cons_of_mem 0 hy)

theorem changeBetween_vector (n : Nat) (f g : Nat → ℚ) :
    changeBetween (vector n f) (vector n g) =
      .ok (largestOf ((List.range n).map fun i => |f i - g i|)) := by
  rw [changeBetween, sub_vector, ok_bind, firstColumn_vector, List.map_map]
  simp only [Function.comp_def, Scalar.magnitude_eq]
  rfl

/-- The iterate at `x`. -/
def iterateAt (p : Problem ℚ) (a : Matrix ℚ) (d : Nat → ℚ) (x : Nat → ℚ) (steps : Nat)
    (change : Option ℚ) : Iterate ℚ :=
  ⟨vector p.unknowns.length x, vector p.unknowns.length (affineAt a d p.unknowns.length x), steps,
    change⟩

/-- How far the residuals at two points are from each other. -/
def residualChange (a : Matrix ℚ) (d : Nat → ℚ) (n : Nat) (y x : Nat → ℚ) : ℚ :=
  largestOf ((List.range n).map fun i => |affineAt a d n y i - affineAt a d n x i|)

theorem residualChange_self (x : Nat → ℚ) : residualChange a d n x x = 0 := by
  refine largestOf_eq_zero fun c hc => ?_
  obtain ⟨i, -, rfl⟩ := List.mem_map.mp hc
  rw [sub_self, abs_zero]

namespace IsAffine

theorem first_vector (h : IsAffine p a d) (x : Nat → ℚ) :
    p.first (vector p.unknowns.length x) = .ok (iterateAt p a d x 0 none) := by
  rw [Problem.first, h.values_vector]
  rfl

/-- A step leads from any iterate to the zero. -/
theorem advance_iterateAt (h : IsAffine p a d) (hb : a.inv p.options.pivotTolerance = .ok b)
    (hepsilon : p.options.epsilon ≠ 0) (x : Nat → ℚ) (steps : Nat) (change : Option ℚ) :
    p.advance (iterateAt p a d x steps change) =
      .ok (iterateAt p a d (root b d p.unknowns.length) (steps + 1)
        (some (residualChange a d p.unknowns.length (root b d p.unknowns.length) x))) := by
  have hshape : b.HasShape p.unknowns.length p.unknowns.length :=
    (inv_ensures _ h.hasShape).of_eq_ok hb
  have hpoint : vector p.unknowns.length (fun i => x i - ∑ k ∈ Finset.range p.unknowns.length,
      entry b.cells i k * affineAt a d p.unknowns.length x k) =
        vector p.unknowns.length (root b d p.unknowns.length) :=
    vector_congr fun i hi => sub_sum_eq_root h.hasShape hb x hi
  simp only [Problem.advance, iterateAt]
  rw [h.jacobian_vector hepsilon, ok_bind, hb, ok_bind, mul_vector hshape, ok_bind, sub_vector,
    ok_bind, hpoint, h.values_vector, ok_bind, changeBetween_vector, ok_bind]
  rfl

/-- One step leads to the zero, and a second one stays there. -/
theorem run_vector (h : IsAffine p a d) (hb : a.inv p.options.pivotTolerance = .ok b)
    (hepsilon : p.options.epsilon ≠ 0) (hstopping : 0 ≤ p.options.stopping)
    (hmax : p.options.maxIterations ≤ 0 ∧ 3 ≤ p.options.patience ∨ 2 ≤ p.options.maxIterations)
    (x : Nat → ℚ) :
    ∃ steps, (steps = 1 ∨ steps = 2) ∧ p.run (vector p.unknowns.length x) =
      (steps, .ok (vector p.unknowns.length (root b d p.unknowns.length))) := by
  obtain ⟨fuel, hfuel⟩ : ∃ fuel, p.fuel = fuel + 3 := by
    rw [Problem.fuel]
    split
    · exact ⟨p.options.maxIterations.toNat - 2, by omega⟩
    · exact ⟨p.options.patience - 3, by omega⟩
  have hgoes : ∀ y steps change, steps ≤ 1 →
      ¬ p.isExhausted (iterateAt p a d y steps change) = true := by
    intro y steps change hsteps hexhausted
    have := of_decide_eq_true hexhausted
    simp only [iterateAt] at this
    omega
  have hunsettled : ¬ p.isSettled (iterateAt p a d x 0 none) = true := Bool.false_ne_true
  have hsettled : p.isSettled (iterateAt p a d (root b d p.unknowns.length) 2 (some 0)) = true := by
    simpa [Problem.isSettled, iterateAt] using Scalar.less_eq_false_iff.mpr hstopping
  rw [Problem.run, h.first_vector]
  simp only
  rw [hfuel, Problem.iterate, if_neg hunsettled, if_neg (hgoes x 0 none (Nat.zero_le 1)),
    h.advance_iterateAt hb hepsilon]
  simp only [Nat.zero_add]
  rw [Problem.iterate]
  split
  · exact ⟨1, .inl rfl, rfl⟩
  · refine ⟨2, .inr rfl, ?_⟩
    rw [if_neg (hgoes _ 1 _ le_rfl), h.advance_iterateAt hb hepsilon, residualChange_self]
    simp only
    rw [Problem.iterate, if_pos hsettled]
    rfl

end IsAffine

/-- Only the root makes all residuals vanish. -/
theorem IsAffine.values_eq_zero_iff (h : IsAffine p a d) (hb : a.inv tolerance = .ok b)
    {y : Matrix ℚ} (hy : y.HasShape p.unknowns.length 1) :
    p.values y = .ok (replicate p.unknowns.length 1 0) ↔
      y = vector p.unknowns.length (root b d p.unknowns.length) := by
  have hzero : replicate p.unknowns.length 1 (0 : ℚ) = vector p.unknowns.length fun _ => 0 := by
    rw [vector, List.map_const', List.length_range]
    rfl
  rw [hy.eq_vector, h.values_vector, hzero, Except.ok.injEq, vector_inj, vector_inj]
  exact affineAt_eq_zero_iff h.hasShape hb _

/-- An affine system whose matrix of coefficients can be inverted is solved exactly: its slopes are
estimated as these coefficients, and after one or two steps from any point a run gives the only
zero, rounded. -/
theorem solveFrom_affine {s : Solver ℚ} (h : IsAffine s.problem a d)
    (hb : a.inv s.problem.options.pivotTolerance = .ok b) (hepsilon : s.problem.options.epsilon ≠ 0)
    (hstopping : 0 ≤ s.problem.options.stopping)
    (hmax : s.problem.options.maxIterations ≤ 0 ∧ 3 ≤ s.problem.options.patience ∨
      2 ≤ s.problem.options.maxIterations)
    {start : Matrix ℚ} (hstart : start.HasShape s.problem.unknowns.length 1) :
    (∀ x : Matrix ℚ, x.HasShape s.problem.unknowns.length 1 →
      ∃ here, s.problem.values x = .ok here ∧ s.problem.jacobian x here.firstColumn = .ok a) ∧
    ∃ zero result steps, zero.HasShape s.problem.unknowns.length 1 ∧
      (∀ y : Matrix ℚ, y.HasShape s.problem.unknowns.length 1 →
        (s.problem.values y = .ok (replicate s.problem.unknowns.length 1 0) ↔ y = zero)) ∧
      zero.toFixed s.problem.options.roundDigits = (result, none) ∧
      (steps = 1 ∨ steps = 2) ∧
      s.solveFrom (.ok start) =
        ({ s with phase := .converged, iterations := steps, result := some result },
          .ok result) := by
  refine ⟨fun x hx => ?_, ?_⟩
  · rw [hx.eq_vector]
    exact ⟨_, h.values_vector _, h.jacobian_vector hepsilon _⟩
  obtain ⟨steps, hsteps, hrun⟩ :=
    h.run_vector hb hepsilon hstopping hmax fun i => entry start.cells i 0
  rw [← hstart.eq_vector] at hrun
  obtain ⟨result, hfixed⟩ : ∃ result, (vector s.problem.unknowns.length
      (root b d s.problem.unknowns.length)).toFixed s.problem.options.roundDigits =
        (result, none) := ⟨_, Prod.ext rfl (toFixed_snd _ _)⟩
  refine ⟨_, result, steps, hasShape_vector h.pos _, fun y hy => h.values_eq_zero_iff hb hy, hfixed,
    hsteps, ?_⟩
  have hmatch : s.mismatch? = none := by simp [Solver.mismatch?, h.length_residuals]
  simp only [Solver.solveFrom, hmatch, Solver.runFrom, hrun, hfixed]

end

/-- The residual with the given coefficients and constant. -/
def affineResidual (terms : List (String × ℚ)) (constant : ℚ) : Residual ℚ where
  unknowns := terms.map (·.1)
  value env := do
    let products ← terms.mapM fun (name, q) => match env name with
      | some x => .ok (q * x)
      | none => .error (.broken (.missingKey name))
    return products.sum + constant

/-- The sum of two numbers is three, and twice the second one is four. -/
def sumAndDouble : Solver ℚ where
  problem :=
    { residuals := [affineResidual [("x", 1), ("y", 1)] (-3), affineResidual [("y", 2)] (-4)]
      unknowns := ["x", "y"]
      options := ⟨1 / 1000, 1 / 1000, 2, 0, 6, 1 / 1000⟩ }

theorem sumAndDouble_isAffine :
    IsAffine sumAndDouble.problem ⟨2, 2, [[1, 1], [0, 2]]⟩ fun i => if i = 0 then -3 else -4 := by
  refine ⟨by decide, rfl, ⟨⟨by decide, by decide, rfl, by decide⟩, rfl, rfl⟩, ?_, ?_⟩
  · intro i hi env x henv
    have hx : env "x" = some (x 0) := henv 0 (by decide)
    have hy : env "y" = some (x 1) := henv 1 (by decide)
    have hi : i < 2 := hi
    interval_cases i
    · simp [sumAndDouble, affineResidual, hx, hy, Finset.sum_range_succ, entry, ok_bind]
    · simp [sumAndDouble, affineResidual, hy, Finset.sum_range_succ, entry]
  · intro i hi j hj hne
    have hi : i < 2 := hi
    have hj : j < 2 := hj
    interval_cases i <;> interval_cases j
    · simp [sumAndDouble, affineResidual]
    · simp [sumAndDouble, affineResidual]
    · exact absurd rfl hne
    · simp [sumAndDouble, affineResidual]

theorem solveFrom_affine_sumAndDouble :
    ∃ result steps, (steps = 1 ∨ steps = 2) ∧ result.cells = [[1], [2]] ∧
      sumAndDouble.solveFrom (.ok ⟨2, 1, [[7], [-5]]⟩) =
        ({ sumAndDouble with phase := .converged, iterations := steps, result := some result },
          .ok result) := by
  have hinv : Attempt.passes (fun b => b.cells == [[1, -1 / 2], [0, 1 / 2]])
      (Matrix.inv sumAndDouble.problem.options.pivotTolerance ⟨2, 2, [[1, 1], [0, 2]]⟩) = true := by
    decide +kernel
  obtain ⟨b, hb, -⟩ := exists_of_passes hinv
  have hepsilon : sumAndDouble.problem.options.epsilon ≠ 0 := by decide +kernel
  have hstopping : 0 ≤ sumAndDouble.problem.options.stopping := by decide +kernel
  have hshape : ∀ u v : ℚ, HasShape ⟨2, 1, [[u], [v]]⟩ 2 1 := fun u v =>
    ⟨⟨Nat.two_pos, Nat.one_pos, rfl, by simp⟩, rfl, rfl⟩
  obtain ⟨-, zero, result, steps, -, hzero, hfixed, hsteps, hsolve⟩ :=
    solveFrom_affine sumAndDouble_isAffine hb hepsilon hstopping (.inr (by decide)) (hshape 7 (-5))
  -- the solution is the point with these coordinates, since it is a zero
  have hvalues : Attempt.passes (· = replicate 2 1 0)
      (sumAndDouble.problem.values ⟨2, 1, [[1], [2]]⟩) = true := by decide +kernel
  obtain ⟨values, hv, hvalues⟩ := exists_of_passes hvalues
  obtain rfl := of_decide_eq_true hvalues
  obtain rfl := (hzero _ (hshape 1 2)).mp hv
  have hcells : ((⟨2, 1, [[1], [2]]⟩ : Matrix ℚ).toFixed
      sumAndDouble.problem.options.roundDigits).1.cells = [[1], [2]] := by decide +kernel
  rw [hfixed] at hcells
  exact ⟨result, steps, hsteps, hcells, hsolve⟩

end Simultaneous.Newton
