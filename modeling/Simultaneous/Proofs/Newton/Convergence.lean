import Simultaneous.Newton.Solver
import Simultaneous.Proofs.Double.Order
import Simultaneous.Proofs.Newton.Outcome

/-!
What convergence means. An iteration over doubles ends when no residual has changed by more than
the threshold in the last step. That does not make its last point a zero: an iteration that jumps
between two points with equal residuals converges as well.
-/

namespace Simultaneous.Newton

theorem le_of_foldl_larger {xs : List Float} (hxs : ∀ x ∈ xs, x.isNaN = false) {best m : Float}
    (hbest : best.isNaN = false)
    (hm : xs.foldl (fun b y => if Scalar.less b y then y else b) best = m) :
    m.isNaN = false ∧ best ≤ m ∧ ∀ x ∈ xs, x ≤ m := by
  induction xs generalizing best with
  | nil =>
    cases hm
    exact ⟨hbest, Double.le_refl hbest, by simp⟩
  | cons y ys ih =>
    have hy : y.isNaN = false := hxs y (by simp)
    have hys : ∀ x ∈ ys, x.isNaN = false := fun x hx => hxs x (by simp [hx])
    rw [List.foldl_cons] at hm
    by_cases hlt : best < y
    · have hless : Scalar.less best y = true := decide_eq_true hlt
      rw [if_pos hless] at hm
      obtain ⟨hnan, hle, hall⟩ := ih hys hy hm
      refine ⟨hnan, Double.le_trans hbest hy hnan (Double.le_of_lt hlt) hle, fun x hx => ?_⟩
      obtain rfl | hx := List.mem_cons.mp hx
      · exact hle
      · exact hall x hx
    · rw [if_neg (by simpa [Scalar.less] using hlt)] at hm
      obtain ⟨hnan, hle, hall⟩ := ih hys hbest hm
      refine ⟨hnan, hle, fun x hx => ?_⟩
      obtain rfl | hx := List.mem_cons.mp hx
      · exact Double.le_trans hy hbest hnan ((Double.not_lt_iff hbest hy).mp hlt) hle
      · exact hall x hx

/-- The largest of several doubles is at least as large as each of them. -/
theorem le_largestOf {xs : List Float} (hxs : ∀ x ∈ xs, x.isNaN = false) {x : Float}
    (hx : x ∈ xs) : (largestOf xs).isNaN = false ∧ x ≤ largestOf xs := by
  cases xs with
  | nil => cases hx
  | cons y ys =>
    obtain ⟨hnan, hle, hall⟩ :=
      le_of_foldl_larger (fun x hx => hxs x (List.mem_cons_of_mem y hx)) (hxs y (by simp)) rfl
    obtain rfl | hx := List.mem_cons.mp hx
    · exact ⟨hnan, hle⟩
    · exact ⟨hnan, hall x hx⟩

theorem changeBetween_column {α : Type} [Scalar α] (n : Nat) (bs as : List α) :
    changeBetween ⟨n, 1, bs.map fun b => [b]⟩ ⟨n, 1, as.map fun a => [a]⟩ =
      .ok (largestOf ((bs.zipWith (· - ·) as).map Scalar.magnitude)) := by
  have hcells : (bs.map fun b => [b]).zipWith (List.zipWith (· - ·)) (as.map fun a => [a]) =
      (bs.zipWith (· - ·) as).map fun d => [d] := by
    rw [List.zipWith_map, List.map_zipWith]
    rfl
  rw [changeBetween, Matrix.sub, Matrix.combine, Matrix.requireSameShape, if_neg (by simp),
    if_neg (by simp), Attempt.ok_bind, hcells]
  exact congrArg (fun ds : List α => Except.ok (largestOf (ds.map Scalar.magnitude)))
    (Matrix.firstColumn_column n _)

theorem isNaN_of_mem_differences {as bs : List Float} (hb : ∀ b ∈ bs, b.isFinite)
    (ha : ∀ a ∈ as, a.isFinite) {c : Float}
    (hc : c ∈ (bs.zipWith (· - ·) as).map Scalar.magnitude) : c.isNaN = false := by
  obtain ⟨d, hd, rfl⟩ := List.mem_map.mp hc
  rw [← List.map_uncurry_zip_eq_zipWith] at hd
  obtain ⟨⟨b, a⟩, hba, rfl⟩ := List.mem_map.mp hd
  obtain ⟨hbm, ham⟩ := List.of_mem_zip hba
  exact Double.isNaN_abs (Double.isNaN_sub (hb b hbm) (ha a ham))

namespace Problem

section

variable {α : Type} [Scalar α] {p : Problem α} {s s' last : Iterate α}

theorem advance_eq_ok (h : p.advance s = .ok s') : p.values s'.point = .ok s'.residuals ∧
    ∃ c, changeBetween s'.residuals s.residuals = .ok c ∧ s'.change = some c := by
  obtain ⟨slopes, -, h⟩ := Attempt.bind_eq_ok.mp h
  obtain ⟨inverse, -, h⟩ := Attempt.bind_eq_ok.mp h
  obtain ⟨step, -, h⟩ := Attempt.bind_eq_ok.mp h
  obtain ⟨point, -, h⟩ := Attempt.bind_eq_ok.mp h
  obtain ⟨residuals, hv, h⟩ := Attempt.bind_eq_ok.mp h
  obtain ⟨change, hc, h⟩ := Attempt.bind_eq_ok.mp h
  cases h
  exact ⟨hv, change, hc, rfl⟩

theorem first_eq_ok {start : Matrix α} (h : p.first start = .ok s) :
    s.point = start ∧ p.values s.point = .ok s.residuals ∧ s.change = none := by
  obtain ⟨here, hv, h⟩ := Attempt.bind_eq_ok.mp h
  cases h
  exact ⟨rfl, hv, rfl⟩

/-- Every iterate carries the residuals at its own point. -/
theorem Reaches.values_eq (h : p.Reaches s last) (hs : p.values s.point = .ok s.residuals) :
    p.values last.point = .ok last.residuals :=
  h.invariant hs fun _ _ _ ha => (advance_eq_ok ha).1

end

/-- Every residual is a finite double at a point. -/
def FiniteAt (p : Problem Float) (x : Matrix Float) : Prop :=
  ∀ r ∈ p.residuals, ∃ v, r.value (bindings p.unknowns x) = .ok v ∧ v.isFinite

variable {p : Problem Float} {prev last : Iterate Float}

theorem FiniteAt.isFinite {x : Matrix Float} (h : p.FiniteAt x) {vs : List Float}
    (hvs : (p.residuals.mapM fun r => r.value (bindings p.unknowns x)) = .ok vs) {v : Float}
    (hv : v ∈ vs) : v.isFinite := by
  obtain ⟨r, hr, hrv⟩ := Attempt.exists_of_mem_mapM hvs hv
  obtain ⟨w, hw, hfinite⟩ := h r hr
  rw [hrv] at hw
  cases hw
  exact hfinite

/-- The change of each residual from one point to another is among those that are compared. -/
theorem exists_mem_differences {x y : Matrix Float} {as bs : List Float}
    (has : (p.residuals.mapM fun r => r.value (bindings p.unknowns x)) = .ok as)
    (hbs : (p.residuals.mapM fun r => r.value (bindings p.unknowns y)) = .ok bs)
    {r : Residual Float} (hr : r ∈ p.residuals) :
    ∃ a b, r.value (bindings p.unknowns x) = .ok a ∧ r.value (bindings p.unknowns y) = .ok b ∧
      (b - a).abs ∈ (bs.zipWith (· - ·) as).map Scalar.magnitude := by
  obtain ⟨i, hi, rfl⟩ := List.mem_iff_getElem.mp hr
  obtain ⟨hla, hgeta⟩ := List.forall₂_iff_get.mp (Attempt.mapM_eq_ok has)
  obtain ⟨hlb, hgetb⟩ := List.forall₂_iff_get.mp (Attempt.mapM_eq_ok hbs)
  have hia : i < as.length := hla ▸ hi
  have hib : i < bs.length := hlb ▸ hi
  refine ⟨as[i], bs[i], hgeta i hi hia, hgetb i hi hib, ?_⟩
  refine List.mem_map.mpr ⟨bs[i] - as[i], List.mem_iff_getElem.mpr ⟨i, ?_, ?_⟩, rfl⟩
  · rw [List.length_zipWith]
    omega
  · rw [List.getElem_zipWith]

/-- Where an iteration settles, each residual has changed by no more than the threshold, as long as
all of them are finite. -/
theorem change_le_of_isSettled (hstop : p.options.stopping.isNaN = false)
    (hprev : p.values prev.point = .ok prev.residuals) (ha : p.advance prev = .ok last)
    (hsettled : p.isSettled last = true) {r : Residual Float} (hr : r ∈ p.residuals) :
    ∃ a b, r.value (bindings p.unknowns prev.point) = .ok a ∧
      r.value (bindings p.unknowns last.point) = .ok b ∧
      (p.FiniteAt prev.point → p.FiniteAt last.point → (b - a).abs ≤ p.options.stopping) := by
  obtain ⟨hlast, c, hc, hchange⟩ := advance_eq_ok ha
  obtain ⟨as, hva, has⟩ := values_eq_ok hprev
  obtain ⟨bs, hvb, hbs⟩ := values_eq_ok hlast
  rw [hva, hvb, changeBetween_column] at hc
  cases hc
  obtain ⟨a, b, hra, hrb, hmem⟩ := exists_mem_differences has hbs hr
  refine ⟨a, b, hra, hrb, fun hfp hfl => ?_⟩
  have hnan : ∀ d ∈ (bs.zipWith (· - ·) as).map Scalar.magnitude, d.isNaN = false :=
    fun d hd => isNaN_of_mem_differences (fun b hb => hfl.isFinite hbs hb)
      (fun a ha => hfp.isFinite has ha) hd
  obtain ⟨hlargest, hle⟩ := le_largestOf hnan hmem
  have hstopped :
      ¬ p.options.stopping < largestOf ((bs.zipWith (· - ·) as).map Scalar.magnitude) := by
    rw [isSettled, hchange] at hsettled
    simpa [Scalar.less] using hsettled
  exact Double.le_trans (hnan _ hmem) hlargest hstop hle
    ((Double.not_lt_iff hstop hlargest).mp hstopped)

/-- An iteration that settles where it began has an infinite threshold. -/
theorem infinite_of_isSettled {α : Type} [Scalar α] {p : Problem α} {s : Iterate α}
    (hs : s.change = none) (h : p.isSettled s = true) :
    Scalar.exceedable p.options.stopping = false := by
  rw [isSettled, hs] at h
  simpa using h

end Problem

/-- A run that gives a point ends with a step that changes no residual by more than the threshold,
unless a residual is infinite there or the threshold is. -/
theorem solveFrom_change_le {settings : Settings} {es : List Equation} {unknowns : List String}
    {solver : Solver Float} (hproblem : solver.problem = .ofEquations settings es unknowns)
    (hpos : 0 < settings.stopping) {start : Attempt (Matrix Float)} {x : Matrix Float}
    (h : (solver.solveFrom start).2 = .ok x) :
    ∃ origin first last, start = .ok origin ∧ solver.problem.first origin = .ok first ∧
      solver.problem.Reaches first last ∧ last.point.toFixed settings.roundDigits = (x, none) ∧
      (last = first ∧ ¬ settings.stopping < Decimal.infinity false ∨
        ∃ prev, solver.problem.Reaches first prev ∧ solver.problem.Continues prev last ∧
          ∀ e ∈ es, ∃ a b, e.toResidual.value (bindings unknowns prev.point) = .ok a ∧
            e.toResidual.value (bindings unknowns last.point) = .ok b ∧
            (solver.problem.FiniteAt prev.point → solver.problem.FiniteAt last.point →
              (b - a).abs ≤ settings.stopping)) := by
  obtain ⟨problem, phase, iterations, result⟩ := solver
  cases hproblem
  obtain ⟨-, origin, rfl, hrun⟩ := Solver.solveFrom_eq_ok h
  obtain ⟨steps, y, hrun, hfixed⟩ := Solver.runFrom_eq_ok hrun
  obtain ⟨first, last, hfirst, hreach, hsettled, rfl, -⟩ := Problem.run_eq_ok hrun
  obtain ⟨-, hvalues, hnone⟩ := Problem.first_eq_ok hfirst
  refine ⟨origin, first, last, rfl, hfirst, hreach, hfixed, ?_⟩
  obtain rfl | ⟨prev, hprev, hnext⟩ := hreach.eq_or_prev
  · have hinfinite := Problem.infinite_of_isSettled hnone hsettled
    simp only [Scalar.exceedable, decide_eq_false_iff_not] at hinfinite
    exact .inl ⟨rfl, hinfinite⟩
  · have hstop : settings.stopping.isNaN = false := (Double.isNaN_of_lt hpos).2
    refine .inr ⟨prev, hprev, hnext, fun e he => ?_⟩
    refine Problem.change_le_of_isSettled ?_ (hprev.values_eq hvalues) hnext.advance_eq hsettled
      (List.mem_map_of_mem he)
    exact hstop

/-- An equation without a solution: the size of a number is to be negative. -/
def negativeSize : Equation :=
  ⟨.ofTree (.call .abs [.sym "x"]) ["x"] "abs(x)", .wrap (.ofInt (-1))⟩

def negativeSizeSolver : Solver Float :=
  { problem := .ofEquations { maxIterations := 1 } [negativeSize] ["x"] }

/-- The run gives a point where the residual is larger than the threshold. -/
theorem solveFrom_negativeSize :
    Attempt.passes (fun x => Attempt.passes
        (fun v => decide (negativeSizeSolver.problem.options.stopping < v.abs))
        (negativeSize.toResidual.value (bindings ["x"] x)))
      (negativeSizeSolver.solveFrom (Matrix.column [1])).2 = true := by
  decide +kernel

theorem solveFrom_change_le_negativeSize :
    0 < negativeSizeSolver.problem.options.stopping ∧
    ∃ x, (negativeSizeSolver.solveFrom (Matrix.column [1])).2 = .ok x ∧
      ∃ prev last a b, negativeSizeSolver.problem.Continues prev last ∧
        last.point.toFixed 12 = (x, none) ∧
        negativeSize.toResidual.value (bindings ["x"] prev.point) = .ok a ∧
        negativeSize.toResidual.value (bindings ["x"] last.point) = .ok b ∧
        (negativeSizeSolver.problem.FiniteAt prev.point →
          negativeSizeSolver.problem.FiniteAt last.point →
            (b - a).abs ≤ negativeSizeSolver.problem.options.stopping) := by
  have hpos : 0 < negativeSizeSolver.problem.options.stopping := by decide
  have hfinite : negativeSizeSolver.problem.options.stopping < Decimal.infinity false := by
    decide
  have hproblem : negativeSizeSolver.problem =
      .ofEquations { maxIterations := 1 } [negativeSize] ["x"] := rfl
  obtain ⟨x, hx, -⟩ := Attempt.exists_of_passes solveFrom_negativeSize
  refine ⟨hpos, x, hx, ?_⟩
  obtain ⟨-, first, last, -, -, -, hfixed, ⟨-, hnot⟩ | ⟨prev, -, hnext, hchange⟩⟩ :=
    solveFrom_change_le hproblem hpos hx
  · exact absurd hfinite hnot
  · obtain ⟨a, b, ha, hb, hle⟩ := hchange negativeSize (by simp)
    exact ⟨prev, last, a, b, hnext, hfixed, ha, hb, hle⟩

/-- The iteration jumps from a point to its negative, where the residual is the same, and converges
although the residual is far from zero. -/
theorem exists_converged_not_zero : negativeSize.unknowns = ["x"] ∧
    0 < negativeSizeSolver.problem.options.stopping ∧
    ∃ x, (negativeSizeSolver.solveFrom (Matrix.column [1])).2 = .ok x ∧
      ∃ v, negativeSize.toResidual.value (bindings ["x"] x) = .ok v ∧
        negativeSizeSolver.problem.options.stopping < v.abs := by
  obtain ⟨x, hx, hfar⟩ := Attempt.exists_of_passes solveFrom_negativeSize
  obtain ⟨v, hv, hfar⟩ := Attempt.exists_of_passes hfar
  exact ⟨by decide, by decide, x, hx, v, hv, of_decide_eq_true hfar⟩

end Simultaneous.Newton
