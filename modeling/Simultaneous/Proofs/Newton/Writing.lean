import Simultaneous.Proofs.Newton.Sides

/-!
Systems written down otherwise. Another order of the equations can lead to other pivots; where none
is wanting, a run goes through the same points, as it does where sides are exchanged.
-/

namespace Simultaneous.Newton

open Attempt Simultaneous.Matrix

namespace Problem

variable {p p' : Problem ℚ}

/-- The slopes of a residual are the same in every row. -/
theorem jacobian_valuesOf (hp : p.IsSquare) (x : Matrix ℚ) (g : Residual ℚ → ℚ) :
    p.jacobian x (valuesOf g p.residuals).firstColumn =
      (p.residuals.mapM fun r => p.slopes x 0 r (g r)) >>= fun rows =>
        .ok ⟨p.unknowns.length, p.unknowns.length, rows⟩ := by
  have hlength : (valuesOf g p.residuals).firstColumn.length = p.unknowns.length := by
    rw [firstColumn_valuesOf, List.length_map, hp.length_residuals]
  have hplace : ∀ (c : Residual ℚ × ℚ) i, i < 0 + (p.residuals.zip (p.residuals.map g)).length →
      p.slopes x i c.1 c.2 = p.slopes x 0 c.1 c.2 := by
    intro c i hi
    have hi : i < p.unknowns.length := by simp [hp.length_residuals] at hi; omega
    rw [slopes, slopes]
    simp only [if_pos hi, if_pos hp.pos]
  rw [jacobian_eq hp x hlength, firstColumn_valuesOf, mapM_zipIdx hplace,
    ← List.map_prod_left_eq_zip, List.mapM_map]
  rfl

/-- The largest of several sizes in any order. -/
theorem largestOf_perm {xs ys : List ℚ} (hperm : xs.Perm ys) (hxs : ∀ x ∈ xs, 0 ≤ x) :
    largestOf xs = largestOf ys := by
  have hfold : ∀ xs : List ℚ, (∀ x ∈ xs, 0 ≤ x) → largestOf xs = xs.foldl max 0 := by
    intro xs hxs
    obtain _ | ⟨x, xs⟩ := xs
    · rfl
    rw [List.foldl_cons, max_eq_right (hxs x List.mem_cons_self), largestOf]
    congr 1
    funext best y
    rw [max_def_lt]
    exact if_congr Scalar.less_iff rfl rfl
  rw [hfold xs hxs, hfold ys fun y hy => hxs y (hperm.mem_iff.mpr hy), hperm.foldl_eq]

/-- The residuals of one problem are those of the other in another order, and none of them has no
value for want of a pivot. -/
structure ReorderedAs (p p' : Problem ℚ) : Prop where
  square : p.IsSquare
  unknowns_eq : p'.unknowns = p.unknowns
  options_eq : p'.options = p.options
  perm : p.residuals.Perm p'.residuals
  not_wantsPivot : ∀ r ∈ p.residuals, ∀ env f, r.value env = .error f → ¬ WantsPivot f

namespace ReorderedAs

variable (h : ReorderedAs p p')

include h

theorem square' : p'.IsSquare :=
  ⟨by rw [← h.perm.length_eq, h.unknowns_eq, h.square.length_residuals],
    h.unknowns_eq ▸ h.square.pos⟩

/-- Columns with the same entry for each residual. -/
def Columns (p p' : Problem ℚ) (v v' : Matrix ℚ) : Prop :=
  ∃ g : Residual ℚ → ℚ, v = valuesOf g p.residuals ∧ v' = valuesOf g p'.residuals

theorem values_agree (x : Matrix ℚ) :
    Agree (Columns p p') Akin (p.values x) (p'.values x) := by
  rw [values_eq h.square, values_eq h.square', h.unknowns_eq]
  apply (mapM_perm h.perm fun r hr r' hr' f f' hf hf' => akin_of_not
    (h.not_wantsPivot r hr _ f hf) (h.not_wantsPivot r' hr' _ f' hf')).bind
  rintro _ _ ⟨g, rfl, rfl⟩
  refine .ok ⟨g, ?_, ?_⟩
  · rw [valuesOf, h.square.length_residuals, List.map_map]
    rfl
  · rw [valuesOf, h.square'.length_residuals, h.unknowns_eq, List.map_map]
    rfl

theorem jacobian_agree (x : Matrix ℚ) (g : Residual ℚ → ℚ) :
    Agree (fun a a' => a.HasShape p.unknowns.length p.unknowns.length ∧
      a'.HasShape p.unknowns.length p.unknowns.length ∧ ∃ row : Residual ℚ → List ℚ,
        a = rowsOf p.unknowns.length row p.residuals ∧
        a' = rowsOf p.unknowns.length row p'.residuals) Akin
          (p.jacobian x (valuesOf g p.residuals).firstColumn)
          (p'.jacobian x (valuesOf g p'.residuals).firstColumn) := by
  have hlength : ∀ {p : Problem ℚ}, p.IsSquare →
      (valuesOf g p.residuals).firstColumn.length = p.unknowns.length := by
    intro p hp
    rw [firstColumn_valuesOf, List.length_map, hp.length_residuals]
  have hshape := jacobian_ensures h.square x (hlength h.square)
  have hshape' := jacobian_ensures h.square' x (hlength h.square')
  rw [h.unknowns_eq] at hshape'
  refine Agree.and_ensures ?_ hshape hshape'
  have hslopes : ∀ r, p'.slopes x 0 r (g r) = p.slopes x 0 r (g r) := by
    intro r
    simp only [slopes, slope, h.unknowns_eq, h.options_eq]
  have hspares : ∀ r ∈ p.residuals, ∀ f, p.slopes x 0 r (g r) = .error f → ¬ WantsPivot f :=
    fun r hr f hf => (slopes_spares (h.not_wantsPivot r hr) x 0 (g r)).of_eq_error hf
  rw [jacobian_valuesOf h.square, jacobian_valuesOf h.square', h.unknowns_eq]
  simp only [hslopes]
  apply (mapM_perm h.perm fun r hr r' hr' f f' hf hf' =>
    akin_of_not (hspares r hr f hf) (hspares r' hr' f' hf')).bind
  rintro _ _ ⟨row, rfl, rfl⟩
  exact .ok ⟨row, rfl, rfl⟩

theorem changeBetween_eq (g g' : Residual ℚ → ℚ) :
    changeBetween (valuesOf g p'.residuals) (valuesOf g' p'.residuals) =
      changeBetween (valuesOf g p.residuals) (valuesOf g' p.residuals) := by
  rw [changeBetween, changeBetween, sub_valuesOf, sub_valuesOf, ok_bind, ok_bind,
    firstColumn_valuesOf, firstColumn_valuesOf, List.map_map, List.map_map,
    largestOf_perm (h.perm.map _).symm]
  intro x hx
  obtain ⟨r, -, rfl⟩ := List.mem_map.mp hx
  simp only [Function.comp_apply, Scalar.magnitude_eq]
  exact abs_nonneg _

/-- Iterates at the same point with the same residuals in their own orders. -/
structure Related (p p' : Problem ℚ) (s s' : Iterate ℚ) : Prop extends InStep s s' where
  residuals : Columns p p' s.residuals s'.residuals

theorem first_agree (start : Matrix ℚ) :
    Agree (Related p p') Akin (p.first start) (p'.first start) :=
  (h.values_agree start).bind fun _ _ hv => .ok ⟨⟨rfl, rfl, rfl⟩, hv⟩

/-- A step from related iterates leads to related ones, unless a pivot is wanting in one of them. -/
theorem advance_agree {s s' : Iterate ℚ} (hs : Related p p' s s')
    (hspares : Spares WantsPivot (p.advance s)) (hspares' : Spares WantsPivot (p'.advance s')) :
    Agree (Related p p') Akin (p.advance s) (p'.advance s') := by
  obtain ⟨⟨hpoint, hsteps, -⟩, g, hg, hg'⟩ := hs
  rw [advance_eq, hg] at hspares
  rw [advance_eq, hpoint, hg', h.options_eq] at hspares'
  rw [advance_eq, advance_eq, hpoint, hsteps, hg, hg', h.options_eq]
  have hjacobian := h.jacobian_agree s.point g
  rcases ha : p.jacobian s.point (valuesOf g p.residuals).firstColumn with f | a <;>
    rcases ha' : p'.jacobian s.point (valuesOf g p'.residuals).firstColumn with f' | a' <;>
    rw [ha, ha'] at hjacobian
  · cases hjacobian with
    | error he => exact .error he
  · cases hjacobian
  · cases hjacobian
  cases hjacobian with
  | ok hrows =>
  obtain ⟨hshape, hshape', row, rfl, rfl⟩ := hrows
  rw [ha] at hspares
  rw [ha'] at hspares'
  have hpivot : ∀ k, (rowsOf p.unknowns.length row p.residuals).inv p.options.pivotTolerance ≠
      .error (.matrix (.noPivot k) false) := by
    intro k hk
    rw [ok_bind, hk] at hspares
    exact hspares _ rfl rfl
  have hpivot' : ∀ k, (rowsOf p.unknowns.length row p'.residuals).inv p.options.pivotTolerance ≠
      .error (.matrix (.noPivot k) false) := by
    intro k hk
    rw [ok_bind, hk] at hspares'
    exact hspares' _ rfl rfl
  rw [ok_bind, ok_bind,
    inv_mul_perm h.perm h.square.length_residuals hshape hshape' hpivot hpivot']
  apply (Agree.of_eq Akin.refl rfl).bind
  rintro step _ rfl
  apply (Agree.of_eq Akin.refl rfl).bind
  rintro x _ rfl
  apply (h.values_agree x).bind
  rintro _ _ ⟨g', rfl, rfl⟩
  rw [h.changeBetween_eq]
  apply (Agree.of_eq Akin.refl rfl).bind
  rintro change _ rfl
  exact .ok ⟨⟨rfl, rfl, rfl⟩, g', rfl, rfl⟩

theorem run_parallel {start : Matrix ℚ} (hspares : Spares WantsPivot (p.run start).2)
    (hspares' : Spares WantsPivot (p'.run start).2) :
    Parallel (p.visited start, p.run start) (p'.visited start, p'.run start) :=
  Problem.run_parallel h.options_eq (fun _ _ hs => hs.toInStep) (h.first_agree start)
    (fun _ _ hs => h.advance_agree hs) hspares hspares'

end ReorderedAs

end Problem

namespace Solver

variable {s s' : Solver ℚ} {es es' : List (Sides ℚ)} {start : Matrix ℚ}

/-- A solver of other equations in the same variables. -/
def withSides (s : Solver ℚ) (es : List (Sides ℚ)) : Solver ℚ :=
  { s with problem := { s.problem with residuals := es.map Sides.residual } }

/-- A run fails because there is no pivot. -/
def LacksPivot (s : Solver ℚ) (start : Matrix ℚ) : Prop :=
  ∃ f, (s.solveFrom (.ok start)).2 = .error f ∧ WantsPivot f

/-- Two solvers go from a point through the same points, with as many steps, to the same result. -/
structure SameCourse (s s' : Solver ℚ) (start : Matrix ℚ) : Prop where
  visited_eq : s'.problem.visited start = s.problem.visited start
  iterations_eq :
    (s'.solveFrom (.ok start)).1.iterations = (s.solveFrom (.ok start)).1.iterations
  returned_iff : ∀ x, (s'.solveFrom (.ok start)).2 = .ok x ↔ (s.solveFrom (.ok start)).2 = .ok x

theorem SameCourse.refl (s : Solver ℚ) (start : Matrix ℚ) : SameCourse s s start :=
  ⟨rfl, rfl, fun _ => Iff.rfl⟩

theorem SameCourse.trans {s'' : Solver ℚ} (h : SameCourse s s' start)
    (h' : SameCourse s' s'' start) : SameCourse s s'' start :=
  ⟨h'.visited_eq.trans h.visited_eq, h'.iterations_eq.trans h.iterations_eq,
    fun x => (h'.returned_iff x).trans (h.returned_iff x)⟩

theorem spares_run (hsquare : es.length = s.problem.unknowns.length)
    (h : ¬ LacksPivot (s.withSides es) start) :
    Spares WantsPivot ((s.withSides es).problem.run start).2 := by
  intro f hf hwants
  refine h ⟨f, ?_, hwants⟩
  have hmismatch : mismatch? (s.withSides es) = none := by
    rw [mismatch?, withSides]
    simp only [List.length_map, hsquare, if_true]
  rcases hrun : (s.withSides es).problem.run start with ⟨steps, r⟩
  rw [hrun] at hf
  cases hf
  simp only [solveFrom, hmismatch, runFrom, hrun]

theorem withSides_parallel (hlength : es'.length = es.length)
    (h : Problem.Parallel
      ((s.withSides es).problem.visited start, (s.withSides es).problem.run start)
      ((s.withSides es').problem.visited start, (s.withSides es').problem.run start)) :
    SameCourse (s.withSides es) (s.withSides es') start ∧
      (LacksPivot (s.withSides es) start ↔ LacksPivot (s.withSides es') start) := by
  have hresiduals : (s.withSides es').problem.residuals.length =
      (s.withSides es).problem.residuals.length := by
    simp only [withSides, List.length_map, hlength]
  obtain ⟨hsteps, hagree⟩ := solveFrom_parallel (s := s) hresiduals rfl rfl h
  change Agree Eq Akin ((s.withSides es).solveFrom (.ok start)).2
    ((s.withSides es').solveFrom (.ok start)).2 at hagree
  refine ⟨⟨h.visited_eq, hsteps, fun x => ?_⟩, ?_⟩
  · generalize ((s.withSides es).solveFrom (.ok start)).2 = r,
      ((s.withSides es').solveFrom (.ok start)).2 = r' at hagree ⊢
    cases hagree with
    | ok hx => rw [hx]
    | error _ => exact iff_of_false nofun nofun
  · simp only [LacksPivot]
    generalize ((s.withSides es).solveFrom (.ok start)).2 = r,
      ((s.withSides es').solveFrom (.ok start)).2 = r' at hagree ⊢
    cases hagree with
    | ok hx => rw [hx]
    | error hakin => simpa [Akin] using hakin

theorem signedAs_exchangeAt (hsquare : es.length = s.problem.unknowns.length) (hpos : 0 < es.length)
    (chosen : Nat → Bool) :
    Problem.SignedAs (s.withSides es).problem (s.withSides (Sides.exchangeAt chosen es)).problem
      fun i => if chosen i then -1 else 1 where
  square := ⟨(List.length_map _).trans hsquare, hsquare ▸ hpos⟩
  unknowns_eq := rfl
  options_eq := rfl
  length_eq := by simp only [withSides, Sides.exchangeAt, List.length_map, List.length_mapIdx]
  scaled i hi hi' := by
    simp only [withSides, Sides.exchangeAt, List.getElem_map, List.getElem_mapIdx]
    split
    · exact scaled_exchanged _
    · exact scaled_self _

theorem reorderedAs_of_perm (hsquare : es.length = s.problem.unknowns.length)
    (hpos : 0 < es.length) (hperm : es.Perm es') :
    Problem.ReorderedAs (s.withSides es).problem (s.withSides es').problem where
  square := ⟨(List.length_map _).trans hsquare, hsquare ▸ hpos⟩
  unknowns_eq := rfl
  options_eq := rfl
  perm := hperm.map _
  not_wantsPivot r hr env f h := by
    obtain ⟨e, -, rfl⟩ := List.mem_map.mp hr
    exact not_wantsPivot_residual h

/-- A square system with the sides of some equations exchanged takes the same course, and lacks a
pivot if it did before; written in another order besides, it takes the same course as well if
neither run lacks a pivot. -/
theorem solveFrom_rewritten (s : Solver ℚ) (start : Matrix ℚ) (chosen : Nat → Bool)
    (hsquare : es.length = s.problem.unknowns.length)
    (hperm : (Sides.exchangeAt chosen es).Perm es') :
    (SameCourse (s.withSides es) (s.withSides (Sides.exchangeAt chosen es)) start ∧
      (LacksPivot (s.withSides es) start ↔
        LacksPivot (s.withSides (Sides.exchangeAt chosen es)) start)) ∧
    (¬ LacksPivot (s.withSides es) start → ¬ LacksPivot (s.withSides es') start →
      SameCourse (s.withSides es) (s.withSides es') start) := by
  have hlength : (Sides.exchangeAt chosen es).length = es.length := List.length_mapIdx
  obtain rfl | hpos : es = [] ∨ 0 < es.length := by
    rw [List.length_pos_iff]
    exact em _
  · obtain rfl : es' = [] := hperm.nil_eq.symm
    exact ⟨⟨.refl _ _, Iff.rfl⟩, fun _ _ => .refl _ _⟩
  have hexchanged := withSides_parallel hlength
    ((signedAs_exchangeAt (s := s) hsquare hpos chosen).run_parallel start)
  refine ⟨hexchanged, fun h h' => hexchanged.1.trans ?_⟩
  have hsquare' := hlength.trans hsquare
  exact (withSides_parallel hperm.length_eq.symm
    ((reorderedAs_of_perm hsquare' (hlength ▸ hpos) hperm).run_parallel
      (spares_run hsquare' (mt hexchanged.2.mpr h))
      (spares_run (hperm.length_eq.symm.trans hsquare') h'))).1

end Solver

/-- A sum of multiples of variables, and a constant. -/
def affineSide (terms : List (String × ℚ)) (constant : ℚ) : Side ℚ where
  unknowns := terms.map (·.1)
  value := (affineResidual terms constant).value
  not_wantsPivot env f h := by
    obtain h | ⟨_, _, h⟩ := bind_eq_error.mp h
    · have hterms : Ensures (fun _ => True) (fun f => ¬ WantsPivot f)
          (terms.mapM fun (name, q) => match env name with
            | some x => Except.ok (q * x)
            | none => .error (Failure.broken (.missingKey name))) :=
        (Ensures.mapM (Q := fun _ => True) fun ⟨name, q⟩ _ => by
          dsimp only
          split
          · exact .ok trivial
          · exact .error (not_wantsPivot_broken _)).imp (fun _ _ => trivial) fun _ h => h
      exact hterms.of_eq_error h
    · cases h

/-- The equations of `sumAndDouble`: x + y = 3 and 4 = 2y. -/
def sumAndDoubleSides : List (Sides ℚ) :=
  [⟨affineSide [("x", 1), ("y", 1)] 0, affineSide [] 3⟩, ⟨affineSide [] 4, affineSide [("y", 2)] 0⟩]

theorem solveFrom_rewritten_sumAndDouble :
    Solver.SameCourse (sumAndDouble.withSides sumAndDoubleSides)
      (sumAndDouble.withSides [⟨affineSide [] 4, affineSide [("y", 2)] 0⟩,
        ⟨affineSide [] 3, affineSide [("x", 1), ("y", 1)] 0⟩]) ⟨2, 1, [[7], [-5]]⟩ ∧
    ∃ x,
      ((sumAndDouble.withSides sumAndDoubleSides).solveFrom (.ok ⟨2, 1, [[7], [-5]]⟩)).2 = .ok x ∧
        (x.cells == [[1], [2]]) = true := by
  have hpasses : Attempt.passes (fun x => x.cells == [[1], [2]])
      ((sumAndDouble.withSides sumAndDoubleSides).solveFrom
        (.ok ⟨2, 1, [[7], [-5]]⟩)).2 = true := by
    decide +kernel
  have hpasses' : Attempt.passes (fun _ => true)
      ((sumAndDouble.withSides [⟨affineSide [] 4, affineSide [("y", 2)] 0⟩,
        ⟨affineSide [] 3, affineSide [("x", 1), ("y", 1)] 0⟩]).solveFrom
          (.ok ⟨2, 1, [[7], [-5]]⟩)).2 = true := by
    decide +kernel
  obtain ⟨x, hx, hcells⟩ := exists_of_passes hpasses
  obtain ⟨x', hx', -⟩ := exists_of_passes hpasses'
  have hperm : (Sides.exchangeAt (· == 0) sumAndDoubleSides).Perm
      [⟨affineSide [] 4, affineSide [("y", 2)] 0⟩,
        ⟨affineSide [] 3, affineSide [("x", 1), ("y", 1)] 0⟩] := .swap _ _ _
  refine ⟨(Solver.solveFrom_rewritten sumAndDouble _ (· == 0) rfl hperm).2 ?_ ?_, x, hx, hcells⟩
  · rintro ⟨f, hf, -⟩
    cases hx.symm.trans hf
  · rintro ⟨f, hf, -⟩
    cases hx'.symm.trans hf

end Simultaneous.Newton
