import Simultaneous.Proofs.Matrix.Elimination
import Simultaneous.Proofs.Newton.Trajectory

/-!
The sizes in an iteration over as many residuals as variables. A point and its residuals are columns
and their slopes a square matrix, all of the same size, so that no run fails for want of fitting
sizes.
-/

namespace Simultaneous.Newton.Problem

open Attempt

variable {α : Type}

/-- As many residuals as variables, and at least one of each. -/
structure IsSquare (p : Problem α) : Prop where
  length_residuals : p.residuals.length = p.unknowns.length
  pos : 0 < p.unknowns.length

/-- A column with an entry for each variable. -/
abbrev Fits (p : Problem α) (x : Matrix α) : Prop := x.HasShape p.unknowns.length 1

variable [Scalar α] {p : Problem α}

/-- What a run can fail with: a residual has no value, there is no pivot, or the allowed steps are
used up; and for want of a proper option, a slope cannot be taken, the iteration does not end, or
the result cannot be rounded. -/
inductive Fault (p : Problem α) : Failure → Prop
  | value {r : Residual α} {env : String → Option α} {f : Failure} (mem : r ∈ p.residuals)
      (value_eq : r.value env = .error f) : Fault p f
  | singular {f : Failure} (h : Matrix.Singular p.options.pivotTolerance f) : Fault p f
  | noConvergence (steps : Nat) (change : String) :
      Fault p (.unsolved (.noConvergence steps change))
  | noSlope {d : α} (over?_eq : Scalar.over? d p.options.epsilon = none) :
      Fault p (.broken .floatDivisionByZero)
  | endless (unlimited : p.options.maxIterations ≤ 0) : Fault p (.broken .endless)
  | tooLarge {x : α} (rounded?_eq : Scalar.rounded? p.options.roundDigits x = none) :
      Fault p (.broken .roundedTooLarge)

/-- What a run from a point can fail with. Only a point of another size can lack a coordinate, or not
fit the step to be taken from it. -/
inductive Halt (p : Problem α) (point : Matrix α) : Failure → Prop
  | fault {f : Failure} (h : Fault p f) : Halt p point f
  | noCoordinate (h : ¬ p.Fits point) : Halt p point (.broken (.indexOutOfRange "list"))
  | misfit {reason : MatrixFault} (h : ¬ p.Fits point) : Halt p point (.matrix reason false)

theorem Halt.imp {x y : Matrix α} {f : Failure} (h : p.Halt x f) (hyx : p.Fits y → p.Fits x) :
    p.Halt y f := by
  cases h with
  | fault h => exact .fault h
  | noCoordinate h => exact .noCoordinate (mt hyx h)
  | misfit h => exact .misfit (mt hyx h)

theorem Halt.fault_of_fits {x : Matrix α} {f : Failure} (h : p.Halt x f) (hx : p.Fits x) :
    p.Fault f := by
  cases h with
  | fault h => exact h
  | noCoordinate h | misfit h => exact absurd hx h

theorem values_eq_ok {x v : Matrix α} (h : p.values x = .ok v) : ∃ vs : List α,
    v = ⟨p.residuals.length, 1, vs.map fun v => [v]⟩ ∧
      (p.residuals.mapM fun r => r.value (bindings p.unknowns x)) = .ok vs := by
  obtain ⟨blank, hb, h⟩ := bind_eq_ok.mp h
  obtain ⟨vs, hvs, h⟩ := bind_eq_ok.mp h
  cases h
  rw [Matrix.filled] at hb
  split at hb <;> cases hb
  exact ⟨vs, rfl, hvs⟩

theorem values_ensures (hp : p.IsSquare) (x : Matrix α) :
    Ensures p.Fits p.Fault (p.values x) := by
  rw [values, hp.length_residuals, Matrix.filled_eq_ok hp.pos Nat.one_pos, ok_bind]
  have hvalue : ∀ r ∈ p.residuals, Ensures (fun _ => True) p.Fault
      (r.value (bindings p.unknowns x)) := by
    intro r hr
    cases hv : r.value (bindings p.unknowns x) with
    | ok v => exact .ok trivial
    | error f => exact .error (.value hr hv)
  apply (Ensures.mapM hvalue).bind
  rintro vs ⟨hlength, -⟩
  have hg := Matrix.isGrid_column vs
  rw [hlength, hp.length_residuals] at hg
  exact .ok (hg.hasShape hp.pos Nat.one_pos)

theorem exists_shift {n k : Nat} {x : Matrix α} (hx : x.HasShape n 1) (hk : k < n) (epsilon : α) :
    ∃ moved, shift epsilon k x = .ok moved := by
  have hcells : k < x.cells.length := hx.isGrid.length_cells.symm ▸ hk
  have hrow : x.cells[k].length = 1 := hx.isGrid.length_row _ (List.getElem_mem hcells)
  obtain ⟨y, hy⟩ := List.length_eq_one_iff.mp hrow
  have hget : x.get? k 0 = some y := by
    simp [Matrix.get?, placeOf?, hcells, hy]
  rw [shift, hget]
  exact ⟨_, rfl⟩

theorem shift_ensures {k : Nat} (hk : k < p.unknowns.length) (x : Matrix α) (epsilon : α) :
    Ensures (fun _ => True) (p.Halt x) (shift epsilon k x) := by
  by_cases hx : p.Fits x
  · obtain ⟨moved, hmoved⟩ := exists_shift hx hk epsilon
    rw [hmoved]
    exact .ok trivial
  · rw [shift]
    split
    · exact .error (.noCoordinate hx)
    · exact .ok trivial

theorem slope_ensures {r : Residual α} {k : Nat} (hk : k < p.unknowns.length)
    (hr : r ∈ p.residuals) (x : Matrix α) (here : α) :
    Ensures (fun _ => True) (p.Halt x) (p.slope x r here k) := by
  apply (shift_ensures hk x p.options.epsilon).bind
  intro moved _
  cases hv : r.value (bindings p.unknowns moved) with
  | error f => exact .error (.fault (.value hr hv))
  | ok there =>
    rw [ok_bind]
    split
    · exact .ok trivial
    next hover => exact .error (.fault (.noSlope hover))

theorem slopes_ensures {i : Nat} {r : Residual α} (hi : i < p.unknowns.length)
    (hr : r ∈ p.residuals) (x : Matrix α) (here : α) :
    Ensures (fun row => row.length = p.unknowns.length) (p.Halt x) (p.slopes x i r here) := by
  have hslope : ∀ q ∈ p.unknowns.zipIdx, Ensures (fun _ => True) (p.Halt x)
      (if r.unknowns.contains q.1 then do
        let s ← p.slope x r here q.2
        if i < p.unknowns.length then return s
        else .error (.broken (.indexOutOfRange "list"))
      else return 0) := by
    rintro ⟨name, k⟩ hq
    obtain ⟨hk, -⟩ := List.mem_zipIdx' hq
    split
    · apply (slope_ensures hk hr x here).bind
      intro s _
      exact .ok trivial
    · exact .ok trivial
  exact (Ensures.mapM hslope).imp (fun row h => h.1.trans List.length_zipIdx) fun _ h => h

/-- Over as many residuals as variables the slopes fill their matrix. -/
theorem jacobian_eq (hp : p.IsSquare) (x : Matrix α) {here : List α}
    (hl : here.length = p.unknowns.length) : p.jacobian x here = (do
      let rows ← (p.residuals.zip here).zipIdx.mapM fun ((r, v), i) => p.slopes x i r v
      return ⟨p.unknowns.length, p.unknowns.length, rows⟩) := by
  rw [jacobian, Matrix.filled_eq_ok hp.pos hp.pos, ok_bind]
  cases hrows : (p.residuals.zip here).zipIdx.mapM fun ((r, v), i) => p.slopes x i r v with
  | error f => rfl
  | ok rows =>
    have hlength : rows.length = p.unknowns.length := by
      rw [← (mapM_eq_ok hrows).length_eq]
      simp [hp.length_residuals, hl]
    have hcells : rows.take p.unknowns.length ++
        (List.replicate p.unknowns.length (List.replicate p.unknowns.length (0 : α))).drop
          rows.length = rows := by
      rw [List.take_of_length_le (Nat.le_of_eq hlength), List.drop_of_length_le, List.append_nil]
      simp [hlength]
    exact congrArg (fun cells => Except.ok (Matrix.mk p.unknowns.length p.unknowns.length cells))
      hcells

theorem jacobian_ensures (hp : p.IsSquare) (x : Matrix α) {here : List α}
    (hl : here.length = p.unknowns.length) :
    Ensures (Matrix.HasShape · p.unknowns.length p.unknowns.length) (p.Halt x)
      (p.jacobian x here) := by
  rw [jacobian_eq hp x hl]
  have hrow : ∀ q ∈ (p.residuals.zip here).zipIdx, Ensures (fun row => row.length =
      p.unknowns.length) (p.Halt x) (p.slopes x q.2 q.1.1 q.1.2) :=
    fun q hq => by
      obtain ⟨hi, -⟩ := List.mem_zipIdx' hq
      rw [List.length_zip, hp.length_residuals, hl, Nat.min_self] at hi
      exact slopes_ensures hi (List.of_mem_zip (List.fst_mem_of_mem_zipIdx hq)).1 x q.1.2
  apply (Ensures.mapM hrow).bind
  rintro rows ⟨hlength, hrows⟩
  have hlen : rows.length = p.unknowns.length := by
    simpa [hp.length_residuals, hl] using hlength
  exact .ok (Matrix.IsGrid.hasShape ⟨hlen, hrows⟩ hp.pos hp.pos)

theorem sub_ensures {step : Matrix α} (hstep : p.Fits step) (x : Matrix α) :
    Ensures (fun y => p.Fits x → p.Fits y) (p.Halt x) (x.sub step) := by
  by_cases hx : p.Fits x
  · obtain ⟨y, hy, hshape⟩ := Matrix.sub_eq_ok hx hstep
    rw [hy]
    exact .ok fun _ => hshape
  · cases hsub : x.sub step with
    | ok y => exact .ok fun h => absurd h hx
    | error f =>
      obtain ⟨reason, rfl⟩ := Matrix.combine_eq_error hsub
      exact .error (.misfit hx)

/-- The residuals are a column with an entry for each variable, and so is the point if the start is
one. -/
structure Sized (p : Problem α) (start : Matrix α) (s : Iterate α) : Prop where
  residuals : p.Fits s.residuals
  point : p.Fits start → p.Fits s.point

variable {start : Matrix α} {s last : Iterate α}

/-- A step keeps the sizes. -/
theorem advance_ensures (hp : p.IsSquare) (hs : p.Sized start s) :
    Ensures (p.Sized start) (p.Halt start) (p.advance s) := by
  have hhalt : ∀ f, p.Halt s.point f → p.Halt start f := fun _ h => h.imp hs.point
  have hlength := Matrix.length_firstColumn hs.residuals
  apply ((jacobian_ensures hp s.point hlength).imp (fun _ h => h) hhalt).bind
  intro slopes hslopes
  have hinv : Ensures (Matrix.HasShape · p.unknowns.length p.unknowns.length) (p.Halt start)
      (slopes.inv p.options.pivotTolerance) :=
    (Matrix.inv_ensures _ hslopes).imp (fun _ h => h) fun _ h => .fault (.singular h)
  apply hinv.bind
  intro inverse hinverse
  obtain ⟨step, hmul, hstep⟩ := Matrix.mul_eq_ok hinverse hs.residuals
  rw [hmul, ok_bind]
  apply ((sub_ensures hstep s.point).imp (fun _ h => h) hhalt).bind
  intro point hpoint
  apply ((values_ensures hp point).imp (fun _ h => h) fun _ => .fault).bind
  intro residuals hresiduals
  obtain ⟨d, hd, -⟩ := Matrix.sub_eq_ok hresiduals hs.residuals
  rw [changeBetween, hd]
  exact .ok ⟨hresiduals, fun hstart => hpoint (hs.point hstart)⟩

theorem first_ensures (hp : p.IsSquare) (start : Matrix α) :
    Ensures (p.Sized start) p.Fault (p.first start) := by
  apply (values_ensures hp start).bind
  intro here hhere
  exact .ok ⟨hhere, fun hstart => hstart⟩

/-- All iterates of a run have the sizes of the first. -/
theorem Reaches.sized (hp : p.IsSquare) (h : p.Reaches s last) (hs : p.Sized start s) :
    p.Sized start last :=
  h.invariant hs fun _ _ hs ha => (advance_ensures hp hs).of_eq_ok ha

/-- A run over as many residuals as variables fails for one of the reasons foreseen, and ends in a
point of their size if it starts at one. -/
theorem run_ensures (hp : p.IsSquare) (start : Matrix α) :
    Ensures (fun x => p.Fits start → p.Fits x) (p.Halt start) (p.run start).2 := by
  have hfirst := first_ensures hp start
  rcases h : p.run start with ⟨steps, f | x⟩
  · obtain h | ⟨first, last, hs, hreach, ⟨rfl, hmax⟩ | rfl | hlast⟩ := run_eq_error h
    · exact .error (.fault (hfirst.of_eq_error h))
    · exact .error (.fault (.endless hmax))
    · exact .error (.fault (.noConvergence _ _))
    · have hsized := hreach.sized hp (hfirst.of_eq_ok hs)
      exact .error ((advance_ensures hp hsized).of_eq_error hlast)
  · obtain ⟨first, last, hs, hreach, -, rfl, -⟩ := run_eq_ok h
    exact .ok (hreach.sized hp (hfirst.of_eq_ok hs)).point

end Simultaneous.Newton.Problem
