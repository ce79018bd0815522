import Simultaneous.Newton.InMemory
import Simultaneous.Proofs.Matrix.Heap
import Simultaneous.Proofs.Newton.Sizes

/-!
The slopes that are taken in memory are those at the point that memory holds, and taking them keeps
all rows that were there, those of the point among them.
-/

namespace Simultaneous.Newton

open Attempt
open Simultaneous.Matrix (Heap Layout)
open Simultaneous.Matrix.Heap (Grown Within lay_laid write_within)

variable {base h : Heap} {point target : Layout}

theorem lt_of_get? {α : Type} {m : Matrix α} {k : Nat} {x : α} (h : m.get? k 0 = some x) :
    k < m.cells.length := by
  by_contra hk
  have hplace : placeOf? (k : Int) m.cells.length = none := by
    rw [placeOf?, if_pos (Int.natCast_nonneg k), if_neg (by omega)]
  rw [Matrix.get?, hplace] at h
  cases h

theorem shiftIn_spec (h : Heap) (point : Layout) (epsilon : Float) (k : Nat) :
    Grown h (shiftIn epsilon k point h).1 ∧
      (shiftIn epsilon k point h).2.map (shiftIn epsilon k point h).1.read =
        shift epsilon k (h.read point) := by
  have hlaid := lay_laid h (h.read point)
  rw [shiftIn, shift]
  simp only [hlaid.read_eq]
  cases hx : (h.read point).get? k 0 with
  | none => exact ⟨hlaid.toGrown, rfl⟩
  | some x =>
    refine ⟨hlaid.toGrown.within (write_within ..) fun a ha => (hlaid.fresh a ha).1, ?_⟩
    have hk : k < (h.lay (h.read point)).2.addresses.length := by
      have hlt := lt_of_get? hx
      rwa [← hlaid.read_eq, Matrix.Heap.read, List.length_map] at hlt
    have hwrite := Matrix.Heap.read_write hlaid.nodup (fun a ha => (hlaid.fresh a ha).2) hk 0
      (x + epsilon)
    rw [hlaid.read_eq] at hwrite
    exact congrArg Except.ok hwrite

namespace Problem

variable {p : Problem Float}

theorem slopeIn_spec (p : Problem Float) (h : Heap) (point : Layout) (r : Residual Float)
    (here : Float) (k : Nat) :
    Grown h (p.slopeIn point r here k h).1 ∧
      (p.slopeIn point r here k h).2 = p.slope (h.read point) r here k := by
  obtain ⟨hgrown, hshift⟩ := shiftIn_spec h point p.options.epsilon k
  rw [slopeIn, slope, ← hshift]
  generalize shiftIn p.options.epsilon k point h = out at hgrown
  obtain ⟨h', f | moved⟩ := out
  · exact ⟨hgrown, rfl⟩
  · refine ⟨hgrown, ?_⟩
    simp only [Except.map, ok_bind]
    refine bind_congr fun there => ?_
    cases Scalar.over? (there - here) p.options.epsilon <;> rfl

/-- The slope along a variable, zero if the residual does not contain it. -/
def slopeOrZero (p : Problem Float) (point : Matrix Float) (i : Nat) (r : Residual Float)
    (here : Float) : String × Nat → Attempt Float := fun (name, k) =>
  if r.unknowns.contains name then do
    let s ← p.slope point r here k
    if i < p.unknowns.length then return s
    else .error (.broken (.indexOutOfRange "list"))
  else return 0

theorem slopes_eq_mapM (p : Problem Float) (point : Matrix Float) (i : Nat) (r : Residual Float)
    (here : Float) :
    p.slopes point i r here = p.unknowns.zipIdx.mapM (p.slopeOrZero point i r here) := rfl

/-- A matrix that is being filled stands behind the rows that are to be kept. -/
structure Filling (base : Heap) (target : Layout) (h : Heap) : Prop where
  grown : Grown base h
  nodup : target.addresses.Nodup
  fresh : ∀ a ∈ target.addresses, base.lines.length ≤ a ∧ a < h.lines.length

theorem Filling.grow {h' : Heap} (hh : Filling base target h) (hgrown : Grown h h') :
    Filling base target h' :=
  ⟨hh.grown.trans hgrown, hh.nodup, fun a ha =>
    ⟨(hh.fresh a ha).1, (hh.fresh a ha).2.trans_le hgrown.length_le⟩⟩

theorem Filling.within {h' : Heap} (hh : Filling base target h)
    (hwithin : Within target.addresses h h') : Filling base target h' :=
  ⟨hh.grown.within hwithin fun a ha => (hh.fresh a ha).1, hh.nodup, fun a ha =>
    hwithin.length_eq ▸ hh.fresh a ha⟩

/-- What filling a row from its entries `done` on comes to: it holds the slopes if all of them can be
taken, and no other row of the matrix has changed. -/
structure RowFilled (base : Heap) (target : Layout) (a : Nat) (done : List Float)
    (slopes : Attempt (List Float)) (h : Heap) (out : Heap × Option Failure) : Prop where
  filling : Filling base target out.1
  failure_eq : out.2 = failure? slopes
  others_eq : ∀ b ∈ target.addresses, b ≠ a → out.1.line b = h.line b
  line_eq : ∀ row, slopes = .ok row → out.1.line a = done ++ row

theorem RowFilled.cons {h' : Heap} {a : Nat} {done : List Float} {s : Float}
    {slopes : Attempt (List Float)} {out : Heap × Option Failure}
    (hothers : ∀ b ∈ target.addresses, b ≠ a → h'.line b = h.line b)
    (hrest : RowFilled base target a (done ++ [s]) slopes h' out) :
    RowFilled base target a done (do return s :: (← slopes)) h out := by
  refine ⟨hrest.filling, ?_, fun b hb hne => ?_, fun row hrow => ?_⟩
  · rw [hrest.failure_eq, failure?_cons]
  · exact (hrest.others_eq b hb hne).trans (hothers b hb hne)
  · obtain ⟨tail, htail, rfl⟩ := cons_eq_ok.mp hrow
    rw [hrest.line_eq tail htail, List.append_assoc]
    rfl

section

variable (hpoint : ∀ a ∈ point.addresses, a < base.lines.length)

include hpoint

/-- A row of zeros after the entries `done` is filled from there on. -/
theorem slopesIn_spec {i a : Nat} (hi : i < p.unknowns.length)
    (ha : target.addresses[i]? = some a) (r : Residual Float) (here : Float) (names : List String)
    {h : Heap} (hh : Filling base target h) {done : List Float}
    (hline : h.line a = done ++ List.replicate names.length 0) :
    RowFilled base target a done
      ((names.zipIdx done.length).mapM (p.slopeOrZero (base.read point) i r here)) h
      (p.slopesIn point target i r here (names.zipIdx done.length) h) := by
  induction names generalizing h done with
  | nil =>
    refine ⟨hh, rfl, fun _ _ _ => rfl, fun row hrow => ?_⟩
    cases hrow
    exact hline
  | cons name names ih =>
    have hmem : a ∈ target.addresses := List.mem_of_getElem? ha
    have hread : h.read point = base.read point := hh.grown.read_eq hpoint
    have hrest : ∀ {h' : Heap} {s : Float}, Filling base target h' →
        h'.line a = done ++ s :: List.replicate names.length 0 →
        RowFilled base target a (done ++ [s]) ((names.zipIdx (done.length + 1)).mapM
          (p.slopeOrZero (base.read point) i r here)) h'
          (p.slopesIn point target i r here (names.zipIdx (done.length + 1)) h') := by
      intro h' s hh' hline'
      have hdone : (done ++ [s]).length = done.length + 1 := by simp
      rw [← hdone]
      exact ih hh' (by simpa using hline')
    rw [List.zipIdx_cons, List.mapM_cons, slopesIn, slopeOrZero]
    by_cases hcontains : r.unknowns.contains name = true
    · obtain ⟨hgrown, hslope⟩ := slopeIn_spec p h point r here done.length
      rw [hread] at hslope
      rw [if_pos hcontains]
      simp only [if_pos hcontains, ← hslope]
      generalize p.slopeIn point r here done.length h = out at hgrown
      obtain ⟨h', f | s⟩ := out
      · refine ⟨hh.grow hgrown, rfl, fun b hb _ => hgrown.line_eq b (hh.fresh b hb).2, ?_⟩
        intro row hrow
        cases hrow
      · have hh' : Filling base target h' := hh.grow hgrown
        have ha' : a < h'.lines.length := (hh'.fresh a hmem).2
        have hline' : h'.line a = done ++ 0 :: List.replicate names.length 0 :=
          (hgrown.line_eq a (hh.fresh a hmem).2).trans hline
        have hwrite : h'.write target i done.length s =
            h'.overwrite a ((h'.line a).set done.length s) := by
          rw [Matrix.Heap.write, ha]
        simp only [ok_bind, if_pos hi, hwrite]
        refine .cons (fun b hb hne => ?_) (hrest (hh'.within (.overwrite hmem h' _)) ?_)
        · rw [Matrix.Heap.line_overwrite_of_ne (Ne.symm hne)]
          exact hgrown.line_eq b (hh.fresh b hb).2
        · rw [Matrix.Heap.line_overwrite_self ha', hline']
          simp
    · rw [if_neg hcontains]
      simp only [if_neg hcontains]
      exact .cons (fun _ _ _ => rfl) (hrest hh hline)

/-- The rows have been filled up to the listed residuals. -/
theorem rowsIn_spec (rs : List (Residual Float × Float)) {h : Heap}
    (hh : Filling base target h) {done : List (List Float)}
    (hlength : target.addresses.length = p.unknowns.length)
    (hlines : target.addresses.map h.line = done ++ List.replicate rs.length
      (List.replicate p.unknowns.length 0)) :
    let out := p.rowsIn point target (rs.zipIdx done.length) h
    let rows := (rs.zipIdx done.length).mapM fun ((r, v), i) => p.slopes (base.read point) i r v
    Filling base target out.1 ∧ out.2 = failure? rows ∧
      ∀ cells, rows = .ok cells → target.addresses.map out.1.line = done ++ cells := by
  induction rs generalizing h done with
  | nil =>
    refine ⟨hh, rfl, fun cells hcells => ?_⟩
    cases hcells
    exact hlines
  | cons q rs ih =>
    obtain ⟨r, here⟩ := q
    have hcount : target.addresses.length = done.length + (rs.length + 1) := by
      simpa using congrArg List.length hlines
    have hi : done.length < target.addresses.length := by omega
    obtain ⟨a, ha⟩ : ∃ a, target.addresses[done.length]? = some a :=
      ⟨_, List.getElem?_eq_getElem hi⟩
    have hline : h.line a = [] ++ List.replicate p.unknowns.length 0 := by
      have hget := congrArg (·[done.length]?) hlines
      simpa [ha, List.replicate_succ] using hget
    have hrow := slopesIn_spec hpoint (hlength ▸ hi) ha r here p.unknowns hh hline
    rw [List.length_nil, ← slopes_eq_mapM] at hrow
    rw [List.zipIdx_cons, List.mapM_cons, rowsIn]
    generalize p.slopesIn point target done.length r here p.unknowns.zipIdx h = out at hrow
    obtain ⟨h', e⟩ := out
    obtain ⟨hh', hout, hothers, hfilled⟩ := hrow
    cases hslopes : p.slopes (base.read point) done.length r here with
    | error f =>
      rw [hslopes] at hout
      obtain rfl : e = some f := hout
      simp only [hslopes, error_bind]
      refine ⟨hh', rfl, fun cells hcells => ?_⟩
      cases hcells
    | ok row =>
      rw [hslopes] at hout
      obtain rfl : e = none := hout
      have hlines' : target.addresses.map h'.line =
          (done ++ [row]) ++ List.replicate rs.length (List.replicate p.unknowns.length 0) := by
        rw [Matrix.Heap.map_eq_set hh.nodup ha hothers, hlines, hfilled row hslopes,
          List.length_cons, List.replicate_succ]
        simp
      have hdone : (done ++ [row]).length = done.length + 1 := by simp
      have hih := ih hh' hlines'
      rw [hdone] at hih
      obtain ⟨hfilling, hout, hcells⟩ := hih
      simp only [hslopes, ok_bind]
      refine ⟨hfilling, hout.trans (failure?_cons ..).symm, fun cells h => ?_⟩
      obtain ⟨rest, hrest, rfl⟩ := cons_eq_ok.mp h
      rw [hcells rest hrest, List.append_assoc]
      rfl

end

/-- The slopes taken in memory: they are those at the point, or fail as those do, and every matrix
that was laid out before, the point among them, reads as before. -/
theorem jacobianIn_spec (hp : p.IsSquare) {here : List Float}
    (hhere : here.length = p.unknowns.length) {h : Heap}
    (hpoint : ∀ a ∈ point.addresses, a < h.lines.length) :
    Grown h (p.jacobianIn point here h).1 ∧
      (p.jacobianIn point here h).2.map (p.jacobianIn point here h).1.read =
        p.jacobian (h.read point) here := by
  have hblank : Matrix.filled p.unknowns.length p.unknowns.length (0 : Float) = .ok _ :=
    Matrix.filled_eq_ok hp.pos hp.pos 0
  have hlaid := lay_laid h (Matrix.replicate p.unknowns.length p.unknowns.length 0)
  have hzip : (p.residuals.zip here).length = p.unknowns.length := by
    simp [hp.length_residuals, hhere]
  rw [jacobianIn, jacobian_eq hp _ hhere, hblank]
  simp only
  generalize h.lay (Matrix.replicate p.unknowns.length p.unknowns.length 0) = laid at *
  obtain ⟨h', target⟩ := laid
  have hread := hlaid.read_eq
  have hlines : target.addresses.map h'.line = [] ++ List.replicate (p.residuals.zip here).length
      (List.replicate p.unknowns.length 0) := by
    rw [hzip]
    exact congrArg Matrix.cells hread
  have hlength : target.addresses.length = p.unknowns.length := by
    simpa [hzip] using congrArg List.length hlines
  obtain ⟨hfilled, hout, hcells⟩ := rowsIn_spec hpoint (p.residuals.zip here)
    ⟨hlaid.toGrown, hlaid.nodup, hlaid.fresh⟩ hlength hlines
  rw [List.length_nil] at hfilled hout hcells
  generalize p.rowsIn point target (p.residuals.zip here).zipIdx h' = out at *
  obtain ⟨h'', e⟩ := out
  cases hrows : (p.residuals.zip here).zipIdx.mapM fun ((r, v), i) =>
    p.slopes (h.read point) i r v with
  | error f =>
    rw [hrows] at hout
    obtain rfl : e = some f := hout
    exact ⟨hfilled.grown, rfl⟩
  | ok rows =>
    rw [hrows] at hout
    obtain rfl : e = none := hout
    refine ⟨hfilled.grown, congrArg Except.ok ?_⟩
    have hrowCount : target.rows = p.unknowns.length := congrArg Matrix.rows hread
    have hcolCount : target.cols = p.unknowns.length := congrArg Matrix.cols hread
    have hcells : target.addresses.map h''.line = rows := hcells rows hrows
    rw [Matrix.Heap.read, hrowCount, hcolCount, hcells]

end Problem

end Simultaneous.Newton
