import Simultaneous.Proofs.Evaluation
import Simultaneous.Proofs.Newton.InMemory

/-!
The slopes that need not be taken. A residual has the same value wherever a variable goes that it
does not contain, so that the matrix of slopes is the one in which each of them is taken; and where
one cannot be taken, neither can be had.
-/

namespace Simultaneous.Newton

open Attempt
open Simultaneous.Matrix (Heap Layout)
open Simultaneous.Matrix.Heap (Grown)

section

variable {α : Type} {k : Nat} {name : String}

theorem filter_zip_set {names : List String} (h : names[k]? ≠ some name) (xs : List α) (x : α) :
    (names.zip (xs.set k x)).filter (·.1 == name) = (names.zip xs).filter (·.1 == name) := by
  induction names generalizing xs k with
  | nil => rfl
  | cons n names ih =>
    cases xs with
    | nil => rfl
    | cons y ys =>
      cases k with
      | zero =>
        have hne : (n == name) = false := by simpa using h
        simp [hne]
      | succ k => simp [List.filter_cons, ih (by simpa using h)]

theorem firstColumn_setCell {m : Matrix α} (hm : m.WellFormed) (k : Nat) (x : α) :
    (m.setCell k 0 x).firstColumn = m.firstColumn.set k x := by
  have hrows : ∀ row ∈ m.cells, row ≠ [] := fun row hrow hnil =>
    (hm.length_row row hrow ▸ hm.cols_pos).ne' (congrArg List.length hnil)
  change (m.cells.modify k (·.set 0 x)).filterMap List.head? = _
  rw [Matrix.firstColumn]
  generalize m.cells = cells at hrows
  induction cells generalizing k with
  | nil => rw [List.modify_nil]; rfl
  | cons row rows ih =>
    obtain ⟨hrow, hrest⟩ := List.forall_mem_cons.mp hrows
    obtain ⟨y, ys, rfl⟩ := List.exists_cons_of_ne_nil hrow
    cases k with
    | zero => rfl
    | succ k => simpa using ih k hrest

/-- A coordinate that is moved changes no other variable than its own. -/
theorem bindings_setCell {names : List String} {m : Matrix α} (hm : m.WellFormed)
    (h : names[k]? ≠ some name) (x : α) :
    bindings names (m.setCell k 0 x) name = bindings names m name := by
  rw [bindings, bindings, ← List.head?_filter, ← List.head?_filter, List.filter_reverse,
    List.filter_reverse, firstColumn_setCell hm, filter_zip_set h]

theorem shift_eq_ok [Scalar α] {epsilon : α} {m moved : Matrix α}
    (h : shift epsilon k m = .ok moved) : ∃ x, moved = m.setCell k 0 x := by
  rw [shift] at h
  split at h
  · cases h
  · cases h
    exact ⟨_, rfl⟩

end

/-- The same double, or two that are equal: zeros of either sign. -/
def Agrees (a b : Float) : Prop := a = b ∨ (a == b) = true

theorem Agrees.isNaN_eq {a b : Float} (h : Agrees a b) : a.isNaN = b.isNaN := by
  obtain rfl | h := h
  · rfl
  · have hbeq : a.toModel.unpack.beq b.toModel.unpack = true := h
    obtain ⟨ha, hb, -⟩ :=
      (Float.Model.UnpackedFloat.beq_iff_ne_notANumber_and_eq _ _).mp hbeq
    change a.toModel.unpack.isNaN = b.toModel.unpack.isNaN
    cases hu : a.toModel.unpack <;> cases hw : b.toModel.unpack <;> simp_all <;> rfl

namespace Problem

/-- The square matrix of slopes, each of them taken. -/
def denseJacobian {α : Type} [Scalar α] (p : Problem α) (point : Matrix α) (here : List α) :
    Attempt (Matrix α) := do
  let blank ← Matrix.filled p.unknowns.length p.unknowns.length (0 : α)
  let rows ← (p.residuals.zip here).mapM fun (r, v) =>
    (List.range p.unknowns.length).mapM (p.slope point r v)
  return { blank with cells := rows }

variable {p : Problem Float} {x : Matrix Float} {here : List Float}

section

variable (hepsilon : (p.options.epsilon == 0) = false) (hnan : p.options.epsilon.isNaN = false)
  (hx : p.Fits x) {e : Equation} {v : Float}
  (hv : e.toResidual.value (bindings p.unknowns x) = .ok v) (hfinite : v.isFinite = true)

include hepsilon hnan hx hv hfinite

/-- The slope along a variable that the residual does not contain is a zero. -/
theorem slope_of_not_mem {name : String} {k : Nat} (hk : p.unknowns[k]? = some name)
    (habsent : name ∉ e.unknowns) :
    ∃ s, p.slope x e.toResidual v k = .ok s ∧ (0 == s) = true := by
  obtain ⟨hlt, -⟩ := List.getElem?_eq_some_iff.mp hk
  obtain ⟨moved, hmoved⟩ := exists_shift hx hlt p.options.epsilon
  obtain ⟨y, rfl⟩ := shift_eq_ok hmoved
  have hsame : e.toResidual.value (bindings p.unknowns (x.setCell k 0 y)) = .ok v := by
    rw [← hv]
    refine Equation.residual_congr fun s hs => bindings_setCell hx.toWellFormed ?_ y
    rw [hk]
    exact fun heq => habsent (Option.some.inj heq ▸ hs)
  have hquotient : Scalar.over? (v - v) p.options.epsilon = some (0 / p.options.epsilon) := by
    rw [Double.sub_self_eq_zero hfinite]
    exact if_neg (by simp [hepsilon])
  refine ⟨0 / p.options.epsilon, ?_, Double.zero_beq_zero_div hepsilon hnan⟩
  rw [slope, hmoved, ok_bind, hsame, ok_bind, hquotient]
  rfl

theorem slopes_alike {i : Nat} (hi : i < p.unknowns.length) :
    Alike (List.Forall₂ Agrees) (p.slopes x i e.toResidual v)
      ((List.range p.unknowns.length).mapM (p.slope x e.toResidual v)) := by
  have hrange : List.range p.unknowns.length = p.unknowns.zipIdx.map Prod.snd := by
    rw [List.zipIdx_map_snd, List.range_eq_range']
  rw [hrange, List.mapM_map, slopes_eq_mapM]
  apply Alike.mapM
  rintro ⟨name, k⟩ hname
  rw [slopeOrZero]
  split
  · simp only [bind_pure]
    exact .refl (fun s => .inl rfl) _
  next habsent =>
    have hk : p.unknowns[k]? = some name := List.mem_zipIdx_iff_getElem?.mp hname
    obtain ⟨s, hs, hzero⟩ := slope_of_not_mem hepsilon hnan hx hv hfinite hk
      (fun hmem => habsent (List.contains_iff_mem.mpr hmem))
    simp only [Function.comp_apply, hs]
    exact .ok (.inr hzero)

end

/-- Square matrices whose entries agree. -/
structure SameEntries (n : Nat) (a b : Matrix Float) : Prop where
  left : a.HasShape n n
  right : b.HasShape n n
  entries : List.Forall₂ (List.Forall₂ Agrees) a.cells b.cells

theorem getD_related {α β : Type} {R : α → β → Prop} {as : List α} {bs : List β} {a : α} {b : β}
    (h : List.Forall₂ R as bs) (hab : R a b) (i : Nat) : R (as.getD i a) (bs.getD i b) := by
  induction h generalizing i with
  | nil => exact hab
  | cons hhead _ ih =>
    cases i with
    | zero => exact hhead
    | succ i => exact ih i

theorem SameEntries.entry {n : Nat} {a b : Matrix Float} (h : SameEntries n a b) (i k : Nat) :
    Agrees (Matrix.entry a.cells i k) (Matrix.entry b.cells i k) :=
  getD_related (getD_related h.entries .nil i) (.inl rfl) k

theorem isGrid_of_agrees {as bs : List (List Float)} {r c : Nat} (ha : Matrix.IsGrid as r c)
    (h : List.Forall₂ (List.Forall₂ Agrees) as bs) : Matrix.IsGrid bs r c := by
  refine ⟨h.length_eq.symm.trans ha.length_cells, fun row hrow => ?_⟩
  obtain ⟨i, hi, rfl⟩ := List.mem_iff_getElem.mp hrow
  obtain ⟨hlength, hget⟩ := List.forall₂_iff_get.mp h
  have hi' : i < as.length := hlength ▸ hi
  exact (hget i hi' hi).length_eq.symm.trans (ha.length_row _ (List.getElem_mem hi'))

theorem jacobian_alike (hp : p.IsSquare) (hepsilon : (p.options.epsilon == 0) = false)
    (hnan : p.options.epsilon.isNaN = false) (hx : p.Fits x)
    (hequations : ∀ r ∈ p.residuals, ∃ e : Equation, e.toResidual = r) {vs : List Float}
    (hvs : (p.residuals.mapM fun r => r.value (bindings p.unknowns x)) = .ok vs)
    (hfinite : ∀ v ∈ vs, v.isFinite = true) :
    Alike (SameEntries p.unknowns.length) (p.jacobian x vs) (p.denseJacobian x vs) := by
  have hvalues := mapM_eq_ok hvs
  have hlength : vs.length = p.unknowns.length :=
    hvalues.length_eq.symm.trans hp.length_residuals
  have hdense : Alike (fun j d => d.rows = p.unknowns.length ∧ d.cols = p.unknowns.length ∧
      List.Forall₂ (List.Forall₂ Agrees) j.cells d.cells) (p.jacobian x vs)
      (p.denseJacobian x vs) := by
    rw [jacobian_eq hp x hlength, denseJacobian, Matrix.filled_eq_ok hp.pos hp.pos, ok_bind]
    apply Alike.bind (R := List.Forall₂ (List.Forall₂ Agrees))
    · -- Both go over the residuals with their values; the places are numbered on one side only.
      nth_rewrite 2 [← List.zipIdx_map_fst 0 (p.residuals.zip vs)]
      rw [List.mapM_map]
      apply Alike.mapM
      rintro ⟨⟨r, v⟩, i⟩ hq
      obtain ⟨hi, -⟩ := List.mem_zipIdx' hq
      rw [List.length_zip, hp.length_residuals, hlength, Nat.min_self] at hi
      have hrv : (r, v) ∈ p.residuals.zip vs := List.fst_mem_of_mem_zipIdx hq
      obtain ⟨hr, hv⟩ := List.of_mem_zip hrv
      obtain ⟨e, rfl⟩ := hequations r hr
      exact slopes_alike hepsilon hnan hx ((List.forall₂_iff_zip.mp hvalues).2 hrv)
        (hfinite v hv) hi
    · intro rows rows' h
      exact .ok ⟨rfl, rfl, h⟩
  apply (hdense.and_ensures (jacobian_ensures hp x hlength)).imp
  rintro j ⟨rows, cols, cells⟩ ⟨hj, rfl, rfl, hcells⟩
  exact ⟨hj, (isGrid_of_agrees hj.isGrid hcells).hasShape hp.pos hp.pos, hcells⟩

/-- The slopes over equations are those that all of them give, wherever the residuals are finite: the
two have agreeing entries or fail alike. In memory they are the same, and what was there is kept,
the point itself with it. -/
theorem jacobian_dense {settings : Settings} {es : List Equation} {unknowns : List String}
    (square : es.length = unknowns.length) (hepsilon : (settings.epsilon == 0) = false)
    (hnan : settings.epsilon.isNaN = false) {x here : Matrix Float}
    (hx : x.HasShape unknowns.length 1)
    (hhere : (Problem.ofEquations settings es unknowns).values x = .ok here)
    (hfinite : ∀ v ∈ here.firstColumn, v.isFinite = true) :
    let p := Problem.ofEquations settings es unknowns
    Alike (SameEntries unknowns.length) (p.jacobian x here.firstColumn)
      (p.denseJacobian x here.firstColumn) ∧
    ∀ (h : Heap) (point : Layout), (∀ a ∈ point.addresses, a < h.lines.length) →
      h.read point = x →
      let out := p.jacobianIn point here.firstColumn h
      out.2.map out.1.read = p.jacobian x here.firstColumn ∧ out.1.read point = x ∧
        Grown h out.1 := by
  have hp : (Problem.ofEquations settings es unknowns).IsSquare :=
    ⟨(List.length_map _).trans square, hx.rows_eq ▸ hx.rows_pos⟩
  obtain ⟨vs, rfl, hvs⟩ := values_eq_ok hhere
  have hlength := (mapM_eq_ok hvs).length_eq.symm.trans hp.length_residuals
  rw [Matrix.firstColumn_column] at hfinite ⊢
  constructor
  · exact jacobian_alike hp hepsilon hnan hx (fun r hr => by
      obtain ⟨e, -, he⟩ := List.mem_map.mp hr
      exact ⟨e, he⟩) hvs hfinite
  · rintro h point hpoint rfl
    obtain ⟨hgrown, hread⟩ := jacobianIn_spec hp hlength hpoint
    exact ⟨hread, hgrown.read_eq hpoint, hgrown⟩

/-- Two equations of one unknown each. -/
def separate : List Equation :=
  [⟨.ofTree (.sym "x") ["x"] "x", .wrap 1⟩, ⟨.ofTree (.sym "y") ["y"] "y", .wrap 2⟩]

theorem jacobian_dense_separate :
    let p := Problem.ofEquations {} separate ["x", "y"]
    let x : Matrix Float := ⟨2, 1, [[3], [4]]⟩
    (({} : Settings).epsilon == 0) = false ∧ ({} : Settings).epsilon.isNaN = false ∧
    x.HasShape 2 1 ∧ ∃ here, p.values x = .ok here ∧
      (∀ v ∈ here.firstColumn, v.isFinite = true) ∧
      ∃ j d, p.jacobian x here.firstColumn = .ok j ∧ p.denseJacobian x here.firstColumn = .ok d ∧
        SameEntries 2 j d := by
  intro p x
  have hepsilon : (({} : Settings).epsilon == 0) = false := by decide
  have hnan : ({} : Settings).epsilon.isNaN = false := by decide
  have hx : x.HasShape 2 1 := ⟨⟨by decide, by decide, rfl, by simp [x]⟩, rfl, rfl⟩
  have hvalues : passes (fun here => here.firstColumn.all (·.isFinite) &&
      (p.jacobian x here.firstColumn).isOk) (p.values x) = true := by
    decide +kernel
  obtain ⟨here, hhere, hpasses⟩ := exists_of_passes hvalues
  obtain ⟨hfinite, hok⟩ := Bool.and_eq_true_iff.mp hpasses
  have hfinite : ∀ v ∈ here.firstColumn, v.isFinite = true := List.all_eq_true.mp hfinite
  obtain ⟨halike, -⟩ := jacobian_dense rfl hepsilon hnan hx hhere hfinite
  refine ⟨hepsilon, hnan, hx, here, hhere, hfinite, ?_⟩
  change Alike _ (p.jacobian x here.firstColumn) (p.denseJacobian x here.firstColumn) at halike
  generalize p.jacobian x here.firstColumn = j at halike hok
  generalize p.denseJacobian x here.firstColumn = d at halike
  cases halike with
  | ok h => exact ⟨_, _, rfl, rfl, h⟩
  | error e => cases hok

/-- Powers that are one wherever one of the two numbers is none. -/
def powers : List Equation :=
  let power (s t : String) : Expression := .ofTree (.power (.sym s) (.sym t)) [s, t] (s ++ "**" ++ t)
  [⟨power "x" "y", .wrap 1⟩, ⟨power "x" "y", .wrap 2⟩, ⟨power "z" "y", .wrap 3⟩]

/-- Moved by what is no number, a residual may have a value, but its slope is no number, and taken
along a variable that the residual does not contain it is no zero. -/
theorem not_jacobian_dense : ¬ ∀ (settings : Settings) (es : List Equation)
    (unknowns : List String) (x here : Matrix Float), es.length = unknowns.length →
    (settings.epsilon == 0) = false → x.HasShape unknowns.length 1 →
    (Problem.ofEquations settings es unknowns).values x = .ok here →
    (∀ v ∈ here.firstColumn, v.isFinite = true) →
    Alike (SameEntries unknowns.length)
      ((Problem.ofEquations settings es unknowns).jacobian x here.firstColumn)
      ((Problem.ofEquations settings es unknowns).denseJacobian x here.firstColumn) := by
  intro hall
  let p := Problem.ofEquations { epsilon := 0.0 / 0.0 } powers ["x", "y", "z"]
  let x : Matrix Float := ⟨3, 1, [[1], [0], [1]]⟩
  have hx : x.HasShape 3 1 := ⟨⟨by decide, by decide, rfl, by simp [x]⟩, rfl, rfl⟩
  have hvalues : passes (fun here => here.firstColumn.all (·.isFinite) &&
      (passes (fun j => !(Matrix.entry j.cells 2 0).isNaN) (p.jacobian x here.firstColumn) &&
      passes (fun d => (Matrix.entry d.cells 2 0).isNaN) (p.denseJacobian x here.firstColumn)))
      (p.values x) = true := by
    decide +kernel
  obtain ⟨here, hhere, hpasses⟩ := exists_of_passes hvalues
  obtain ⟨hfinite, hpasses⟩ := Bool.and_eq_true_iff.mp hpasses
  obtain ⟨hsparse, hdense⟩ := Bool.and_eq_true_iff.mp hpasses
  have halike : Alike (SameEntries 3) (p.jacobian x here.firstColumn)
      (p.denseJacobian x here.firstColumn) :=
    hall _ powers ["x", "y", "z"] x here rfl (by decide +kernel) hx hhere
      (List.all_eq_true.mp hfinite)
  generalize p.jacobian x here.firstColumn = j at halike hsparse
  generalize p.denseJacobian x here.firstColumn = d at halike hdense
  cases halike with
  | @ok j d h =>
    have hsame := (h.entry 2 0).isNaN_eq
    have hsparse : (Matrix.entry j.cells 2 0).isNaN = false := by simpa [passes] using hsparse
    have hdense : (Matrix.entry d.cells 2 0).isNaN = true := hdense
    rw [hsparse, hdense] at hsame
    cases hsame
  | error e => cases hsparse

end Problem

end Simultaneous.Newton
