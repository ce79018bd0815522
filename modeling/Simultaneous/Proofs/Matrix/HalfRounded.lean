import Simultaneous.Proofs.Matrix.Store

/-!
What a command that fails leaves behind. Only a rounding leaves anything behind: it meets the cells
one after the other, and those before the one that cannot be rounded are rounded by then.
-/

namespace Simultaneous.Matrix

open Attempt

section

variable {α ε : Type} {f : α → Except ε α} {e : ε}

/-- The items before the first one that cannot be replaced are replaced, and all others are kept. -/
inductive HalfReplaced (f : α → Except ε α) (e : ε) : List α → List α → Prop
  | mk {before replaced after : List α} {x : α} (replaced_eq : before.mapM f = .ok replaced)
      (fails : f x = .error e) : HalfReplaced f e (before ++ x :: after) (replaced ++ x :: after)

namespace HalfReplaced

variable {xs ys : List α} (h : HalfReplaced f e xs ys)

include h

theorem prepend {as bs : List α} (hbs : as.mapM f = .ok bs) :
    HalfReplaced f e (as ++ xs) (bs ++ ys) := by
  obtain ⟨hreplaced, hfails⟩ := h
  rw [← List.append_assoc, ← List.append_assoc]
  refine ⟨?_, hfails⟩
  rw [List.mapM_append, hbs, hreplaced]
  rfl

theorem append (zs : List α) : HalfReplaced f e (xs ++ zs) (ys ++ zs) := by
  obtain ⟨hreplaced, hfails⟩ := h
  rw [List.append_assoc, List.append_assoc]
  exact ⟨hreplaced, hfails⟩

end HalfReplaced

theorem mapM_of_replaceCells {xs ys : List α} (h : replaceCells f xs = (ys, none)) :
    xs.mapM f = .ok ys := by
  induction xs generalizing ys with
  | nil => cases h; rfl
  | cons x xs ih =>
    rw [replaceCells_cons] at h
    split at h
    · cases h
    next y hy =>
      obtain ⟨rfl, hrest⟩ := Prod.mk.inj h
      rw [List.mapM_cons, hy, ih (Prod.ext rfl hrest)]
      rfl

theorem halfReplaced_of_replaceCells {xs ys : List α} (h : replaceCells f xs = (ys, some e)) :
    HalfReplaced f e xs ys := by
  induction xs generalizing ys with
  | nil => cases h
  | cons x xs ih =>
    rw [replaceCells_cons] at h
    split at h
    next hx =>
      cases h
      have hnone : ([] : List α).mapM f = .ok [] := rfl
      exact .mk hnone hx
    next y hy =>
      obtain ⟨rfl, hrest⟩ := Prod.mk.inj h
      have hone : [x].mapM f = .ok [y] := by
        rw [List.mapM_cons, hy]
        rfl
      exact (ih (Prod.ext rfl hrest)).prepend hone

/-- Rows that are replaced up to a failure, as one list of cells. -/
theorem halfReplaced_of_replaceRows {rows rows' : List (List α)}
    (h : replaceRows f rows = (rows', some e)) : HalfReplaced f e rows.flatten rows'.flatten := by
  induction rows generalizing rows' with
  | nil => cases h
  | cons row rows ih =>
    rw [replaceRows_cons] at h
    split at h
    next hrow =>
      cases h
      exact (halfReplaced_of_replaceCells hrow).append rows.flatten
    next hrow =>
      obtain ⟨rfl, hrest⟩ := Prod.mk.inj h
      exact (ih (Prod.ext rfl hrest)).prepend (mapM_of_replaceCells hrow)

end

namespace Store

/-- What has changed after a failure: nothing, or of one object a part, which has been rounded. -/
theorem Effect.cases_of_error {s s' : Store} {target : Option String} {c : Command} {f : Failure}
    (hs : s.Sound) (h : Effect s target c (s', .error f)) :
    s' = s ∨ ∃ a precision n o m, c = .toFixed a precision ∧
      s.demand "to_fixed" a = .ok (n, o) ∧ s'.matrices = s.matrices.replace n m ∧
      m.HasShape o.matrix.rows o.matrix.cols ∧
      HalfReplaced (rounding precision) f o.matrix.cells.flatten m.cells.flatten := by
  cases h with
  | refused => exact .inl rfl
  | @roundedPart a precision n o m origins next _ found part =>
    have hcells : (o.matrix.replaceAll (rounding precision)).1.cells = m.cells := by rw [part]
    have hfails : (o.matrix.replaceAll (rounding precision)).2 = some f := by rw [part]
    have hrows : replaceRows (rounding precision) o.matrix.cells = (m.cells, some f) :=
      Prod.ext hcells hfails
    exact .inr ⟨a, precision, n, o, m, rfl, found, Directory.map_replace ..,
      hasShape_of_rounding hs found part, halfReplaced_of_replaceRows hrows⟩

/-- After any commands, a command that fails leaves all as it was, unless it is a rounding. A
rounding that fails leaves all else as it was, and the shape of its operand; in this one the cells
before the first one that cannot be rounded are rounded, and the others are as they were. -/
theorem apply_failure (steps : List Step) {settings : Settings} {target : Option String}
    {c : Command} {f : Failure} (h : ((run {} steps).apply settings target c).2 = .error f) :
    let s := run {} steps
    let s' := (s.apply settings target c).1
    s' = s ∨ ∃ a precision n o m, c = .toFixed a precision ∧
      s.demand "to_fixed" a = .ok (n, o) ∧ s'.matrices = s.matrices.replace n m ∧
      m.HasShape o.matrix.rows o.matrix.cols ∧
      HalfReplaced (rounding precision) f o.matrix.cells.flatten m.cells.flatten := by
  intro s s'
  have hsound : s.Sound := run_sound sound_empty steps
  have heffect : Effect s target c (s', (s.apply settings target c).2) :=
    apply_effect hsound settings target c
  rw [h] at heffect
  exact heffect.cases_of_error hsound

/-- A matrix whose last cell is the largest double. -/
def largestLast : List Step := [{
  target := some "A",
  command := .build (.values (.list [.list [.float 1.25, .float 1.7976931348623157e308]])) }]

/-- Rounding to 308 places before the point, under which the largest double has none. -/
def roundedAway : Command := .toFixed (some "A") (.int (-308))

theorem apply_roundedAway : ((run {} largestLast).apply {} none roundedAway).2 =
    .error (.broken .roundedTooLarge) := by
  apply eq_error_of_failure?
  decide +kernel

theorem matrices_roundedAway : ((run {} largestLast).apply {} none roundedAway).1.matrices ≠
    (run {} largestLast).matrices := by
  intro hsame
  have hbefore : ((run {} largestLast).matrices.objects.all fun m => m.firstColumn == [1.25]) =
      true := by
    decide +kernel
  have hafter : (((run {} largestLast).apply {} none roundedAway).1.matrices.objects.all
      fun m => m.firstColumn == [1.25]) = false := by
    decide +kernel
  rw [hsame, hbefore] at hafter
  cases hafter

theorem apply_failure_largestLast :
    ((run {} largestLast).apply {} none roundedAway).2 = .error (.broken .roundedTooLarge) ∧
    ∃ n o m, (run {} largestLast).demand "to_fixed" (some "A") = .ok (n, o) ∧
      ((run {} largestLast).apply {} none roundedAway).1.matrices =
        (run {} largestLast).matrices.replace n m ∧
      HalfReplaced (rounding (.int (-308))) (.broken .roundedTooLarge)
        o.matrix.cells.flatten m.cells.flatten := by
  refine ⟨apply_roundedAway, ?_⟩
  obtain hsame | ⟨a, precision, n, o, m, hc, hfound, hm, -, hhalf⟩ :=
    apply_failure largestLast apply_roundedAway
  · exact absurd (congrArg matrices hsame) matrices_roundedAway
  · cases hc
    exact ⟨n, o, m, hfound, hm, hhalf⟩

/-- A command that fails does not leave all matrices as they were. -/
theorem not_failure_atomic : ¬ ∀ (steps : List Step) (settings : Settings) (target : Option String)
    (c : Command) (f : Failure), ((run {} steps).apply settings target c).2 = .error f →
    ((run {} steps).apply settings target c).1.matrices = (run {} steps).matrices :=
  fun h => matrices_roundedAway (h largestLast {} none roundedAway _ apply_roundedAway)

end Store

end Simultaneous.Matrix
