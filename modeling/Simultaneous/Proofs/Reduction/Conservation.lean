import Simultaneous.EquationSystem
import Simultaneous.Proofs.Reduction.Removal

/-!
What a reduction conserves. No unknown is lost with the equations that are left out, since those
that are kept on the visit contain them all. Equations in no more unknowns than equations are to be
left can always be reduced.
-/

namespace Simultaneous.Reduction

variable {α : Type} {unknowns : α → List String} {count start : Int} {xs rest : List α}

/-- What is left of a list and what was left out belong together, for a list that was to shrink to
`count`. -/
structure Conserves (unknowns : α → List String) (count : Int) (xs rest : List α)
    (removed : List Nat) : Prop where
  ascending : removed.Pairwise (· < ·)
  valid : ∀ i ∈ removed, i < xs.length
  length_removed : (removed.length : Int) = xs.length - count
  rest_eq : rest = others removed xs
  mem_unknowns_iff : ∀ v, (∃ x ∈ rest, v ∈ unknowns x) ↔ ∃ x ∈ xs, v ∈ unknowns x

theorem reduce_eq_of_le (h : xs.length ≤ count) :
    reduce unknowns count start xs = (xs, .ok ⟨[], []⟩) := by
  rw [reduce, of_eq_of_le (by simpa using h)]
  rfl

theorem of_reduce_eq_error {u : Unsolved} (h : reduce unknowns count start xs = (rest, .error u)) :
    rest = xs ∧ of (xs.map unknowns) count start = .error u := by
  rw [reduce] at h
  split at h
  next ho => cases h; exact ⟨rfl, ho⟩
  next => cases h

theorem of_reduce_eq_ok {r : Reduction} (h : reduce unknowns count start xs = (rest, .ok r)) :
    rest = without r.removed xs ∧ of (xs.map unknowns) count start = .ok r := by
  rw [reduce] at h
  split at h
  next => cases h
  next ho => cases h; exact ⟨rfl, ho⟩

/-- An unknown of an equation that is left out occurs in one that is kept on the visit. -/
theorem exists_others_of_found {removed : List Nat}
    (hr : removed ⊆ found (xs.map unknowns) start) {x : α} (hx : x ∈ xs) {v : String}
    (hv : v ∈ unknowns x) : ∃ y ∈ others removed xs, v ∈ unknowns y := by
  obtain ⟨i, hi, rfl⟩ := List.mem_iff_getElem.mp hx
  have hget : ∀ j (hj : j < xs.length), (xs.map unknowns).getD j [] = unknowns xs[j] := by
    intro j hj
    simp [List.getD_eq_getElem?_getD, hj]
  have hmem : i ∈ circle (xs.map unknowns).length start := by
    rw [(circle_perm _ start).mem_iff]
    simpa using hi
  have hv' : v ∈ (xs.map unknowns).getD i [] := by rwa [hget i hi]
  rcases exists_kept_of_mem (fun i => (xs.map unknowns).getD i []) []
    (nodup_circle _ start) hmem hv' with h | ⟨j, hj, hjr, hjv⟩
  · cases h
  · have hjl : j < xs.length := by simpa using lt_of_mem_circle hj
    refine ⟨xs[j], mem_others.mpr ⟨j, fun h => hjr (hr h), by simp [hjl]⟩, ?_⟩
    rwa [hget j hjl] at hjv

theorem reduce_conserves {r : Reduction} (h : reduce unknowns count start xs = (rest, .ok r))
    (hle : count ≤ xs.length) : Conserves unknowns count xs rest r.removed := by
  obtain ⟨rfl, hof⟩ := of_reduce_eq_ok h
  obtain ⟨hasc, hlen, hsub⟩ := of_eq_ok hof (by simpa using hle)
  rw [List.length_map] at hlen
  have hvalid : ∀ i ∈ r.removed, i < xs.length := by
    intro i hi
    simpa using lt_of_mem_found _ start (hsub hi)
  refine ⟨hasc, hvalid, hlen, without_eq_others hasc xs, fun v => ?_⟩
  rw [without_eq_others hasc xs]
  constructor
  · rintro ⟨x, hx, hv⟩
    obtain ⟨i, -, hi⟩ := mem_others.mp hx
    exact ⟨x, List.mem_of_getElem? hi, hv⟩
  · rintro ⟨x, hx, hv⟩
    exact exists_others_of_found hsub hx hv

/-- Each equation that is kept on the visit brings an unknown of its own, so there are always enough
redundant ones when the equations contain at most `count` unknowns. -/
theorem exists_reduce_eq_ok {names : List String} (hnames : ∀ x ∈ xs, unknowns x ⊆ names)
    (hcount : (names.length : Int) ≤ count) :
    ∃ rest r, reduce unknowns count start xs = (rest, .ok r) := by
  rcases h : reduce unknowns count start xs with ⟨rest, u | r⟩
  · obtain ⟨hfew, -⟩ := of_eq_error_iff.mp (of_reduce_eq_error h).2
    have hcircle : ∀ i ∈ circle (xs.map unknowns).length start,
        (xs.map unknowns).getD i [] ⊆ names := by
      intro i hi
      have hlt := lt_of_mem_circle hi
      rw [List.getD_eq_getElem?_getD, List.getElem?_eq_getElem hlt, Option.getD_some,
        List.getElem_map]
      exact hnames _ (List.getElem_mem _)
    have henough := length_le_redundant (fun i => (xs.map unknowns).getD i []) hcircle []
    have hall : (names.filter fun v => v ∉ ([] : List String)).length = names.length := by simp
    rw [length_circle, hall] at henough
    change _ ≤ (found (xs.map unknowns) start).length + _ at henough
    omega
  · exact ⟨rest, r, rfl⟩

/-- The equation at which the visit begins stays, as long as it contains an unknown: nothing is
covered when it is visited. -/
theorem start_notMem_removed {r : Reduction} {start : Nat} {x : α} {v : String}
    (h : reduce unknowns count start xs = (rest, .ok r)) (hle : count ≤ xs.length)
    (hx : xs[start]? = some x) (hv : v ∈ unknowns x) : start ∉ r.removed := by
  obtain ⟨-, hof⟩ := of_reduce_eq_ok h
  obtain ⟨-, -, hsub⟩ := of_eq_ok hof (by simpa using hle)
  have hlt : start < (xs.map unknowns).length := by
    simpa using (List.getElem?_eq_some_iff.mp hx).1
  refine fun hmem => start_notMem_found (v := v) hlt ?_ (hsub hmem)
  rwa [List.getD_eq_getElem?_getD, List.getElem?_map, hx]

/-- Reducing a list of equations keeps every unknown. -/
theorem reduce_keeps_unknowns (es : List Equation) (count start : Int) :
    match reduce Equation.unknowns count start es with
    | (rest, .ok r) =>
      (es.length ≤ count → rest = es ∧ r.removed = []) ∧
      (count < es.length → r.removed.Pairwise (· < ·) ∧
        (r.removed.length : Int) = es.length - count ∧ (∀ i ∈ r.removed, i < es.length) ∧
        rest = others r.removed es) ∧
      ∀ v, (∃ e ∈ rest, v ∈ e.unknowns) ↔ ∃ e ∈ es, v ∈ e.unknowns
    | (rest, .error _) => rest = es := by
  split
  next rest r h =>
    by_cases hle : es.length ≤ count
    · rw [reduce_eq_of_le hle] at h
      cases h
      exact ⟨fun _ => ⟨rfl, rfl⟩, fun hlt => by omega, fun v => .rfl⟩
    · have hc := reduce_conserves h (by omega)
      exact ⟨fun h => absurd h hle,
        fun _ => ⟨hc.ascending, hc.length_removed, hc.valid, hc.rest_eq⟩, hc.mem_unknowns_iff⟩
  next rest u h => exact (of_reduce_eq_error h).1

end Simultaneous.Reduction
