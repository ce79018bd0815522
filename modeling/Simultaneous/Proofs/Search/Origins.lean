import Simultaneous.Proofs.Search.Soundness
import Simultaneous.Solve

/-!
Where the equations that a search leaves out stood before those without unknowns were taken away.
The number by which one is reported is the number of equations with unknowns before it, which is its
own place only when there are no others before it.
-/

namespace Simultaneous

namespace Reduction

variable {α : Type} (p : α → Bool) (xs : List α)

/-- How many elements before a place pass. -/
def rank (j : Nat) : Nat := (xs.take j).countP p

/-- The places, in the whole list, of some of the elements that pass. -/
def origins (is : List Nat) : List Nat :=
  (xs.zipIdx.filter fun q => p q.1 && is.contains (rank p xs q.2)).map Prod.snd

theorem rank_eq_iff {j : Nat} (h : j ≤ xs.length) :
    rank p xs j = j ↔ ∀ x ∈ xs.take j, p x = true := by
  conv_lhs => rhs; rw [← List.length_take_of_le h]
  exact List.countP_eq_length

/-- What passes is numbered by its ranks. -/
theorem zipIdx_filter : (xs.filter p).zipIdx =
    (xs.zipIdx.filter fun q => p q.1).map fun q => (q.1, rank p xs q.2) := by
  induction xs using List.reverseRecOn with
  | nil => rfl
  | append_singleton xs z ih =>
    have hold : ∀ q ∈ xs.zipIdx.filter fun q => p q.1,
        (q.1, rank p (xs ++ [z]) q.2) = (q.1, rank p xs q.2) := by
      rintro ⟨x, j⟩ hq
      obtain ⟨hj, -⟩ := List.mem_zipIdx' (List.mem_filter.mp hq).1
      rw [rank, List.take_append_of_le_length hj.le, rank]
    have hlast : rank p (xs ++ [z]) xs.length = (xs.filter p).length := by
      rw [rank, List.take_left, List.countP_eq_length_filter]
    rw [List.filter_append, List.zipIdx_append, List.zipIdx_append, List.filter_append,
      List.map_append, List.map_congr_left hold, ← ih]
    by_cases hz : p z <;> simp [hz, hlast]

variable {p xs}

theorem mem_origins {is : List Nat} {j : Nat} : j ∈ origins p xs is ↔
    ∃ x, xs[j]? = some x ∧ p x = true ∧ rank p xs j ∈ is := by
  simp only [origins, List.mem_map, List.mem_filter, Bool.and_eq_true, List.contains_iff_mem,
    List.mem_zipIdx_iff_getElem?, Prod.exists, exists_eq_right]

theorem getElem?_filter_rank {j : Nat} {x : α} (hx : xs[j]? = some x) (hp : p x = true) :
    (xs.filter p)[rank p xs j]? = some x := by
  have hmem : (x, rank p xs j) ∈ (xs.filter p).zipIdx := by
    rw [zipIdx_filter]
    apply List.mem_map.mpr
    exact ⟨(x, j), List.mem_filter.mpr ⟨List.mem_zipIdx_iff_getElem?.mpr hx, hp⟩, rfl⟩
  exact List.mem_zipIdx_iff_getElem?.mp hmem

theorem pairwise_origins (is : List Nat) : (origins p xs is).Pairwise (· < ·) := by
  have hall : (xs.zipIdx.map Prod.snd).Pairwise (· < ·) := by
    rw [List.zipIdx_map_snd]
    exact List.pairwise_lt_range'
  exact hall.sublist (List.filter_sublist.map _)

/-- The ranks of the origins of places are these places. -/
theorem map_rank_origins {is : List Nat} (hasc : is.Pairwise (· < ·))
    (hlt : ∀ i ∈ is, i < (xs.filter p).length) : (origins p xs is).map (rank p xs) = is := by
  have hranks : (origins p xs is).map (rank p xs) =
      (List.range (xs.filter p).length).filter is.contains := by
    rw [List.range_eq_range', ← List.zipIdx_map_snd 0 (xs.filter p), zipIdx_filter, List.map_map,
      List.filter_map, origins, List.map_map, List.filter_filter]
    simp only [Bool.and_comm]
    rfl
  rw [hranks]
  have hperm := filter_range_perm (hasc.imp fun h => Nat.ne_of_lt h) hlt
  exact hperm.eq_of_pairwise (fun a b _ _ h h' => absurd h (Nat.lt_asymm h'))
    (List.pairwise_lt_range.filter _) hasc

/-- What passes and is not left out stands at the places that are not origins. -/
theorem others_filter (is : List Nat) :
    others is (xs.filter p) = (others (origins p xs is) xs).filter p := by
  have hsame : ∀ q ∈ xs.zipIdx, (decide (rank p xs q.2 ∉ is) && p q.1) =
      (p q.1 && decide (q.2 ∉ origins p xs is)) := by
    rintro ⟨x, j⟩ hq
    have hx := List.mem_zipIdx_iff_getElem?.mp hq
    by_cases hp : p x <;> simp [mem_origins, hx, hp]
  rw [others, zipIdx_filter, List.filter_map, List.map_map, List.filter_filter, others,
    List.filter_map, List.filter_filter]
  exact congrArg (List.map Prod.fst) (List.filter_congr hsame)

theorem others_nil (xs : List α) : others [] xs = xs := by
  simp [others]

end Reduction

open Attempt Reduction EquationSystem

namespace Search

/-- A solution comes from a run over the equations that it does not leave out, and the others pass
at its point. -/
structure Finds (s : Search) (found : Solution) : Prop where
  unknowns_eq : found.unknowns = s.system.unknowns
  ascending : found.dropped.Pairwise (· < ·)
  valid : ∀ i ∈ found.dropped, i < s.system.equations.length
  passes : ∀ i ∈ found.dropped, ∃ e, s.system.equations[i]? = some e ∧
    e.PassesAt s.system.unknowns s.settings.tolerance found.point
  run : ∃ t, ((solver s.system s.settings (others found.dropped s.system.equations)).solve
    s.settings t).2 = .ok found.point

theorem finds_of_solve {es : List Equation} {s : Search}
    (hsystem : ofEquations es = .ok s.system) {found : Solution} (h : s.solve.2 = .ok found) :
    Finds s found := by
  cases hkind : s.system.kind with
  | underdetermined =>
    rw [solve, hkind] at h
    cases h
  | square =>
    rw [solve, hkind] at h
    simp only at h
    split at h
    · cases h
    next x hx =>
      cases h
      have hrun : ((solver s.system s.settings (others [] s.system.equations)).solve
          s.settings s.stream).2 = .ok x := by
        rw [others_nil]
        exact hx
      exact ⟨rfl, .nil, by simp, by simp, _, hrun⟩
  | overdetermined =>
    have hover := kind_eq_overdetermined_iff.mp hkind
    rw [solve_overdetermined_eq hover] at h
    obtain ⟨last, x, -, his, hx, hpasses, rfl⟩ :=
      (isSeries_seriesOf hsystem hover.le).result_eq_ok h
    obtain ⟨t, hrun, -⟩ := his.run
    exact ⟨rfl, his.conserves.ascending, his.conserves.valid, hpasses, t, hrun.trans hx⟩

end Search

theorem search_of_solveSystem {settings : Settings} {stream : Random.Twister}
    {gs : List Equation.Given} {r : SystemResult Float}
    (h : solveSystem settings stream gs = .ok r) (hok : r.ok = true) :
    ∃ found, search settings stream gs = .ok found ∧ r = .ofSolution found := by
  rw [solveSystem] at h
  split at h
  next found hfound => cases h; exact ⟨found, hfound, rfl⟩
  next f _ =>
    split at h
    · cases h
      cases hok
    · cases h

/-- What a successful result says of the equations that stood at some places and were left out. -/
structure LeavesOut (settings : Settings) (gs : List Equation.Given) (r : SystemResult Float)
    (es : List Equation) (unknowns : List String) (point : Matrix Float) (places : List Nat) :
    Prop where
  read : List.Forall₂ (fun g e => g.read settings = .ok e) gs es
  unknowns_eq : r.unknowns = some unknowns
  values_eq : r.values = some point.firstColumn
  dropped_eq : r.dropped = some (places.map fun j => (rank isActive es j : Int))
  ascending : places.Pairwise (· < ·)
  passes : ∀ j ∈ places, ∃ e, es[j]? = some e ∧ isActive e = true ∧
    e.PassesAt unknowns settings.tolerance point
  run : ∃ t, (({ problem := .ofEquations settings ((others places es).filter isActive) unknowns } :
    Newton.Solver Float).solve settings t).2 = .ok point
  rank_eq_iff : ∀ j ∈ places, rank isActive es j = j ↔ ∀ e ∈ es.take j, isActive e = true

/-- An equation that is reported as left out was so, and passes at the result; it is reported by the
number of equations with unknowns before it, which is its own place just when there are no others
before it. -/
theorem solveSystem_leaves_out {settings : Settings} {stream : Random.Twister}
    {gs : List Equation.Given} {r : SystemResult Float}
    (h : solveSystem settings stream gs = .ok r) (hok : r.ok = true) :
    ∃ es unknowns point places, LeavesOut settings gs r es unknowns point places := by
  obtain ⟨found, hsearch, rfl⟩ := search_of_solveSystem h hok
  obtain ⟨system, hsystem, hfound⟩ := bind_eq_ok.mp hsearch
  obtain ⟨es, hread, hsystem⟩ := bind_eq_ok.mp hsystem
  rw [readAll_eq_mapM] at hread
  obtain ⟨hkept, -, -⟩ := ofEquations_eq_ok hsystem
  obtain ⟨hunknowns, hasc, hvalid, hpasses, t, hrun⟩ := Search.finds_of_solve hsystem hfound
  simp only [hkept] at hvalid hpasses hrun
  have hranks := map_rank_origins hasc hvalid
  refine ⟨es, system.unknowns, found.point, origins isActive es found.dropped, {
    read := mapM_eq_ok hread
    unknowns_eq := congrArg some hunknowns
    values_eq := rfl
    dropped_eq := ?dropped
    ascending := pairwise_origins _
    passes := fun j hj => ?passes
    run := ⟨t, others_filter found.dropped ▸ hrun⟩
    rank_eq_iff := fun j hj => ?rank }⟩
  case dropped =>
    have hcast := congrArg (List.map Int.ofNat) hranks
    rw [List.map_map] at hcast
    exact congrArg some hcast.symm
  case passes =>
    obtain ⟨e, he, hactive, hmem⟩ := mem_origins.mp hj
    obtain ⟨e', he', hpasses⟩ := hpasses _ hmem
    rw [getElem?_filter_rank he hactive] at he'
    cases he'
    exact ⟨e, he, hactive, hpasses⟩
  case rank =>
    obtain ⟨e, he, -⟩ := mem_origins.mp hj
    exact Reduction.rank_eq_iff _ _ (List.getElem?_eq_some_iff.mp he).1.le

/-- An equation without unknowns, and two that say the same of an unknown. -/
def constantFirst : List Equation.Given := [.text "2 = 2", .text "x = 1", .text "2*x = 2"]

theorem exists_solveSystem_constantFirst : ∃ r, solveSystem {} ⟨#[], 0⟩ constantFirst = .ok r ∧
    r.ok = true ∧ r.dropped = some [1] ∧ r.unknowns = some ["x"] := by
  have hsolved : passes (fun r => r.ok && r.dropped == some [1] && r.unknowns == some ["x"])
      (solveSystem {} ⟨#[], 0⟩ constantFirst) = true := by
    decide +kernel
  obtain ⟨r, hr, hparts⟩ := exists_of_passes hsolved
  simp only [Bool.and_eq_true, beq_iff_eq] at hparts
  obtain ⟨⟨hok, hdropped⟩, hnames⟩ := hparts
  exact ⟨r, hr, hok, hdropped, hnames⟩

theorem solveSystem_leaves_out_constantFirst : ∃ r,
    solveSystem {} ⟨#[], 0⟩ constantFirst = .ok r ∧ r.ok = true ∧
    ∃ es unknowns point places, LeavesOut {} constantFirst r es unknowns point places := by
  obtain ⟨r, hr, hok, -⟩ := exists_solveSystem_constantFirst
  exact ⟨r, hr, hok, solveSystem_leaves_out hr hok⟩

/-- The equation at the place that is reported as left out is the very one that was solved. -/
theorem exists_dropped_solved : ∃ e r point t, constantFirst[1]?.map (·.read {}) = some (.ok e) ∧
    solveSystem {} ⟨#[], 0⟩ constantFirst = .ok r ∧ r.ok = true ∧ r.dropped = some [1] ∧
    r.values = some point.firstColumn ∧
    (({ problem := .ofEquations {} [e] ["x"] } : Newton.Solver Float).solve {} t).2 =
      .ok point := by
  have hactive : passes (fun es => es.map isActive == [false, true, true])
      (readAll {} constantFirst) = true := by
    decide +kernel
  obtain ⟨r, hr, hok, hdropped, hnames⟩ := exists_solveSystem_constantFirst
  obtain ⟨found, hsearch, rfl⟩ := search_of_solveSystem hr hok
  obtain ⟨system, hsystem, hfound⟩ := bind_eq_ok.mp hsearch
  obtain ⟨es, hread, hsystem⟩ := bind_eq_ok.mp hsystem
  obtain ⟨es', hes, hactive⟩ := exists_of_passes hactive
  rw [hread] at hes
  cases hes
  rw [readAll_eq_mapM] at hread
  obtain _ | @⟨_, e₀, _, _, -, _ | @⟨_, e, _, _, hx, _ | @⟨_, e₂, _, _, -, _ | _⟩⟩⟩ :=
    mapM_eq_ok hread
  obtain ⟨hkept, -, -⟩ := ofEquations_eq_ok hsystem
  obtain ⟨hunknowns, -, -, -, t, hrun⟩ := Search.finds_of_solve hsystem hfound
  have hkept : system.equations = [e, e₂] := by
    simp only [List.map_cons, List.map_nil, beq_iff_eq, List.cons.injEq, and_true] at hactive
    simp [hkept, hactive]
  have hplace : found.dropped = [1] :=
    List.map_injective_iff.mpr (fun _ _ h => Int.ofNat.inj h) (Option.some.inj hdropped)
  have hnames : system.unknowns = ["x"] := hunknowns.symm.trans (Option.some.inj hnames)
  rw [hkept, hplace, Search.solver, hnames] at hrun
  exact ⟨e, _, found.point, t, congrArg some hx, hr, hok, hdropped, rfl, hrun⟩

end Simultaneous
