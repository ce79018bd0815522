import Mathlib.Algebra.Order.BigOperators.Group.Finset
import Mathlib.Data.Finset.Max
import Mathlib.Data.List.GetD
import Simultaneous.Proofs.Attempt
import Simultaneous.Proofs.Distinct
import Simultaneous.Proofs.Reduction.Conservation

/-!
The choice among the redundant equations. Whether an equation is redundant depends on those visited
before it; a reduction fails just when too many are not. From the start of the system the redundant
equations with the fewest variables are left out, so that the number of variables left out is the
least possible, and from anywhere else those that are visited first.
-/

namespace Simultaneous.Reduction

/-- How many positions are visited before `i` when `total` are visited from `start`. -/
def turn (total : Nat) (start : Int) (i : Nat) : Nat := ((i - start) % (total : Int)).toNat

/-- Each variable at the position occurs at one that is visited before and is not redundant. -/
def IsRedundant (equations : List (List String)) (start : Int) (i : Nat) : Prop :=
  ∀ v ∈ equations.getD i [], ∃ j,
    ∃ _ : turn equations.length start j < turn equations.length start i,
      j < equations.length ∧ ¬ IsRedundant equations start j ∧ v ∈ equations.getD j []
termination_by turn equations.length start i

/-- How many different variables occur at a position. -/
def weight (equations : List (List String)) (i : Nat) : Nat :=
  (equations.getD i []).toFinset.card

theorem turn_zero {total i : Nat} (h : i < total) : turn total 0 i = i := by
  rw [turn, Int.sub_zero, Int.emod_eq_of_lt (by omega) (by omega), Int.toNat_natCast]

theorem map_turn_circle (total : Nat) (start : Int) :
    (circle total start).map (turn total start) = List.range total := by
  rw [circle, List.map_map]
  refine (List.map_congr_left fun k hk => ?_).trans (List.map_id _)
  have hk : k < total := List.mem_range.mp hk
  have hpos := Int.emod_nonneg (start + k) (b := total) (by omega)
  rw [Function.comp_apply, turn, Int.toNat_of_nonneg hpos, Int.emod_sub_emod,
    add_sub_cancel_left, Int.emod_eq_of_lt (by omega) (by omega), Int.toNat_natCast, id]

theorem pairwise_circle (total : Nat) (start : Int) :
    (circle total start).Pairwise fun i j => turn total start i < turn total start j := by
  have h := List.pairwise_lt_range (n := total)
  rwa [← map_turn_circle total start, List.pairwise_map] at h

section

variable {equations : List (List String)} {count start : Int}

theorem isRedundant_iff {i : Nat} : IsRedundant equations start i ↔
    ∀ v ∈ equations.getD i [], ∃ j < equations.length,
      turn equations.length start j < turn equations.length start i ∧
        ¬ IsRedundant equations start j ∧ v ∈ equations.getD j [] := by
  rw [IsRedundant]
  refine forall₂_congr fun v _ => exists_congr fun j => ?_
  rw [exists_prop, and_left_comm]

/-- What stands before a position in the circle is what is visited before it. -/
theorem mem_before_iff {before is : List Nat} {k j : Nat}
    (hcircle : circle equations.length start = before ++ k :: is) :
    j ∈ before ↔ j < equations.length ∧
      turn equations.length start j < turn equations.length start k := by
  have hsorted := pairwise_circle equations.length start
  have hrange := (circle_perm equations.length start).mem_iff (a := j)
  rw [hcircle] at hsorted hrange
  rw [List.mem_append, List.mem_range, List.mem_cons] at hrange
  obtain ⟨-, hsorted, hbefore⟩ := List.pairwise_append.mp hsorted
  constructor
  · exact fun hj => ⟨hrange.mp (.inl hj), hbefore j hj k List.mem_cons_self⟩
  · rintro ⟨hj, hturn⟩
    obtain hj | rfl | hj := hrange.mpr hj
    · exact hj
    · exact absurd hturn (Nat.lt_irrefl _)
    · exact absurd ((List.pairwise_cons.mp hsorted).1 j hj) (Nat.lt_asymm hturn)

/-- What is covered are the variables of the positions visited that were not redundant. -/
def Covers (equations : List (List String)) (start : Int) (covered : List String)
    (before : List Nat) : Prop :=
  ∀ v, v ∈ covered ↔ ∃ j ∈ before, ¬ IsRedundant equations start j ∧ v ∈ equations.getD j []

namespace Covers

variable {covered : List String} {before is : List Nat} {k : Nat}

theorem all_iff (h : Covers equations start covered before)
    (hcircle : circle equations.length start = before ++ k :: is) :
    (equations.getD k []).all covered.contains = true ↔ IsRedundant equations start k := by
  rw [isRedundant_iff, List.all_eq_true]
  refine forall₂_congr fun v _ => ?_
  rw [List.contains_iff_mem, h v]
  refine exists_congr fun j => ?_
  rw [mem_before_iff hcircle, and_assoc]

theorem skip (h : Covers equations start covered before) (hk : IsRedundant equations start k) :
    Covers equations start covered (before ++ [k]) := by
  intro v
  simp only [h v, List.mem_append, List.mem_singleton, or_and_right, exists_or, exists_eq_left, hk,
    not_true_eq_false, false_and, or_false]

theorem cover (h : Covers equations start covered before) (hk : ¬ IsRedundant equations start k) :
    Covers equations start (covered ++ equations.getD k []) (before ++ [k]) := by
  intro v
  simp only [h v, List.mem_append, List.mem_singleton, or_and_right, exists_or, exists_eq_left, hk,
    not_false_eq_true, true_and]

end Covers

/-- On the rest of a visit those positions are found that are redundant. -/
theorem mem_redundant_iff {covered : List String} {before is : List Nat}
    (hcircle : circle equations.length start = before ++ is)
    (hcovered : Covers equations start covered before) {i : Nat} (hi : i ∈ is) :
    i ∈ redundant (fun i => equations.getD i []) covered is ↔ IsRedundant equations start i := by
  induction is generalizing before covered with
  | nil => cases hi
  | cons k is ih =>
    have hk : k ∉ is := by
      have hn := nodup_circle equations.length start
      rw [hcircle] at hn
      exact (List.nodup_cons.mp (List.nodup_append.mp hn).2.1).1
    have hnext : circle equations.length start = (before ++ [k]) ++ is := by
      rw [hcircle, List.append_assoc, List.singleton_append]
    rw [redundant]
    split
    next h =>
      have hred := (hcovered.all_iff hcircle).mp h
      obtain rfl | hi := List.mem_cons.mp hi
      · exact iff_of_true List.mem_cons_self hred
      · have hik : i ≠ k := fun he => hk (he ▸ hi)
        rw [List.mem_cons, or_iff_right hik, ih hnext (hcovered.skip hred) hi]
    next h =>
      have hred := mt (hcovered.all_iff hcircle).mpr h
      obtain rfl | hi := List.mem_cons.mp hi
      · exact iff_of_false (fun h => hk ((redundant_sublist _ _ _).subset h)) hred
      · exact ih hnext (hcovered.cover hred) hi

/-- The positions that a visit finds are the redundant ones. -/
theorem mem_found_iff {i : Nat} :
    i ∈ found equations start ↔ i < equations.length ∧ IsRedundant equations start i := by
  have hempty : Covers equations start [] [] := by simp [Covers]
  constructor
  · intro h
    have hi := (redundant_sublist _ _ _).subset h
    exact ⟨lt_of_mem_circle hi, (mem_redundant_iff rfl hempty hi).mp h⟩
  · rintro ⟨hlt, h⟩
    have hi : i ∈ circle equations.length start := by
      rwa [(circle_perm _ _).mem_iff, List.mem_range]
    exact (mem_redundant_iff rfl hempty hi).mpr h

theorem pairwise_found : (found equations start).Pairwise fun i j =>
    turn equations.length start i < turn equations.length start j :=
  (pairwise_circle equations.length start).sublist (redundant_sublist _ _ _)

open scoped Classical in
/-- The positions that are not redundant. -/
noncomputable def essential (equations : List (List String)) (start : Int) : Finset Nat :=
  {i ∈ Finset.range equations.length | ¬ IsRedundant equations start i}

theorem length_found_add (equations : List (List String)) (start : Int) :
    (found equations start).length + (essential equations start).card = equations.length := by
  classical
  have hfound : (found equations start).toFinset =
      {i ∈ Finset.range equations.length | IsRedundant equations start i} := by
    ext i
    rw [List.mem_toFinset, mem_found_iff, Finset.mem_filter, Finset.mem_range]
  rw [← List.toFinset_card_of_nodup (nodup_found equations start), hfound, essential]
  simpa using Finset.card_filter_add_card_filter_not (s := Finset.range equations.length)
    (IsRedundant equations start)

theorem pairwise_byCount {r : Nat → Nat → Prop} {count : Nat → Nat} {bound : Nat} {is : List Nat}
    (h : is.Pairwise r) :
    (byCount count bound is).Pairwise fun i j => count i < count j ∨ count i = count j ∧ r i j := by
  refine List.pairwise_flatMap.mpr ⟨fun k _ => ?_, ?_⟩
  · refine List.pairwise_filter.mpr (h.imp fun hr hi hj => ?_)
    exact .inr ⟨(beq_iff_eq.mp hi).trans (beq_iff_eq.mp hj).symm, hr⟩
  · refine List.pairwise_lt_range.imp fun hkl i hi j hj => ?_
    have hi := beq_iff_eq.mp (List.mem_filter.mp hi).2
    have hj := beq_iff_eq.mp (List.mem_filter.mp hj).2
    exact .inl (hi ▸ hj ▸ hkl)

theorem rel_of_take {r : Nat → Nat → Prop} {is : List Nat} (h : is.Pairwise r) {k i j : Nat}
    (hi : i ∈ is.take k) (hj : j ∈ is) (hjk : j ∉ is.take k) : r i j := by
  rw [← List.take_append_drop k is] at h hj
  exact (List.pairwise_append.mp h).2.2 i hi j ((List.mem_append.mp hj).resolve_left hjk)

/-- From the start of the system what is taken first has fewer variables than what is not, or as
many and is visited before. -/
theorem ranked_zero_rel {excess : Int} {i j : Nat}
    (hi : i ∈ (ranked equations 0 excess).take excess.toNat) (hj : j ∈ found equations 0)
    (hjn : j ∉ (ranked equations 0 excess).take excess.toNat) :
    (equations.getD i []).length < (equations.getD j []).length ∨
      (equations.getD i []).length = (equations.getD j []).length ∧
        turn equations.length 0 i < turn equations.length 0 j := by
  have hperm := ranked_perm equations 0 excess
  have hj := hperm.mem_iff.mpr hj
  obtain hmany | hfew := lt_or_ge excess (found equations 0).length
  · rw [ranked] at hi hj hjn
    simp only [true_and, if_pos hmany] at hi hj hjn
    exact rel_of_take (pairwise_byCount pairwise_found) hi hj hjn
  · have hall := hperm.length_eq
    rw [List.take_of_length_le (by omega)] at hjn
    exact absurd hj hjn

/-- What is left out of too many equations are the first ones in the order of preference. -/
theorem mem_removed_iff {r : Reduction} (h : of equations count start = .ok r)
    (hlt : count < equations.length) {i : Nat} :
    i ∈ r.removed ↔
      i ∈ (ranked equations start (equations.length - count)).take
        (equations.length - count).toNat := by
  have hfound : ¬ ((found equations start).length : Int) < equations.length - count := by
    intro hf
    rw [of_eq_error_iff.mpr ⟨hf, rfl⟩] at h
    cases h
  rw [of] at h
  simp only at h
  rw [if_neg (by omega), if_neg hfound] at h
  cases h
  rw [List.mem_filter, List.contains_iff_mem, List.mem_range, and_iff_right_iff_imp]
  intro hi
  exact lt_of_mem_found _ _ ((ranked_perm _ _ _).subset (List.mem_of_mem_take hi))

/-- A choice of the lightest elements is the lightest of all choices of as many: any other one
exchanges some of them for others. -/
theorem sum_le_sum_of_lightest {s t : Finset Nat} {w : Nat → Nat} (hcard : s.card = t.card)
    (h : ∀ i ∈ s, ∀ j ∈ t, j ∉ s → w i ≤ w j) : ∑ i ∈ s, w i ≤ ∑ j ∈ t, w j := by
  rw [← Finset.sum_sdiff_le_sum_sdiff]
  obtain hempty | ⟨j, hj⟩ := (t \ s).eq_empty_or_nonempty
  · have hs : s \ t = ∅ := by
      rw [← Finset.card_eq_zero, Finset.card_sdiff_comm hcard, hempty, Finset.card_empty]
    rw [hs, hempty]
  · obtain ⟨m, hm, hle⟩ := Finset.exists_min_image (t \ s) w ⟨j, hj⟩
    obtain ⟨hmt, hms⟩ := Finset.mem_sdiff.mp hm
    calc ∑ i ∈ s \ t, w i ≤ (s \ t).card • w m :=
          Finset.sum_le_card_nsmul _ _ _ fun i hi => h i (Finset.mem_sdiff.mp hi).1 m hmt hms
      _ = (t \ s).card • w m := by rw [Finset.card_sdiff_comm hcard]
      _ ≤ ∑ j ∈ t \ s, w j := Finset.card_nsmul_le_sum _ _ _ hle

end

/-- What a reduction that has to leave out `excess` positions chooses among the redundant ones. -/
structure Chooses (equations : List (List String)) (start excess : Int) (removed : List Nat) :
    Prop where
  ascending : removed.Pairwise (· < ·)
  length_removed : (removed.length : Int) = excess
  redundant : ∀ i ∈ removed, i < equations.length ∧ IsRedundant equations start i
  fewest_first : start = 0 → ∀ i ∈ removed, ∀ j < equations.length,
    IsRedundant equations start j → j ∉ removed →
      weight equations i < weight equations j ∨ weight equations i = weight equations j ∧ i < j
  least : start = 0 → ∀ other : Finset Nat,
    (∀ j ∈ other, j < equations.length ∧ IsRedundant equations start j) →
      (other.card : Int) = excess →
        ∑ i ∈ removed.toFinset, weight equations i ≤ ∑ j ∈ other, weight equations j
  first_visited : start ≠ 0 → ∀ i ∈ removed, ∀ j < equations.length,
    IsRedundant equations start j → j ∉ removed →
      turn equations.length start i < turn equations.length start j

theorem chooses_of_eq_ok {equations : List (List String)} {count start : Int} {r : Reduction}
    (h : of equations count start = .ok r) (hlt : count < equations.length)
    (hnodup : ∀ names ∈ equations, names.Nodup) :
    Chooses equations start (equations.length - count) r.removed := by
  obtain ⟨hasc, hlen, hsub⟩ := of_eq_ok h hlt.le
  have hweight : ∀ i < equations.length, (equations.getD i []).length = weight equations i := by
    intro i hi
    rw [weight, List.toFinset_card_of_nodup]
    rw [List.getD_eq_getElem _ _ hi]
    exact hnodup _ (List.getElem_mem hi)
  have hfewest : start = 0 → ∀ i ∈ r.removed, ∀ j < equations.length,
      IsRedundant equations start j → j ∉ r.removed →
        weight equations i < weight equations j ∨
          weight equations i = weight equations j ∧ i < j := by
    rintro rfl i hi j hj hjr hjn
    have hil := lt_of_mem_found _ _ (hsub hi)
    rw [mem_removed_iff h hlt] at hi hjn
    have hrel := ranked_zero_rel hi (mem_found_iff.mpr ⟨hj, hjr⟩) hjn
    rwa [hweight i hil, hweight j hj, turn_zero hil, turn_zero hj] at hrel
  refine ⟨hasc, hlen, fun i hi => mem_found_iff.mp (hsub hi), hfewest, ?_, ?_⟩
  · rintro hstart other hother hcard
    refine sum_le_sum_of_lightest ?_ fun i hi j hj hjn => ?_
    · rw [List.toFinset_card_of_nodup (hasc.imp Nat.ne_of_lt)]
      omega
    · rw [List.mem_toFinset] at hi hjn
      obtain ⟨hjl, hjr⟩ := hother j hj
      obtain h | h := hfewest hstart i hi j hjl hjr hjn
      · exact h.le
      · exact h.1.le
  · rintro hstart i hi j hj hjr hjn
    have hj' := mem_found_iff.mpr ⟨hj, hjr⟩
    rw [mem_removed_iff h hlt, ranked] at hi hjn
    simp only [hstart, false_and, if_false] at hi hjn
    exact rel_of_take pairwise_found hi hj' hjn

/-- A reduction of too many equations fails just when more than `count` of them are not redundant,
so never when they have at most `count` variables. Otherwise it leaves out the redundant equations
of the fewest variables from the start of the system, and those visited first from elsewhere. -/
theorem reduce_choice {es : List Equation} {count start : Int} (hlong : count < es.length) :
    ((∃ u, (reduce Equation.unknowns count start es).2 = .error u ∧
        u.code = "inconsistent.system") ↔
      count < (essential (es.map Equation.unknowns) start).card) ∧
    (((es.flatMap Equation.unknowns).toFinset.card : Int) ≤ count →
      (essential (es.map Equation.unknowns) start).card ≤ count) ∧
    ((essential (es.map Equation.unknowns) start).card ≤ count →
      ∃ r, reduce Equation.unknowns count start es = (others r.removed es, .ok r) ∧
        Chooses (es.map Equation.unknowns) start (es.length - count) r.removed) := by
  have hlt : count < (es.map Equation.unknowns).length := by simpa using hlong
  have hcount := length_found_add (es.map Equation.unknowns) start
  rw [List.length_map] at hcount
  have herror : (∃ u, (reduce Equation.unknowns count start es).2 = .error u ∧
      u.code = "inconsistent.system") ↔
        count < (essential (es.map Equation.unknowns) start).card := by
    constructor
    · rintro ⟨u, hu, -⟩
      have hof := (of_reduce_eq_error (Prod.ext rfl hu)).2
      have := (of_eq_error_iff.mp hof).1
      rw [List.length_map] at this
      omega
    · intro hmany
      have hfew : ((found (es.map Equation.unknowns) start).length : Int) <
          (es.map Equation.unknowns).length - count := by
        rw [List.length_map]
        omega
      have hof := of_eq_error_iff.mpr ⟨hfew, rfl⟩
      exact ⟨.inconsistent _ _, by rw [reduce, hof], rfl⟩
  refine ⟨herror, fun hfew => ?_, fun hfew => ?_⟩
  · have hnames : ∀ e ∈ es, e.unknowns ⊆ (es.flatMap Equation.unknowns).dedup := by
      intro e he v hv
      exact List.mem_dedup.mpr (List.mem_flatMap.mpr ⟨e, he, hv⟩)
    rw [List.card_toFinset] at hfew
    refine not_lt.mp fun hmany => ?_
    obtain ⟨u, hu, -⟩ := herror.mpr hmany
    obtain ⟨rest, r, hr⟩ : ∃ rest r, reduce Equation.unknowns count start es = (rest, .ok r) :=
      exists_reduce_eq_ok hnames hfew
    rw [hr] at hu
    cases hu
  · rcases h : reduce Equation.unknowns count start es with ⟨rest, u | r⟩
    · have hof := (of_reduce_eq_error h).2
      have := (of_eq_error_iff.mp hof).1
      rw [List.length_map] at this
      omega
    · obtain ⟨rfl, hof⟩ := of_reduce_eq_ok h
      have hchooses := chooses_of_eq_ok hof hlt fun names hn => by
        obtain ⟨e, -, rfl⟩ := List.mem_map.mp hn
        exact Distinct.nodup_eraseDups _
      rw [List.length_map] at hchooses
      exact ⟨r, by rw [without_eq_others hchooses.ascending], hchooses⟩

/-- Four equations in three unknowns. -/
def fourInThree : List Equation :=
  [["x", "y", "z"], ["x", "y"], ["x"], ["y", "z"]].map fun names =>
    ⟨.ofTree (.sum (names.map .sym)) names (" + ".intercalate names), .zero⟩

/-- From the start of the system the third equation goes, which has one unknown; from there it is
the first one, which has three but is visited before the second. -/
theorem reduce_choice_fourInThree :
    (3 : Int) < fourInThree.length ∧
    (∃ r, reduce Equation.unknowns 3 0 fourInThree = (others [2] fourInThree, .ok r) ∧
      Chooses (fourInThree.map Equation.unknowns) 0 1 [2]) ∧
    ∃ r, reduce Equation.unknowns 3 2 fourInThree = (others [0] fourInThree, .ok r) ∧
      Chooses (fourInThree.map Equation.unknowns) 2 1 [0] := by
  have hlong : (3 : Int) < fourInThree.length := by decide
  have hnames : ((fourInThree.flatMap Equation.unknowns).toFinset.card : Int) ≤ 3 := by
    decide
  have hremoved : ∀ (start : Int) (removed : List Nat),
      Attempt.passes (·.removed == removed)
        (reduce Equation.unknowns 3 start fourInThree).2 = true →
      ∃ r, reduce Equation.unknowns 3 start fourInThree = (others removed fourInThree, .ok r) ∧
        Chooses (fourInThree.map Equation.unknowns) start 1 removed := by
    intro start removed hpasses
    obtain ⟨-, hfew, hchoice⟩ := reduce_choice hlong
    obtain ⟨r, hr, hchooses⟩ := hchoice (hfew hnames)
    rw [hr] at hpasses
    obtain rfl : r.removed = removed := beq_iff_eq.mp hpasses
    exact ⟨r, hr, hchooses⟩
  exact ⟨hlong, hremoved 0 [2] (by decide), hremoved 2 [0] (by decide)⟩

end Simultaneous.Reduction
