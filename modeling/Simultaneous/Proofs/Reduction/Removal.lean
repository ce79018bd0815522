import Simultaneous.Proofs.Reduction.Scan

/-!
What a reduction leaves out: redundant equations, each at most once, as many as there are too many.
What stays is what stands at the other positions, in the old order.
-/

namespace Simultaneous.Reduction

theorem byCount_perm {count : Nat → Nat} {bound : Nat} {is : List Nat}
    (hb : ∀ i ∈ is, count i ≤ bound) (hn : is.Nodup) : (byCount count bound is).Perm is := by
  have hd : (byCount count bound is).Nodup := by
    refine List.nodup_flatMap.mpr ⟨fun k _ => hn.filter _, ?_⟩
    refine (List.nodup_range (n := bound + 1)).imp ?_
    intro k l hkl i hk hl
    simp only [List.mem_filter, beq_iff_eq] at hk hl
    exact hkl (hk.2.symm.trans hl.2)
  refine (List.perm_ext_iff_of_nodup hd hn).mpr fun i => ?_
  simp only [byCount, List.mem_flatMap, List.mem_range, List.mem_filter, beq_iff_eq]
  constructor
  · rintro ⟨k, -, hi, -⟩
    exact hi
  · intro hi
    have := hb i hi
    exact ⟨count i, by omega, hi, rfl⟩

theorem le_foldl_max {xs : List Nat} {m x : Nat} (h : x ≤ m ∨ x ∈ xs) : x ≤ xs.foldl max m := by
  induction xs generalizing m with
  | nil => simpa using h
  | cons y ys ih =>
    rw [List.foldl_cons]
    apply ih
    obtain h | h := h
    · exact .inl (Nat.le_trans h (Nat.le_max_left m y))
    · obtain rfl | h := List.mem_cons.mp h
      · exact .inl (Nat.le_max_right m x)
      · exact .inr h

section

variable (equations : List (List String)) (start : Int)

theorem lt_of_mem_found {i : Nat} (h : i ∈ found equations start) : i < equations.length :=
  lt_of_mem_circle ((redundant_sublist _ _ _).subset h)

theorem nodup_found : (found equations start).Nodup := nodup_redundant _ _ _

theorem start_notMem_found {equations : List (List String)} {start : Nat}
    (hlt : start < equations.length) {v : String} (hv : v ∈ equations.getD start []) :
    start ∉ found equations start := by
  obtain ⟨is, his⟩ := circle_eq_cons hlt
  have hn := nodup_circle equations.length start
  rw [his] at hn
  rw [found, his, redundant, if_neg]
  · exact fun h => (List.nodup_cons.mp hn).1 ((redundant_sublist _ _ _).subset h)
  · intro hall
    have := List.all_eq_true.mp hall v hv
    simp at this

/-- Preference only rearranges the redundant positions. -/
theorem ranked_perm (excess : Int) :
    (ranked equations start excess).Perm (found equations start) := by
  rw [ranked]
  split
  · refine byCount_perm (fun i hi => le_foldl_max (.inr ?_)) (nodup_found equations start)
    have hlt := lt_of_mem_found equations start hi
    rw [List.getD_eq_getElem?_getD, List.getElem?_eq_getElem hlt, Option.getD_some]
    exact List.mem_map_of_mem (List.getElem_mem hlt)
  · exact .refl _

end

theorem filter_range_perm {n : Nat} {chosen : List Nat} (hn : chosen.Nodup)
    (hlt : ∀ i ∈ chosen, i < n) : ((List.range n).filter chosen.contains).Perm chosen := by
  refine (List.perm_ext_iff_of_nodup (List.nodup_range.filter _) hn).mpr fun i => ?_
  simp only [List.mem_filter, List.mem_range, List.contains_iff_mem]
  exact ⟨fun h => h.2, fun h => ⟨hlt i h, h⟩⟩

section

variable {equations : List (List String)} {count start : Int}

theorem of_eq_of_le (h : equations.length ≤ count) : of equations count start = .ok ⟨[], []⟩ := by
  rw [of]
  exact if_pos (by omega)

/-- A reduction fails just when there are not enough redundant equations. -/
theorem of_eq_error_iff {u : Unsolved} : of equations count start = .error u ↔
    ((found equations start).length : Int) < equations.length - count ∧
      u = .inconsistent (equations.length - count) (found equations start).length := by
  rw [of]
  simp only
  split
  · simp only [reduceCtorEq, false_iff]
    omega
  · split
    next h => simp [h, eq_comm]
    next h => simp [h]

/-- What is left out of too many equations: redundant ones, in ascending order. -/
theorem of_eq_ok {r : Reduction} (h : of equations count start = .ok r)
    (hlt : count ≤ equations.length) :
    r.removed.Pairwise (· < ·) ∧ (r.removed.length : Int) = equations.length - count ∧
      r.removed ⊆ found equations start := by
  by_cases hle : equations.length ≤ count
  · rw [of_eq_of_le hle] at h
    cases h
    exact ⟨.nil, by simp; omega, by simp⟩
  have hfound : ¬ ((found equations start).length : Int) < equations.length - count := by
    intro hf
    rw [of_eq_error_iff.mpr ⟨hf, rfl⟩] at h
    cases h
  rw [of] at h
  simp only at h
  rw [if_neg (by omega), if_neg hfound] at h
  cases h
  have hp := ranked_perm equations start (equations.length - count)
  generalize ranked equations start (equations.length - count) = is at hp
  have hsub : is.take (equations.length - count).toNat ⊆ found equations start :=
    fun i hi => hp.subset (List.mem_of_mem_take hi)
  have hr := filter_range_perm (hp.nodup_iff.mpr (nodup_found equations start)).take
    fun i hi => lt_of_mem_found equations start (hsub hi)
  refine ⟨List.pairwise_lt_range.filter _, ?_, fun i hi => hsub (hr.subset hi)⟩
  rw [hr.length_eq, List.length_take, hp.length_eq]
  omega

end

section

variable {α : Type}

theorem without_map_succ (is : List Nat) (x : α) (xs : List α) :
    without (is.map (· + 1)) (x :: xs) = x :: without is xs := by
  induction is with
  | nil => rfl
  | cons i is ih =>
    change (without (is.map (· + 1)) (x :: xs)).eraseIdx (i + 1) = _
    rw [ih]
    rfl

theorem without_zero_map_succ (is : List Nat) (x : α) (xs : List α) :
    without (0 :: is.map (· + 1)) (x :: xs) = without is xs := by
  change (without (is.map (· + 1)) (x :: xs)).eraseIdx 0 = _
  rw [without_map_succ]
  rfl

/-- The elements at all other positions, in their order. -/
def others (removed : List Nat) (xs : List α) : List α :=
  (xs.zipIdx.filter fun p => p.2 ∉ removed).map Prod.fst

theorem filter_zipIdx_one (p : Nat → Bool) (xs : List α) :
    ((xs.zipIdx 1).filter fun q => p q.2).map Prod.fst =
      (xs.zipIdx.filter fun q => p (q.2 + 1)).map Prod.fst := by
  rw [List.zipIdx_succ, List.filter_map, List.map_map]
  rfl

theorem others_map_succ (is : List Nat) (x : α) (xs : List α) :
    others (is.map (· + 1)) (x :: xs) = x :: others is xs := by
  have hs : ∀ k, k + 1 ∈ is.map (· + 1) ↔ k ∈ is := by simp
  rw [others, List.zipIdx_cons, List.filter_cons_of_pos (by simp), List.map_cons,
    filter_zipIdx_one (fun k => k ∉ is.map (· + 1))]
  simp only [hs, others]

theorem others_zero_map_succ (is : List Nat) (x : α) (xs : List α) :
    others (0 :: is.map (· + 1)) (x :: xs) = others is xs := by
  have hs : ∀ k, k + 1 ∈ 0 :: is.map (· + 1) ↔ k ∈ is := by simp
  rw [others, List.zipIdx_cons, List.filter_cons_of_neg (by simp),
    filter_zipIdx_one (fun k => k ∉ 0 :: is.map (· + 1))]
  simp only [hs, others]

theorem exists_map_succ {is : List Nat} (h : ∀ i ∈ is, 0 < i) :
    ∃ js : List Nat, is = js.map (· + 1) := by
  refine ⟨is.map (· - 1), ?_⟩
  have he : is.map ((· + 1) ∘ (· - 1)) = is.map id :=
    List.map_congr_left fun i hi => Nat.sub_add_cancel (h i hi)
  rw [List.map_map, he, List.map_id]

theorem pairwise_of_map_succ {is : List Nat} (h : (is.map (· + 1)).Pairwise (· < ·)) :
    is.Pairwise (· < ·) := (List.pairwise_map.mp h).imp fun h => Nat.lt_of_succ_lt_succ h

/-- Deleting ascending positions from the last to the first leaves the elements at the others. -/
theorem without_eq_others {removed : List Nat} (h : removed.Pairwise (· < ·)) (xs : List α) :
    without removed xs = others removed xs := by
  induction xs generalizing removed with
  | nil =>
    clear h
    induction removed with
    | nil => rfl
    | cons i is ih => exact congrArg (·.eraseIdx i) ih
  | cons x xs ih =>
    obtain _ | ⟨_ | i, is⟩ := removed
    · simp [without, others]
    · obtain ⟨hlt, h⟩ := List.pairwise_cons.mp h
      obtain ⟨js, rfl⟩ := exists_map_succ hlt
      rw [without_zero_map_succ, others_zero_map_succ, ih (pairwise_of_map_succ h)]
    · have hpos : ∀ j ∈ (i + 1) :: is, 0 < j := by
        intro j hj
        obtain rfl | hj := List.mem_cons.mp hj
        · omega
        · exact Nat.lt_trans (Nat.succ_pos i) ((List.pairwise_cons.mp h).1 j hj)
      obtain ⟨js, hjs⟩ := exists_map_succ hpos
      rw [hjs] at h ⊢
      rw [without_map_succ, others_map_succ, ih (pairwise_of_map_succ h)]

theorem mem_others {removed : List Nat} {xs : List α} {x : α} :
    x ∈ others removed xs ↔ ∃ i, i ∉ removed ∧ xs[i]? = some x := by
  simp only [others, List.mem_map, List.mem_filter, List.mem_zipIdx_iff_getElem?,
    decide_eq_true_eq, Prod.exists, exists_and_right, exists_eq_right]
  exact exists_congr fun i => and_comm

theorem others_subset (removed : List Nat) (xs : List α) : others removed xs ⊆ xs := by
  intro x hx
  obtain ⟨i, -, hi⟩ := mem_others.mp hx
  exact List.mem_of_getElem? hi

theorem length_others_add {removed : List Nat} {xs : List α} (hn : removed.Nodup)
    (hlt : ∀ i ∈ removed, i < xs.length) :
    (others removed xs).length + removed.length = xs.length := by
  have hsnd : (others removed xs).length =
      ((List.range xs.length).filter fun i => i ∉ removed).length := by
    rw [List.range_eq_range', ← List.zipIdx_map_snd 0 xs, List.filter_map, List.length_map, others,
      List.length_map]
    rfl
  have hsplit := List.length_eq_length_filter_add (l := List.range xs.length) removed.contains
  rw [(filter_range_perm hn hlt).length_eq, List.length_range] at hsplit
  have he : (fun i => !removed.contains i) = fun i => decide (i ∉ removed) := by
    funext i
    simp
  rw [he, ← hsnd] at hsplit
  omega

end

end Simultaneous.Reduction
