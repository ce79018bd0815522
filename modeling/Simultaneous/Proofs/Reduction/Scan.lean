import Mathlib.Data.List.Perm.Subperm
import Mathlib.Data.List.Nodup
import Simultaneous.Reduction

/-!
The visit of all equations in a circle. Every position is visited once; the equations that are kept
contain every variable of all others, and each of them brings a variable of its own.
-/

namespace Simultaneous.Reduction

theorem length_circle (total : Nat) (start : Int) : (circle total start).length = total := by
  simp [circle]

theorem lt_of_mem_circle {total i : Nat} {start : Int} (h : i ∈ circle total start) :
    i < total := by
  obtain ⟨k, hk, rfl⟩ := List.mem_map.mp h
  have hpos : (0 : Int) < total := by have := List.mem_range.mp hk; omega
  have hlt := Int.emod_lt_of_pos (start + k) hpos
  omega

theorem nodup_circle (total : Nat) (start : Int) : (circle total start).Nodup := by
  refine List.Nodup.map_on ?_ List.nodup_range
  intro k hk l hl h
  rw [List.mem_range] at hk hl
  have hne : (total : Int) ≠ 0 := by omega
  have hk' := Int.emod_nonneg (start + k) hne
  have hl' := Int.emod_nonneg (start + l) hne
  have he : (start + k) % (total : Int) = (start + l) % total := by omega
  rw [Int.emod_eq_emod_iff_emod_sub_eq_zero] at he
  have h0 := Int.eq_zero_of_dvd_of_natAbs_lt_natAbs (Int.dvd_of_emod_eq_zero he) (by omega)
  omega

theorem circle_perm (total : Nat) (start : Int) :
    (circle total start).Perm (List.range total) := by
  have hs : (circle total start).Subperm (List.range total) :=
    (nodup_circle total start).subperm fun i hi => List.mem_range.mpr (lt_of_mem_circle hi)
  exact hs.perm_of_length_le (by simp [length_circle])

/-- The visit begins at the position that it is to begin at. -/
theorem circle_eq_cons {total start : Nat} (h : start < total) :
    ∃ is, circle total start = start :: is := by
  have hs : ((start : Int) + ((0 : Nat) : Int)) % (total : Int) = start := by
    rw [Int.natCast_zero, Int.add_zero, Int.emod_eq_of_lt] <;> omega
  rw [← List.head?_eq_some_iff, circle, List.head?_map, List.head?_range,
    if_neg (Nat.ne_zero_of_lt h), Option.map_some, hs, Int.toNat_natCast]

variable (unknowns : Nat → List String)

theorem redundant_sublist (covered : List String) (is : List Nat) :
    (redundant unknowns covered is).Sublist is := by
  induction is generalizing covered with
  | nil => exact List.Sublist.refl _
  | cons i is ih =>
    rw [redundant]
    split
    · exact (ih covered).cons_cons i
    · exact (ih _).cons i

theorem nodup_redundant (total : Nat) (start : Int) :
    (redundant unknowns [] (circle total start)).Nodup :=
  (redundant_sublist unknowns [] _).nodup (nodup_circle total start)

/-- A variable of an equation that is visited is covered or occurs in an equation that is kept. -/
theorem exists_kept_of_mem (covered : List String) {is : List Nat} (hn : is.Nodup) {i : Nat}
    (hi : i ∈ is) {v : String} (hv : v ∈ unknowns i) :
    v ∈ covered ∨ ∃ j ∈ is, j ∉ redundant unknowns covered is ∧ v ∈ unknowns j := by
  induction is generalizing covered with
  | nil => simp at hi
  | cons j is ih =>
    obtain ⟨hj, hn⟩ := List.nodup_cons.mp hn
    rw [redundant]
    split
    next hall =>
      have hcov : ∀ v ∈ unknowns j, v ∈ covered := by simpa using hall
      obtain rfl | hi := List.mem_cons.mp hi
      · exact .inl (hcov v hv)
      · obtain h | ⟨k, hk, hkr, hkv⟩ := ih covered hn hi
        · exact .inl h
        · have hkj : k ≠ j := fun he => hj (he ▸ hk)
          exact .inr ⟨k, by simp [hk], by simp [hkj, hkr], hkv⟩
    next hall =>
      have hjr : j ∉ redundant unknowns (covered ++ unknowns j) is :=
        fun h => hj ((redundant_sublist unknowns _ is).subset h)
      have hkeep : v ∈ unknowns j → ∃ k ∈ j :: is,
          k ∉ redundant unknowns (covered ++ unknowns j) is ∧ v ∈ unknowns k :=
        fun h => ⟨j, by simp, hjr, h⟩
      obtain rfl | hi := List.mem_cons.mp hi
      · exact .inr (hkeep hv)
      · obtain h | ⟨k, hk, hkr, hkv⟩ := ih (covered ++ unknowns j) hn hi
        · exact (List.mem_append.mp h).imp id hkeep
        · exact .inr ⟨k, by simp [hk], hkr, hkv⟩

/-- Each equation that is kept takes a variable that was not covered, so no more are kept than there
are such variables. -/
theorem length_le_redundant {names : List String} {is : List Nat}
    (hnames : ∀ i ∈ is, unknowns i ⊆ names) (covered : List String) :
    is.length ≤ (redundant unknowns covered is).length +
      (names.filter fun v => v ∉ covered).length := by
  induction is generalizing covered with
  | nil => simp
  | cons i is ih =>
    have ih := ih fun j hj => hnames j (by simp [hj])
    rw [redundant]
    split
    next =>
      have := ih covered
      simp only [List.length_cons]
      omega
    next hall =>
      obtain ⟨v, hv, hc⟩ : ∃ v ∈ unknowns i, v ∉ covered := by simpa using hall
      have hmem : v ∈ names.filter fun v => v ∉ covered := by
        simp [hnames i (by simp) hv, hc]
      have hsub : (names.filter fun v => v ∉ covered ++ unknowns i).length <
          (names.filter fun v => v ∉ covered).length := by
        have he : (names.filter fun v => v ∉ covered ++ unknowns i) =
            (names.filter fun v => v ∉ covered).filter fun v => v ∉ unknowns i := by
          simp [List.filter_filter, Bool.and_comm]
        rw [he, List.length_filter_lt_length_iff_exists]
        exact ⟨v, hmem, by simpa using hv⟩
      have := ih (covered ++ unknowns i)
      simp only [List.length_cons]
      omega

end Simultaneous.Reduction
