import Mathlib.Data.List.GetD
import Mathlib.Logic.Equiv.Basic
import Simultaneous.Proofs.Matrix.Elimination

/-!
Grids by their entries. A grid is determined by its entries, and each operation on grids is known by
what it makes of them.
-/

namespace Simultaneous.Matrix

section

variable {α : Type} {g : List (List α)} {n w i : Nat}

theorem IsGrid.length_getD (hg : IsGrid g n w) (hi : i < n) : (g.getD i []).length = w := by
  rw [List.getD_eq_getElem g [] (hg.length_cells.symm ▸ hi)]
  exact hg.length_row _ (List.getElem_mem _)

theorem getD_swapRows {k l : Nat} (hk : k < g.length) (hl : l < g.length) (hi : i < g.length) :
    (swapRows k l g).getD i [] = g.getD (Equiv.swap k l i) [] := by
  rw [swapRows, List.getD_eq_getElem?_getD, List.getElem?_set, List.length_set]
  by_cases hil : l = i
  · subst hil
    rw [if_pos rfl, if_pos hl, Equiv.swap_apply_right, Option.getD_some]
  · rw [if_neg hil, List.getElem?_set]
    by_cases hik : k = i
    · subst hik
      rw [if_pos rfl, if_pos hk, Equiv.swap_apply_left, Option.getD_some]
    · rw [if_neg hik, Equiv.swap_apply_of_ne_of_ne (Ne.symm hik) (Ne.symm hil),
        List.getD_eq_getElem?_getD]

theorem swap_lt {k l : Nat} (hk : k < n) (hl : l < n) (hi : i < n) : Equiv.swap k l i < n := by
  rw [Equiv.swap_apply_def]
  split
  · exact hl
  · split
    · exact hk
    · exact hi

end

section

variable {α : Type} [Scalar α] {g h : List (List α)} {n w i j : Nat}

theorem IsGrid.ext (hg : IsGrid g n w) (hh : IsGrid h n w)
    (heq : ∀ i < n, ∀ j < w, entry g i j = entry h i j) : g = h := by
  refine List.ext_getElem (hg.length_cells.trans hh.length_cells.symm) fun i hig hih => ?_
  have hi : i < n := hg.length_cells ▸ hig
  refine List.ext_getElem ?_ fun j hjg hjh => ?_
  · rw [hg.length_row _ (List.getElem_mem hig), hh.length_row _ (List.getElem_mem hih)]
  · have hj : j < w := hg.length_row _ (List.getElem_mem hig) ▸ hjg
    have := heq i hi j hj
    rwa [entry, entry, List.getD_eq_getElem g [] hig, List.getD_eq_getElem h [] hih,
      List.getD_eq_getElem _ _ hjg, List.getD_eq_getElem _ _ hjh] at this

theorem getD_map_range {β : Type} (f : Nat → β) (d : β) (hi : i < n) :
    ((List.range n).map f).getD i d = f i := by
  rw [List.getD_eq_getElem _ _ (by simpa using hi), List.getElem_map, List.getElem_range]

theorem IsGrid.eq_map_range (hg : IsGrid g n w) :
    g = (List.range n).map fun i => (List.range w).map (entry g i) := by
  have hgrid : IsGrid ((List.range n).map fun i => (List.range w).map (entry g i)) n w := by
    refine ⟨by simp, fun row hrow => ?_⟩
    obtain ⟨i, -, rfl⟩ := List.mem_map.mp hrow
    simp
  exact (hgrid.ext hg fun i hi j hj => by
    rw [entry, getD_map_range _ _ hi, getD_map_range _ _ hj]).symm

theorem entry_map {f : List α → List α} (hi : i < g.length) :
    entry (g.map f) i j = (f (g.getD i [])).getD j 0 := by
  rw [entry, List.getD_eq_getElem _ [] (by simpa using hi), List.getElem_map,
    List.getD_eq_getElem g [] hi]

theorem entry_mapIdx {f : Nat → List α → List α} (hi : i < g.length) :
    entry (g.mapIdx f) i j = (f i (g.getD i [])).getD j 0 := by
  rw [entry, List.getD_eq_getElem _ [] (by simpa using hi), List.getElem_mapIdx,
    List.getD_eq_getElem g [] hi]

theorem entry_diagonal (hi : i < n) (hj : j < n) :
    entry (diagonal n : List (List α)) i j = if i = j then 1 else 0 := by
  rw [entry, diagonal, getD_map_range _ _ hi, getD_map_range _ _ hj]

theorem getD_augmented {a : Matrix α} (ha : a.HasShape n n) (hi : i < n) :
    (augmented a).getD i [] =
      a.cells.getD i [] ++ (List.range n).map fun j => if i = j then 1 else 0 := by
  have hcells : i < a.cells.length := ha.isGrid.length_cells.symm ▸ hi
  have hdiagonal : i < (diagonal a.rows : List (List α)).length := by
    simpa [diagonal, ha.rows_eq] using hi
  have hrow : i < (augmented a).length := by
    rw [augmented, List.length_zipWith]
    exact Nat.lt_min.mpr ⟨hcells, hdiagonal⟩
  rw [List.getD_eq_getElem _ [] hrow, List.getD_eq_getElem _ [] hcells]
  simp [augmented, diagonal, ha.rows_eq]

theorem entry_augmented_left {a : Matrix α} (ha : a.HasShape n n) (hi : i < n) (hj : j < n) :
    entry (augmented a) i j = entry a.cells i j := by
  have hl := ha.isGrid.length_getD hi
  rw [entry, getD_augmented ha hi, List.getD_append _ _ _ _ (hl.symm ▸ hj), entry]

theorem entry_augmented_right {a : Matrix α} (ha : a.HasShape n n) (hi : i < n) (hj : j < n) :
    entry (augmented a) i (n + j) = if i = j then 1 else 0 := by
  have hl := ha.isGrid.length_getD hi
  rw [entry, getD_augmented ha hi, List.getD_append_right _ _ _ _ (by omega), hl,
    Nat.add_sub_cancel_left, getD_map_range _ _ hj]

end

end Simultaneous.Matrix
