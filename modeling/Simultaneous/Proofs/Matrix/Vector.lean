import Simultaneous.Proofs.Matrix.Exact

/-!
Columns of rational numbers, by their coordinates.
-/

namespace Simultaneous.Matrix

open Attempt

variable {n : Nat} {f g : Nat → ℚ}

/-- The column of the first `n` numbers. -/
def vector (n : Nat) (f : Nat → ℚ) : Matrix ℚ := ⟨n, 1, (List.range n).map fun i => [f i]⟩

theorem isGrid_vector (n : Nat) (f : Nat → ℚ) : IsGrid (vector n f).cells n 1 := by
  refine ⟨by simp [vector], fun row hrow => ?_⟩
  obtain ⟨i, -, rfl⟩ := List.mem_map.mp hrow
  rfl

theorem hasShape_vector (hn : 0 < n) (f : Nat → ℚ) : (vector n f).HasShape n 1 :=
  (isGrid_vector n f).hasShape hn Nat.one_pos

theorem entry_vector {i : Nat} (hi : i < n) : entry (vector n f).cells i 0 = f i := by
  rw [entry, vector, getD_map_range _ _ hi]
  rfl

theorem vector_congr (h : ∀ i < n, f i = g i) : vector n f = vector n g := by
  rw [vector, List.map_congr_left fun i hi => by rw [h i (List.mem_range.mp hi)], ← vector]

theorem vector_inj : vector n f = vector n g ↔ ∀ i < n, f i = g i := by
  refine ⟨fun h i hi => ?_, vector_congr⟩
  rw [← entry_vector (f := f) hi, h, entry_vector hi]

theorem HasShape.eq_vector {x : Matrix ℚ} (h : x.HasShape n 1) :
    x = vector n fun i => entry x.cells i 0 := by
  obtain ⟨rows, cols, cells⟩ := x
  obtain rfl : rows = n := h.rows_eq
  obtain rfl : cols = 1 := h.cols_eq
  have hcells : cells = (vector rows fun i => entry cells i 0).cells :=
    h.isGrid.ext (isGrid_vector _ _) fun i hi j hj => by
      obtain rfl : j = 0 := by omega
      rw [entry_vector hi]
  exact congrArg (Matrix.mk rows 1) hcells

theorem firstColumn_vector (n : Nat) (f : Nat → ℚ) :
    (vector n f).firstColumn = (List.range n).map f := by
  have := firstColumn_column n ((List.range n).map f)
  rwa [List.map_map] at this

theorem mul_vector {b : Matrix ℚ} (hb : b.HasShape n n) (f : Nat → ℚ) :
    b.mul (vector n f) =
      .ok (vector n fun i => ∑ k ∈ Finset.range n, entry b.cells i k * f k) := by
  have hn : 0 < n := hb.rows_eq ▸ hb.rows_pos
  obtain ⟨x, hx, hshape, hentry⟩ := mul_eq hb (hasShape_vector hn f)
  rw [hx, hshape.eq_vector]
  congr 1
  refine vector_congr fun i hi => ?_
  rw [hentry i hi 0 Nat.one_pos]
  exact Finset.sum_congr rfl fun k hk => by rw [entry_vector (Finset.mem_range.mp hk)]

theorem sub_vector (n : Nat) (f g : Nat → ℚ) :
    (vector n f).sub (vector n g) = .ok (vector n fun i => f i - g i) := by
  have hcells : (vector n f).cells.zipWith (List.zipWith (· - ·)) (vector n g).cells =
      (vector n fun i => f i - g i).cells := by
    rw [vector, vector, List.zipWith_map, List.zipWith_self]
    rfl
  rw [sub, combine, requireSameShape, if_neg (by simp [vector]), if_neg (by simp [vector]), ok_bind,
    hcells]
  rfl

/-- Every rational number can be rounded. -/
theorem toFixed_snd (places : Int) (m : Matrix ℚ) : (m.toFixed places).2 = none := by
  rw [← Option.not_isSome_iff_eq_none, Option.isSome_iff_exists]
  rintro ⟨e, he⟩
  obtain ⟨x, hx⟩ := replaceRows_eq_some he
  cases hx

end Simultaneous.Matrix
