import Simultaneous.Matrix.Basic
import Simultaneous.Proofs.Attempt

/-!
The sizes of matrices. Operations on matrices of fitting sizes do not fail, and give matrices of the
sizes they should.
-/

namespace Simultaneous.Matrix

variable {α : Type}

/-- A list of `r` rows of `c` entries each. -/
structure IsGrid (cells : List (List α)) (r c : Nat) : Prop where
  length_cells : cells.length = r
  length_row : ∀ row ∈ cells, row.length = c

/-- A well-formed matrix of `r` rows and `c` columns. -/
structure HasShape (m : Matrix α) (r c : Nat) : Prop extends m.WellFormed where
  rows_eq : m.rows = r
  cols_eq : m.cols = c

variable {r c n w : Nat}

theorem HasShape.isGrid {m : Matrix α} (h : m.HasShape r c) : IsGrid m.cells r c :=
  ⟨h.length_cells.trans h.rows_eq, fun row hrow => (h.length_row row hrow).trans h.cols_eq⟩

theorem IsGrid.hasShape {cells : List (List α)} (h : IsGrid cells r c) (hr : 0 < r) (hc : 0 < c) :
    HasShape ⟨r, c, cells⟩ r c :=
  ⟨⟨hr, hc, h.length_cells, h.length_row⟩, rfl, rfl⟩

theorem HasShape.withCells {m : Matrix α} (h : m.HasShape r c) {cells : List (List α)}
    (hg : IsGrid cells r c) : HasShape { m with cells } r c := by
  obtain ⟨rows, cols, old⟩ := m
  obtain ⟨hw, rfl, rfl⟩ := h
  exact hg.hasShape hw.rows_pos hw.cols_pos

theorem filled_eq_ok (hr : 0 < r) (hc : 0 < c) (x : α) :
    filled r c x = .ok (replicate r c x) := if_pos ⟨hr, hc⟩

theorem isGrid_column (xs : List α) : IsGrid (xs.map fun x => [x]) xs.length 1 := by
  refine ⟨List.length_map _, fun row h => ?_⟩
  obtain ⟨x, -, rfl⟩ := List.mem_map.mp h
  rfl

theorem firstColumn_column (rows : Nat) (xs : List α) :
    firstColumn ⟨rows, 1, xs.map fun x => [x]⟩ = xs := by
  rw [firstColumn, List.filterMap_map]
  exact List.filterMap_some

theorem length_firstColumn {m : Matrix α} (h : m.HasShape r c) : m.firstColumn.length = r := by
  have hc : 0 < c := h.cols_eq ▸ h.cols_pos
  obtain ⟨hl, hrow⟩ := h.isGrid
  rw [firstColumn, ← hl]
  generalize m.cells = cells at hrow
  clear hl
  induction cells with
  | nil => rfl
  | cons row rows ih =>
    obtain _ | ⟨x, xs⟩ := row
    · have := hrow [] (by simp)
      simp only [List.length_nil] at this
      omega
    · have ih := ih fun row h => hrow row (by simp [h])
      simp [ih]

theorem isGrid_zipWith {f : List α → List α → List α} {as bs : List (List α)} {u v : Nat}
    (ha : IsGrid as r u) (hb : IsGrid bs r v)
    (hf : ∀ a b, a.length = u → b.length = v → (f a b).length = w) :
    IsGrid (as.zipWith f bs) r w := by
  refine ⟨by rw [List.length_zipWith, ha.length_cells, hb.length_cells, Nat.min_self], ?_⟩
  intro row hrow
  rw [← List.map_uncurry_zip_eq_zipWith] at hrow
  obtain ⟨⟨a, b⟩, hab, rfl⟩ := List.mem_map.mp hrow
  exact hf a b (ha.length_row a (List.of_mem_zip hab).1) (hb.length_row b (List.of_mem_zip hab).2)

theorem isGrid_map {f : List α → List α} {as : List (List α)} (ha : IsGrid as r c)
    (hf : ∀ a, a.length = c → (f a).length = w) : IsGrid (as.map f) r w := by
  refine ⟨by rw [List.length_map, ha.length_cells], fun row hrow => ?_⟩
  obtain ⟨a, ha', rfl⟩ := List.mem_map.mp hrow
  exact hf a (ha.length_row a ha')

theorem combine_eq_ok {f : α → α → α} {a b : Matrix α} (ha : a.HasShape r c)
    (hb : b.HasShape r c) : ∃ d, combine f a b = .ok d ∧ d.HasShape r c := by
  have hs : requireSameShape a b = .ok () := by
    rw [requireSameShape, ha.rows_eq, hb.rows_eq, ha.cols_eq, hb.cols_eq]
    simp
  have hg : IsGrid (a.cells.zipWith (List.zipWith f) b.cells) r c :=
    isGrid_zipWith ha.isGrid hb.isGrid fun x y hx hy => by
      rw [List.length_zipWith, hx, hy, Nat.min_self]
  refine ⟨_, Attempt.bind_eq_ok.mpr ⟨(), hs, rfl⟩, ?_⟩
  exact ha.withCells hg

theorem combine_eq_error {f : α → α → α} {a b : Matrix α} {e : Failure}
    (h : combine f a b = .error e) : ∃ reason, e = .matrix reason false := by
  obtain h | ⟨-, -, h⟩ := Attempt.bind_eq_error.mp h
  · rw [requireSameShape] at h
    split at h
    · cases h
      exact ⟨_, rfl⟩
    · split at h <;> cases h
      exact ⟨_, rfl⟩
  · cases h

theorem setCell_hasShape {m : Matrix α} (h : m.HasShape r c) (i j : Nat) (x : α) :
    (m.setCell i j x).HasShape r c := by
  refine h.withCells ⟨(List.length_modify ..).trans h.isGrid.length_cells, fun row hrow => ?_⟩
  obtain ⟨k, hk⟩ := List.mem_iff_getElem?.mp hrow
  rw [List.getElem?_modify] at hk
  obtain ⟨old, hold, rfl⟩ := Option.map_eq_some_iff.mp hk
  have hlength := h.isGrid.length_row old (List.mem_of_getElem? hold)
  split
  · rwa [List.length_set]
  · exact hlength

section

variable {ε : Type} {f : α → Except ε α}

theorem replaceCells_cons (f : α → Except ε α) (x : α) (xs : List α) :
    replaceCells f (x :: xs) = match f x with
      | .error e => (x :: xs, some e)
      | .ok y =>
        let (ys, e) := replaceCells f xs
        (y :: ys, e) := rfl

theorem replaceRows_cons (f : α → Except ε α) (row : List α) (rows : List (List α)) :
    replaceRows f (row :: rows) = match replaceCells f row with
      | (row, some e) => (row :: rows, some e)
      | (row, none) =>
        let (rows, e) := replaceRows f rows
        (row :: rows, e) := rfl

theorem length_replaceCells (f : α → Except ε α) (xs : List α) :
    (replaceCells f xs).1.length = xs.length := by
  induction xs with
  | nil => rfl
  | cons x xs ih =>
    rw [replaceCells_cons]
    split
    · rfl
    · simpa using ih

theorem isGrid_replaceRows {rows : List (List α)} (h : IsGrid rows r c) :
    IsGrid (replaceRows f rows).1 r c := by
  obtain ⟨rfl, hrow⟩ := h
  induction rows with
  | nil => exact ⟨rfl, hrow⟩
  | cons row rows ih =>
    have hlen := length_replaceCells f row
    rw [hrow row (by simp)] at hlen
    rw [replaceRows_cons]
    split
    next row' e he =>
      rw [he] at hlen
      refine ⟨by simp, fun x hx => ?_⟩
      obtain rfl | hx := List.mem_cons.mp hx
      · exact hlen
      · exact hrow x (by simp [hx])
    next row' he =>
      rw [he] at hlen
      obtain ⟨hl, hr⟩ := ih fun x hx => hrow x (by simp [hx])
      refine ⟨by simpa using hl, fun x hx => ?_⟩
      obtain rfl | hx := List.mem_cons.mp hx
      · exact hlen
      · exact hr x hx

theorem replaceAll_hasShape {m : Matrix α} (h : m.HasShape r c) :
    (m.replaceAll f).1.HasShape r c := h.withCells (isGrid_replaceRows h.isGrid)

theorem replaceCells_eq_some {xs : List α} {e : ε} (h : (replaceCells f xs).2 = some e) :
    ∃ x, f x = .error e := by
  induction xs with
  | nil => cases h
  | cons x xs ih =>
    rw [replaceCells_cons] at h
    split at h
    next he => cases h; exact ⟨x, he⟩
    next => exact ih h

theorem replaceRows_eq_some {rows : List (List α)} {e : ε} (h : (replaceRows f rows).2 = some e) :
    ∃ x, f x = .error e := by
  induction rows with
  | nil => cases h
  | cons row rows ih =>
    rw [replaceRows_cons] at h
    split at h
    next he => cases h; exact replaceCells_eq_some (congrArg Prod.snd he)
    next => exact ih h

end

section

variable [Scalar α]

theorem toFixed_hasShape (places : Int) {m : Matrix α} (h : m.HasShape r c) :
    (m.toFixed places).1.HasShape r c := replaceAll_hasShape h

theorem toFixed_eq_some {places : Int} {m : Matrix α} {f : Failure}
    (h : (m.toFixed places).2 = some f) :
    f = .broken .roundedTooLarge ∧ ∃ x : α, Scalar.rounded? places x = none := by
  obtain ⟨x, hx⟩ := replaceRows_eq_some h
  rw [roundCell] at hx
  split at hx
  · cases hx
  next hnone => cases hx; exact ⟨rfl, x, hnone⟩

theorem sub_eq_ok {a b : Matrix α} (ha : a.HasShape r c) (hb : b.HasShape r c) :
    ∃ d, a.sub b = .ok d ∧ d.HasShape r c := combine_eq_ok ha hb

theorem mul_eq_ok {a b : Matrix α} (ha : a.HasShape r n) (hb : b.HasShape n c) :
    ∃ d, a.mul b = .ok d ∧ d.HasShape r c := by
  obtain ⟨ar, ac, as⟩ := a
  obtain ⟨br, bc, bs⟩ := b
  obtain ⟨ha', rfl, rfl⟩ := ha
  obtain ⟨hb', rfl, rfl⟩ := hb
  refine ⟨_, if_neg (by simp), ?_⟩
  have hg : IsGrid (as.map fun row => (columnsOf bc bs).map (dot row)) ar bc :=
    isGrid_map ⟨ha'.length_cells, ha'.length_row⟩ fun _ _ => by simp [columnsOf]
  exact hg.hasShape ha'.rows_pos hb'.cols_pos

end

end Simultaneous.Matrix
