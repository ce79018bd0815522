import Simultaneous.Matrix.Given
import Simultaneous.Proofs.Matrix.Shape

/-!
What matrices made of data come to. Data that are no table of numbers are reported; what escapes is
an integer beyond the doubles as a cell, or a literal with too many lists inside each other.
-/

namespace Simultaneous.Matrix

open Attempt

variable {v : Literal}

theorem toFloat_eq_tooLarge (h : v.toFloat = .error .tooLarge) :
    ∃ n, v = .int n ∧ Decimal.ofInt? n = none := by
  unfold Literal.toFloat at h
  split at h
  next => cases h
  next n =>
    split at h
    · cases h
    next hnone => exact ⟨n, rfl, hnone⟩
  next => cases h
  next => split at h <;> cases h
  next => cases h

theorem cellValue_eq_ok {x : Float} : cellValue v = .ok x ↔ v.toFloat = .ok x := by
  unfold cellValue
  split
  next y h => rw [h, Except.ok.injEq, Except.ok.injEq]
  next h => simp [h]
  next h => simp [h, fault]

theorem cellValue_ensures (v : Literal) : Ensures (fun _ => True)
    (fun f => (∃ m, f = .matrix m false) ∨
      f = .broken (.notFloat .tooLarge) ∧ ∃ n, v = .int n ∧ Decimal.ofInt? n = none)
    (cellValue v) := by
  unfold cellValue
  split
  · exact .ok trivial
  next h => exact .error (.inr ⟨rfl, toFloat_eq_tooLarge h⟩)
  · exact .error (.inl ⟨_, rfl⟩)

/-- A table has rows, all of one length and none of them empty. -/
def IsTable {α : Type} (cells : List (List α)) : Prop := ∃ r c, 0 < r ∧ 0 < c ∧ IsGrid cells r c

theorem WellFormed.isTable {α : Type} {m : Matrix α} (h : m.WellFormed) : IsTable m.cells :=
  ⟨m.rows, m.cols, h.rows_pos, h.cols_pos, h.length_cells, h.length_row⟩

theorem IsTable.wellFormed {α : Type} {cells : List (List α)} (h : IsTable cells) :
    WellFormed ⟨cells.length, (cells.headD []).length, cells⟩ := by
  obtain ⟨r, c, hr, hc, hgrid⟩ := h
  obtain _ | ⟨first, rest⟩ := cells
  · exact absurd hgrid.length_cells (Nat.ne_of_lt hr)
  · have hfirst : first.length = c := hgrid.length_row first List.mem_cons_self
    refine ⟨Nat.succ_pos _, hfirst ▸ hc, rfl, fun row hrow => ?_⟩
    exact (hgrid.length_row row hrow).trans hfirst.symm

theorem gridOf_ensures (v : Literal) :
    Ensures IsTable (fun f => ∃ m, f = .matrix m false) (gridOf v) := by
  unfold gridOf
  split
  · exact .error ⟨_, rfl⟩
  next first rest =>
    split
    · exact .error ⟨_, rfl⟩
    next cells hne =>
      have hrow : ∀ row ∈ .list cells :: rest, Ensures (fun r => r.length = cells.length)
          (fun f => ∃ m, f = .matrix m false) (rowCells cells.length row) := by
        intro row _
        unfold rowCells
        split
        · split
          next hlength => exact .ok hlength
          next => exact .error ⟨_, rfl⟩
        · exact .error ⟨_, rfl⟩
      refine (Ensures.mapM hrow).imp ?_ fun _ h => h
      rintro grid ⟨hlength, hrows⟩
      refine ⟨grid.length, cells.length, ?_, ?_, rfl, hrows⟩
      · rw [hlength]
        exact Nat.succ_pos _
      · exact List.length_pos_of_ne_nil hne
    · exact .error ⟨_, rfl⟩
  · exact .error ⟨_, rfl⟩

/-- Rows of data in which the first cell that is no double is an integer beyond the doubles. -/
def HasHugeCell (v : Literal) : Prop :=
  ∃ grid, gridOf v = .ok grid ∧ ∃ before n after, grid.flatten = before ++ .int n :: after ∧
    (∀ w ∈ before, ∃ x, w.toFloat = .ok x) ∧ Decimal.ofInt? n = none

theorem HasHugeCell.ofLiteral_eq (h : HasHugeCell v) :
    ofLiteral v = .error (.broken (.notFloat .tooLarge)) := by
  obtain ⟨grid, hgrid, before, n, after, hsplit, hbefore, hn⟩ := h
  have hcell : cellValue (.int n) = .error (.broken (.notFloat .tooLarge)) := by
    rw [cellValue, Literal.toFloat, hn]
  have hcells : grid.mapM (fun row => row.mapM cellValue) =
      .error (.broken (.notFloat .tooLarge)) := by
    refine mapM_mapM_eq_error.mpr (mapM_eq_error.mpr ⟨before, _, after, hsplit, ?_, hcell⟩)
    exact fun w hw => (hbefore w hw).imp fun x hx => cellValue_eq_ok.mpr hx
  rw [ofLiteral, hgrid, ok_bind, hcells, error_bind]

theorem ofLiteral_ensures (v : Literal) : Ensures WellFormed
    (fun f => (∃ m, f = .matrix m false) ∨ f = .broken (.notFloat .tooLarge) ∧ HasHugeCell v)
    (ofLiteral v) := by
  rw [ofLiteral]
  have hgrid := gridOf_ensures v
  cases hv : gridOf v with
  | error f =>
    rw [hv] at hgrid
    exact .error (.inl (hgrid.of_eq_error rfl))
  | ok grid =>
    rw [hv] at hgrid
    obtain ⟨r, c, hr, hc, hlength, hrow⟩ := hgrid.of_eq_ok rfl
    rw [ok_bind]
    -- The cells are read one after the other, so the first one that is no double decides.
    cases hcells : grid.mapM (fun row => row.mapM cellValue) with
    | error f =>
      obtain ⟨before, w, after, hsplit, hbefore, hw⟩ :=
        mapM_eq_error.mp (mapM_mapM_eq_error.mp hcells)
      obtain h | ⟨rfl, n, rfl, hn⟩ := (cellValue_ensures w).of_eq_error hw
      · exact .error (.inl h)
      · refine .error (.inr ⟨rfl, grid, hv, before, n, after, hsplit, fun w hw => ?_, hn⟩)
        exact (hbefore w hw).imp fun x hx => cellValue_eq_ok.mp hx
    | ok cells =>
      have hrows := mapM_eq_ok hcells
      have hcols : ∀ xs ∈ cells, xs.length = c := by
        intro xs hxs
        obtain ⟨row, hmem, hread⟩ := exists_of_mem_mapM hcells hxs
        exact (mapM_eq_ok hread).length_eq.symm.trans (hrow row hmem)
      have htable : IsTable cells := ⟨r, c, hr, hc, hrows.length_eq.symm.trans hlength, hcols⟩
      exact .ok htable.wellFormed

/-- What escapes of reading an operand: an integer beyond the doubles as a cell, given or written,
or a written literal with too many lists or records inside each other. -/
inductive Escapes : Literal → Breakage → Prop
  | hugeCell {v : Literal} (huge : HasHugeCell v) : Escapes v (.notFloat .tooLarge)
  | writtenHugeCell {s : String} {v : Literal} (nonblank : Text.trim s.toList ≠ [])
      (read_eq : Literal.read (flattened s) = .ok v) (huge : HasHugeCell v) :
      Escapes (.str s) (.notFloat .tooLarge)
  | nestedTooDeep {s : String} {m : Literal.Misread} {during : String}
      (nonblank : Text.trim s.toList ≠ []) (read_eq : Literal.read (flattened s) = .error m)
      (fault_eq : m.fault = .nestedTooDeep during) : Escapes (.str s) (.nestedTooDeep during)

/-- How the reading of an operand fails: with a reported fault, or with what escapes. -/
inductive Unread (v : Literal) : Failure → Prop
  | fault (m : MatrixFault) : Unread v (.matrix m false)
  | broken {reason : Breakage} (escapes : Escapes v reason) : Unread v (.broken reason)

theorem parse_eq_ofLiteral {s : String} {v : Literal} (hs : Text.trim s.toList ≠ [])
    (hread : Literal.read (flattened s) = .ok v) : parse s = ofLiteral v := by
  rw [parse, if_neg (by simpa using hs)]
  simp only [hread]

theorem parse_nestedTooDeep {s : String} {m : Literal.Misread} {during : String}
    (hs : Text.trim s.toList ≠ []) (hread : Literal.read (flattened s) = .error m)
    (hfault : m.fault = .nestedTooDeep during) :
    parse s = .error (.broken (.nestedTooDeep during)) := by
  rw [parse, if_neg (by simpa using hs)]
  simp only [hread, hfault]

theorem parse_ensures (s : String) : Ensures WellFormed (Unread (.str s)) (parse s) := by
  by_cases hs : Text.trim s.toList = []
  · rw [parse, if_pos (List.isEmpty_iff.mpr hs)]
    exact .error (.fault _)
  cases hread : Literal.read (flattened s) with
  | ok v =>
    rw [parse_eq_ofLiteral hs hread]
    refine (ofLiteral_ensures v).imp (fun _ h => h) fun f h => ?_
    obtain ⟨m, rfl⟩ | ⟨rfl, huge⟩ := h
    · exact .fault m
    · exact .broken (.writtenHugeCell hs hread huge)
  | error m =>
    rw [parse, if_neg (by simpa using hs)]
    simp only [hread]
    split
    next during hfault => exact .error (.broken (.nestedTooDeep hs hread hfault))
    next => exact .error (.fault _)

end Simultaneous.Matrix
