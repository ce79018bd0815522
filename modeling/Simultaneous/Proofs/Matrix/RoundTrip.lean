import Simultaneous.Matrix.Text
import Simultaneous.Proofs.Attempt
import Simultaneous.Proofs.Double.Classes
import Simultaneous.Proofs.Literal.Brief
import Simultaneous.Proofs.Literal.Reading
import Simultaneous.Proofs.Text.Trimming

/-!
The literal of a matrix reads back as the matrix: cell by cell, row by row, and as a whole.
-/

namespace Simultaneous.Matrix

open Text Decimal Literal

/-- The text of a cell in a literal without a precision. -/
def cellText (x : Float) : String :=
  if x.isNaN then "NaN"
  else if x.isInf then (if 0 < x then "Infinity" else "-Infinity")
  else brief x

theorem literalCell_null (x : Float) : literalCell .null x = .ok (cellText x) := by
  rw [literalCell, cellText]
  split
  · rfl
  split <;> rfl

/-- The literal of rows of cells. -/
def rowsText (rows : List (List Float)) : String :=
  bracketed (rows.map fun row => bracketed (row.map cellText))

theorem literalText_null (m : Matrix Float) : m.literalText .null = .ok (rowsText m.cells) := by
  have hrow (row : List Float) : row.mapM (literalCell .null) = .ok (row.map cellText) := by
    rw [show literalCell .null = fun x => .ok (cellText x) from funext literalCell_null]
    exact List.mapM_pure
  rw [literalText, show (fun row => row.mapM (literalCell .null)) =
    fun row : List Float => .ok (row.map cellText) from funext hrow]
  have hrows : m.cells.mapM (fun row : List Float => (.ok (row.map cellText) : Attempt _)) =
      .ok (m.cells.map fun row => row.map cellText) := List.mapM_pure
  rw [hrows]
  simp [rowsText, List.map_map]
  rfl

theorem toList_bracketed (parts : List String) :
    (bracketed parts).toList = listChars (parts.map String.toList) := by
  rw [bracketed, join, String.toList_append, String.toList_append, String.toList_intercalate]
  rfl

/-- What reads back as a double that agrees with the given one. -/
structure ReadsBack (x : Float) (s : List Char) (v : Literal) (y : Float) : Prop where
  isItem : IsItem s
  reads : ∀ depth, Reads 1 depth s v
  toFloat_eq : v.toFloat = .ok y
  agrees : Agrees x y
  oneLine : ∀ c ∈ s, c ≠ '\r' ∧ c ≠ '\n'

theorem readsBack_name {x y : Float} {name : List Char}
    (h : (name, y) ∈ [("NaN".toList, 0.0 / 0.0), ("Infinity".toList, infinity false),
      ("-Infinity".toList, infinity true)]) (hxy : Agrees x y) :
    ReadsBack x name (.float y) y where
  isItem := (reads_name h 0).1
  reads depth := (reads_name h depth).2
  toFloat_eq := rfl
  agrees := hxy
  oneLine := by
    have hnames : ∀ name ∈ ["NaN".toList, "Infinity".toList, "-Infinity".toList],
        ∀ c ∈ name, c ≠ '\r' ∧ c ≠ '\n' := by simp
    refine hnames name ?_
    simp only [List.mem_cons, List.not_mem_nil, or_false, Prod.mk.injEq] at h ⊢
    obtain ⟨rfl, -⟩ | ⟨rfl, -⟩ | ⟨rfl, -⟩ := h <;> simp

theorem oneLine_numeral {w : Numeral} (hw : w.Valid) (neg : Bool) :
    ∀ c ∈ Numeral.signChars neg ++ w.chars, c ≠ '\r' ∧ c ≠ '\n' := by
  have hdigit {c : Char} (hc : isAsciiDigit c = true) : c ≠ '\r' ∧ c ≠ '\n' :=
    ⟨ne_of_digit hc _ rfl, ne_of_digit hc _ rfl⟩
  intro c hc
  have hparts : c ∈ Numeral.signChars neg ∨ c ∈ w.whole ∨ c ∈ w.fracChars ∨ c ∈ w.expoChars := by
    simpa [Numeral.chars] using hc
  obtain hc | hc | hc | hc := hparts
  · cases neg <;> simp [Numeral.signChars] at hc
    rw [hc]
    decide
  · exact hdigit (hw.whole_digits c hc)
  · rw [Numeral.fracChars] at hc
    split at hc
    · cases hc
    · obtain rfl | hc := List.mem_cons.mp hc
      · decide
      · exact hdigit (hw.frac_digits c hc)
  · rw [Numeral.expoChars] at hc
    cases hexpo : w.expo with
    | none => rw [hexpo] at hc; cases hc
    | some e =>
      obtain ⟨ds, htext, -, hds, -⟩ := exponentText_toList e
      rw [hexpo, Option.elim_some, htext] at hc
      obtain rfl | hc := List.mem_cons.mp hc
      · decide
      obtain rfl | hc := List.mem_cons.mp hc
      · split <;> decide
      · exact hdigit (hds c hc)

theorem exists_readsBack (x : Float) : ∃ v y, ReadsBack x (cellText x).toList v y := by
  rw [cellText]
  split
  next hnan =>
    have hagrees : Agrees x (0.0 / 0.0) :=
      ⟨by rw [hnan]; decide, fun h => absurd (hnan.symm.trans h) nofun⟩
    exact ⟨_, _, readsBack_name (by simp) hagrees⟩
  next hnan =>
  split
  next hinf =>
    obtain rfl | rfl := eq_infinity_of_isInf hinf
    · rw [if_pos (by decide)]
      exact ⟨_, _, readsBack_name (by simp) (.refl _)⟩
    · rw [if_neg (by decide)]
      exact ⟨_, _, readsBack_name (by simp) (.refl _)⟩
  next hinf =>
    obtain ⟨b, hb⟩ := exists_ofFloat? (by simpa using hnan) (by simpa using hinf)
    obtain ⟨w, y, htext, hw, hy, hxy⟩ := exists_numeral_brief hb
    rw [htext]
    exact ⟨_, y, (reads_numeral hw b.neg 0).1, fun depth => (reads_numeral hw b.neg depth).2, hy,
      hxy, oneLine_numeral hw b.neg⟩

/-- The characters of a row, and of all rows. -/
theorem toList_rowsText (rows : List (List Float)) : (rowsText rows).toList =
    listChars (rows.map fun row => listChars (row.map fun x => (cellText x).toList)) := by
  rw [rowsText, toList_bracketed, List.map_map]
  refine congrArg listChars (List.map_congr_left fun row _ => ?_)
  rw [Function.comp_apply, toList_bracketed, List.map_map]
  rfl

/-- The literal of rows of which the cells read back. -/
theorem reads_rows {rows : List (List Float)} {v : Float → Literal} {y : Float → Float}
    {width : Nat} (hcell : ∀ x, ReadsBack x (cellText x).toList (v x) (y x)) (hne : rows ≠ [])
    (hwidth : 0 < width) (hrows : ∀ row ∈ rows, row.length = width) (depth : Nat) :
    Reads (1 + width + 1 + rows.length + 1) (depth + 1 + 1) (rowsText rows).toList
      (.list (rows.map fun row => .list (row.map v))) := by
  have hrow : ∀ row ∈ rows, Reads (1 + width + 1) (depth + 1)
      (listChars (row.map fun x => (cellText x).toList)) (.list (row.map v)) := by
    intro row hmem
    have hlength := hrows row hmem
    have hcells : row.map (fun x => ((cellText x).toList, v x)) ≠ [] := by
      intro hnil
      rw [List.map_eq_nil_iff.mp hnil] at hlength
      simp at hlength
      omega
    have hitems : ∀ i ∈ row.map (fun x => ((cellText x).toList, v x)),
        IsItem i.1 ∧ Reads 1 depth i.1 i.2 := by
      intro i hi
      obtain ⟨x, -, rfl⟩ := List.mem_map.mp hi
      exact ⟨(hcell x).isItem, (hcell x).reads depth⟩
    have hreads := reads_list hcells hitems
    simpa [List.map_map, Function.comp_def, hlength] using hreads
  have hitems : ∀ i ∈ rows.map (fun row => (listChars (row.map fun x => (cellText x).toList),
      Literal.list (row.map v))), IsItem i.1 ∧ Reads (1 + width + 1) (depth + 1) i.1 i.2 := by
    intro i hi
    obtain ⟨row, hmem, rfl⟩ := List.mem_map.mp hi
    exact ⟨⟨'[', _, rfl, by decide, by decide⟩, hrow row hmem⟩
  have hreads := reads_list (by simpa using hne) hitems
  rw [toList_rowsText]
  simpa [List.map_map, Function.comp_def] using hreads

theorem oneLine_rowsText {rows : List (List Float)}
    (hcell : ∀ x, ∀ c ∈ (cellText x).toList, c ≠ '\r' ∧ c ≠ '\n') :
    ∀ c ∈ (rowsText rows).toList, c ≠ '\r' ∧ c ≠ '\n' := by
  have hlist : ∀ c ∈ ['[', ']', ',', ' '], c ≠ '\r' ∧ c ≠ '\n' :=
    List.all_iff_forall_prop.mp (by decide)
  intro c hc
  rw [toList_rowsText] at hc
  obtain hc | ⟨s, hs, hc⟩ := mem_listChars hc
  · exact hlist c hc
  obtain ⟨row, -, rfl⟩ := List.mem_map.mp hs
  obtain hc | ⟨s, hs, hc⟩ := mem_listChars hc
  · exact hlist c hc
  obtain ⟨x, -, rfl⟩ := List.mem_map.mp hs
  exact hcell x c hc

theorem length_rowsText {rows : List (List Float)} {width : Nat}
    (hcell : ∀ x, 0 < (cellText x).toList.length) (hne : rows ≠ []) (hwidth : 0 < width)
    (hrows : ∀ row ∈ rows, row.length = width) :
    width + rows.length < (rowsText rows).toList.length := by
  obtain ⟨first, rest, rfl⟩ := List.exists_cons_of_ne_nil hne
  have hfirst := hrows first List.mem_cons_self
  obtain ⟨a, as, rfl⟩ := List.exists_cons_of_ne_nil (List.ne_nil_of_length_pos (hfirst ▸ hwidth))
  have hcells : ∀ s ∈ (a :: as).map (fun x => (cellText x).toList), 0 < s.length := by
    simpa using ⟨hcell a, fun x _ => hcell x⟩
  have hlists : ∀ s ∈ ((a :: as) :: rest).map (fun row =>
      listChars (row.map fun x => (cellText x).toList)), 0 < s.length := by
    simp [listChars]
  have hrow := length_listChars hcells _ List.mem_cons_self
  have hall := length_listChars hlists _ List.mem_cons_self
  rw [List.length_map, hfirst] at hrow
  rw [List.length_map] at hall
  rw [toList_rowsText]
  simp only at hrow hall
  omega

theorem flattened_listChars {text : String} {items : List (List Char)}
    (htext : text.toList = listChars items) (hline : ∀ c ∈ text.toList, c ≠ '\r' ∧ c ≠ '\n') :
    flattened text = text.toList ∧ trim text.toList = text.toList := by
  have htrim : trim text.toList = text.toList := by
    have hstart : trimStart text.toList = text.toList := by
      rw [htext]
      rfl
    rw [trim, hstart, htext, listChars, ← List.cons_append, trimEnd_append (by decide)]
  refine ⟨?_, htrim⟩
  rw [flattened, List.filter_eq_self.mpr, htrim]
  intro c hc
  simpa using hline c hc

/-- A list of rows of one length is read cell by cell. -/
theorem ofLiteral_rows {rows : List (List Float)} {v : Float → Literal} {y : Float → Float}
    {width : Nat} (hcell : ∀ x, (v x).toFloat = .ok (y x)) (hne : rows ≠ []) (hwidth : 0 < width)
    (hrows : ∀ row ∈ rows, row.length = width) :
    ofLiteral (.list (rows.map fun row => .list (row.map v))) =
      .ok ⟨rows.length, width, rows.map fun row => row.map y⟩ := by
  obtain ⟨first, rest, rfl⟩ := List.exists_cons_of_ne_nil hne
  have hfirst := hrows first List.mem_cons_self
  have hgrid : gridOf (.list ((first :: rest).map fun row => .list (row.map v))) =
      .ok ((first :: rest).map fun row => row.map v) := by
    obtain ⟨a, as, rfl⟩ := List.exists_cons_of_ne_nil
      (List.ne_nil_of_length_pos (hfirst ▸ hwidth))
    change (((a :: as) :: rest).map fun row => Literal.list (row.map v)).mapM
      (rowCells ((a :: as).map v).length) = _
    refine Attempt.mapM_map_eq_ok fun row hrow => ?_
    rw [rowCells, if_pos]
    rw [List.length_map, List.length_map, hrows row hrow, hfirst]
  have hcells : ((first :: rest).map fun row => row.map v).mapM (fun row => row.mapM cellValue) =
      .ok ((first :: rest).map fun row => row.map y) :=
    Attempt.mapM_map_eq_ok fun row _ => Attempt.mapM_map_eq_ok fun x _ => by rw [cellValue, hcell]
  rw [ofLiteral, hgrid, Attempt.ok_bind, hcells]
  rw [Attempt.ok_bind]
  simp [hfirst]
  rfl

/-- The literal of a matrix is read as a matrix of the same shape with entries that agree. -/
theorem parse_text_agrees (settings : Settings) {m : Matrix Float} (hm : m.WellFormed) :
    ∃ t m', m.text settings true .null = .ok t ∧ parse t = .ok m' ∧ m'.rows = m.rows ∧
      m'.cols = m.cols ∧ List.Forall₂ (List.Forall₂ Agrees) m.cells m'.cells := by
  choose v y hcell using exists_readsBack
  have hne : m.cells ≠ [] := List.ne_nil_of_length_pos (hm.length_cells ▸ hm.rows_pos)
  have hitems := toList_rowsText m.cells
  -- A row and the list of rows take two of the levels that lists may be nested.
  have hreads := reads_rows hcell hne hm.cols_pos hm.length_row 983
  obtain ⟨hflat, htrim⟩ := flattened_listChars hitems
    (oneLine_rowsText fun x => (hcell x).oneLine)
  have hlength := length_rowsText (fun x => by
    obtain ⟨c, s, hs, -⟩ := (hcell x).isItem
    rw [hs]
    exact Nat.succ_pos _) hne hm.cols_pos hm.length_row
  have hread : Literal.read (rowsText m.cells).toList =
      .ok (.list (m.cells.map fun row => .list (row.map v))) := by
    refine read_eq ?_ ?_ fun fuel hfuel => hreads fuel (by omega)
    · rw [hitems]
      exact ⟨'[', _, rfl, by decide, by decide⟩
    · rw [hitems]
      intro c hc
      obtain rfl := Option.some_inj.mp hc
      decide
  refine ⟨rowsText m.cells, ⟨m.cells.length, m.cols, m.cells.map fun row => row.map y⟩,
    literalText_null m, ?_, hm.length_cells, rfl, ?_⟩
  · have hnonempty : (rowsText m.cells).toList.isEmpty = false := by
      rw [hitems]
      rfl
    rw [parse, htrim, hnonempty, if_neg nofun, hflat]
    simp only
    rw [hread]
    exact ofLiteral_rows (fun x => (hcell x).toFloat_eq) hne hm.cols_pos hm.length_row
  · simp only
    rw [List.forall₂_map_right_iff]
    exact List.forall₂_same.mpr fun row _ => by
      rw [List.forall₂_map_right_iff]
      exact List.forall₂_same.mpr fun x _ => (hcell x).agrees

/-- A number that is written with an exponent, and one that is none. -/
theorem parse_text_agrees_mixed :
    (⟨1, 2, [[1e-7, 0.0 / 0.0]]⟩ : Matrix Float).WellFormed ∧
      ∃ t m', text {} true .null ⟨1, 2, [[1e-7, 0.0 / 0.0]]⟩ = .ok t ∧ parse t = .ok m' ∧
        m'.rows = 1 ∧ m'.cols = 2 ∧
        List.Forall₂ (List.Forall₂ Agrees) [[1e-7, 0.0 / 0.0]] m'.cells := by
  have hm : (⟨1, 2, [[1e-7, 0.0 / 0.0]]⟩ : Matrix Float).WellFormed :=
    ⟨Nat.one_pos, Nat.two_pos, rfl, by simp⟩
  exact ⟨hm, parse_text_agrees {} hm⟩

end Simultaneous.Matrix
