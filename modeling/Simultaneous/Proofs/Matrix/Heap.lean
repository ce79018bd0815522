import Simultaneous.Matrix.Heap
import Simultaneous.Proofs.Matrix.Store

/-!
Rows in memory. No row belongs to two matrices, so that overwriting the rows of one of them leaves
all others as they are, and the matrices that memory holds are those of the store.
-/

namespace Simultaneous.Matrix

namespace Heap

variable {h h' : Heap} {l : Layout} {m : Matrix Float} {target : Option String}

section Rows

variable {a b : Nat} {row : List Float} {rows : List (List Float)}

/-- A function that differs from another one at one item only. -/
theorem map_eq_set {α β : Type} {as : List α} {f g : α → β} {i : Nat} {a : α}
    (hnodup : as.Nodup) (ha : as[i]? = some a) (hfg : ∀ b ∈ as, b ≠ a → g b = f b) :
    as.map g = (as.map f).set i (g a) := by
  obtain ⟨hi, rfl⟩ := List.getElem?_eq_some_iff.mp ha
  refine List.ext_getElem (by simp) fun j hj _ => ?_
  rw [List.length_map] at hj
  rw [List.getElem_set, List.getElem_map]
  split
  next hij => subst hij; rfl
  next hij =>
    rw [List.getElem_map]
    refine hfg _ (List.getElem_mem hj) fun heq => hij ?_
    exact (hnodup.getElem_inj_iff.mp heq).symm

theorem line_allocate (ha : a < h.lines.length) (rows : List (List Float)) :
    (h.allocate rows).1.line a = h.line a := List.getD_append _ _ _ _ ha

theorem map_line_allocate (h : Heap) (rows : List (List Float)) :
    (h.allocate rows).2.map (h.allocate rows).1.line = rows := by
  refine List.ext_getElem (by simp [allocate]) fun i hi hi' => ?_
  simp [allocate, line, List.getElem?_append_right, List.getElem?_eq_getElem hi']

theorem line_overwrite_self (ha : a < h.lines.length) (row : List Float) :
    (h.overwrite a row).line a = row := by
  simp [overwrite, line, List.getElem?_set_self ha]

theorem line_overwrite_of_ne (hab : a ≠ b) (row : List Float) :
    (h.overwrite a row).line b = h.line b := by
  simp [overwrite, line, List.getElem?_set_ne hab]

theorem length_overwrite (h : Heap) (a : Nat) (row : List Float) :
    (h.overwrite a row).lines.length = h.lines.length := List.length_set

end Rows

/-- Rows are overwritten at some addresses at most. -/
structure Within (addresses : List Nat) (h h' : Heap) : Prop where
  toDirectory_eq : h'.toDirectory = h.toDirectory
  length_eq : h'.lines.length = h.lines.length
  line_eq : ∀ a, a ∉ addresses → h'.line a = h.line a

namespace Within

variable {as bs : List Nat}

theorem refl (as : List Nat) (h : Heap) : Within as h h := ⟨rfl, rfl, fun _ _ => rfl⟩

theorem trans {h'' : Heap} (hh : Within as h h') (hh' : Within as h' h'') : Within as h h'' :=
  ⟨hh'.toDirectory_eq.trans hh.toDirectory_eq, hh'.length_eq.trans hh.length_eq,
    fun a ha => (hh'.line_eq a ha).trans (hh.line_eq a ha)⟩

theorem mono (hh : Within as h h') (hsub : as ⊆ bs) : Within bs h h' :=
  ⟨hh.toDirectory_eq, hh.length_eq, fun a ha => hh.line_eq a fun hmem => ha (hsub hmem)⟩

theorem overwrite {a : Nat} (ha : a ∈ as) (h : Heap) (row : List Float) :
    Within as h (h.overwrite a row) :=
  ⟨rfl, length_overwrite h a row,
    fun _ hb => line_overwrite_of_ne (ne_of_mem_of_not_mem ha hb) row⟩

end Within

theorem overwriteAll_within (as : List Nat) (rows : List (List Float)) (h : Heap) :
    Within as h (h.overwriteAll as rows) := by
  induction as generalizing h rows with
  | nil => exact .refl [] h
  | cons a as ih =>
    cases rows with
    | nil => exact .refl _ h
    | cons row rows =>
      have hrest := (ih rows (h.overwrite a row)).mono (List.subset_cons_self a as)
      exact (Within.overwrite List.mem_cons_self h row).trans hrest

theorem map_line_overwriteAll {as : List Nat} {rows : List (List Float)}
    (hnodup : as.Nodup) (hlt : ∀ a ∈ as, a < h.lines.length) (hlength : rows.length = as.length) :
    as.map (h.overwriteAll as rows).line = rows := by
  induction as generalizing h rows with
  | nil => exact (List.length_eq_zero_iff.mp hlength).symm
  | cons a as ih =>
    obtain _ | ⟨row, rows⟩ := rows
    · cases hlength
    obtain ⟨hnot, hnodup⟩ := List.nodup_cons.mp hnodup
    obtain ⟨ha, hlt⟩ := List.forall_mem_cons.mp hlt
    have hrest := ih (h := h.overwrite a row) hnodup
      (fun b hb => (length_overwrite h a row).symm ▸ hlt b hb) (Nat.succ.inj hlength)
    have hfirst : ((h.overwrite a row).overwriteAll as rows).line a = row :=
      ((overwriteAll_within as rows _).line_eq a hnot).trans (line_overwrite_self ha row)
    exact List.cons_eq_cons.mpr ⟨hfirst, hrest⟩

/-- All rows are kept, and there may be more. -/
structure Grown (h h' : Heap) : Prop where
  length_le : h.lines.length ≤ h'.lines.length
  line_eq : ∀ a < h.lines.length, h'.line a = h.line a

namespace Grown

theorem refl (h : Heap) : Grown h h := ⟨Nat.le_refl _, fun _ _ => rfl⟩

theorem trans {h'' : Heap} (hh : Grown h h') (hh' : Grown h' h'') : Grown h h'' :=
  ⟨hh.length_le.trans hh'.length_le, fun a ha =>
    (hh'.line_eq a (ha.trans_le hh.length_le)).trans (hh.line_eq a ha)⟩

/-- Only rows that are new are overwritten. -/
theorem within {h'' : Heap} {as : List Nat} (hh : Grown h h') (hwithin : Within as h' h'')
    (has : ∀ a ∈ as, h.lines.length ≤ a) : Grown h h'' := by
  refine ⟨hwithin.length_eq ▸ hh.length_le, fun a ha => ?_⟩
  rw [hwithin.line_eq a fun hmem => Nat.not_lt.mpr (has a hmem) ha]
  exact hh.line_eq a ha

theorem read_eq (hh : Grown h h') (hlt : ∀ a ∈ l.addresses, a < h.lines.length) :
    h'.read l = h.read l :=
  congrArg (Matrix.mk l.rows l.cols)
    (List.map_congr_left fun a ha => hh.line_eq a (hlt a ha))

end Grown

/-- A matrix has been laid out in rows of its own behind all others. -/
structure Laid (h : Heap) (m : Matrix Float) (h' : Heap) (l : Layout) : Prop
    extends Grown h h' where
  toDirectory_eq : h'.toDirectory = h.toDirectory
  nodup : l.addresses.Nodup
  fresh : ∀ a ∈ l.addresses, h.lines.length ≤ a ∧ a < h'.lines.length
  read_eq : h'.read l = m

theorem lay_laid (h : Heap) (m : Matrix Float) : Laid h m (h.lay m).1 (h.lay m).2 where
  toDirectory_eq := rfl
  nodup := List.nodup_range'
  fresh a ha := by
    obtain ⟨i, hi, rfl⟩ := List.mem_range'.mp ha
    simp only [lay, allocate, List.length_append]
    omega
  length_le := by simp [lay, allocate]
  line_eq a ha := line_allocate ha m.cells
  read_eq := congrArg (Matrix.mk m.rows m.cols) (map_line_allocate h m.cells)

theorem layBlank_laid (h : Heap) (hm : m.WellFormed) :
    Laid h m (h.layBlank m).1 (h.layBlank m).2 := by
  have hlaid := lay_laid h (replicate m.rows m.cols 0)
  have hwithin : Within _ (h.lay (replicate m.rows m.cols 0)).1 (h.layBlank m).1 :=
    overwriteAll_within (h.layBlank m).2.addresses m.cells _
  have hcells : m.cells.length = (h.layBlank m).2.addresses.length := by
    simp [layBlank, lay, allocate, replicate, hm.length_cells]
  exact {
    toGrown := hlaid.toGrown.within hwithin fun a ha => (hlaid.fresh a ha).1
    toDirectory_eq := hwithin.toDirectory_eq.trans hlaid.toDirectory_eq
    nodup := hlaid.nodup
    fresh := fun a ha => hwithin.length_eq ▸ hlaid.fresh a ha
    read_eq := congrArg (Matrix.mk m.rows m.cols)
      (map_line_overwriteAll hlaid.nodup (fun a ha => (hlaid.fresh a ha).2) hcells) }

theorem write_within (h : Heap) (l : Layout) (r c : Nat) (x : Float) :
    Within l.addresses h (h.write l r c x) := by
  rw [write]
  split
  · exact .refl _ h
  next a ha => exact .overwrite (List.mem_of_getElem? ha) h _

theorem roundRows_within (precision : Literal) (as : List Nat) (h : Heap) :
    Within as h (roundRows precision as h).1 := by
  induction as generalizing h with
  | nil => exact .refl [] h
  | cons a as ih =>
    rw [roundRows]
    split
    · exact .overwrite List.mem_cons_self h _
    next row hrow =>
      have hrest := (ih (h.overwrite a row)).mono (List.subset_cons_self a as)
      exact (Within.overwrite List.mem_cons_self h row).trans hrest

section

variable {as : List Nat} (hnodup : as.Nodup) (hlt : ∀ a ∈ as, a < h.lines.length)

include hnodup hlt

theorem map_line_overwrite {i a : Nat} (ha : as[i]? = some a) (f : List Float → List Float) :
    as.map (h.overwrite a (f (h.line a))).line = (as.map h.line).modify i f := by
  have hset := map_eq_set (f := h.line) hnodup ha fun b _ hne =>
    line_overwrite_of_ne (Ne.symm hne) (f (h.line a))
  rw [hset, line_overwrite_self (hlt a (List.mem_of_getElem? ha)), List.modify_eq_set]
  simp [ha]

theorem map_line_roundRows (precision : Literal) :
    (as.map (roundRows precision as h).1.line, (roundRows precision as h).2) =
      replaceRows (Store.rounding precision) (as.map h.line) := by
  induction as generalizing h with
  | nil => rfl
  | cons a as ih =>
    obtain ⟨hnot, hnodup⟩ := List.nodup_cons.mp hnodup
    obtain ⟨ha, hlt⟩ := List.forall_mem_cons.mp hlt
    have hsame : ∀ row, as.map (h.overwrite a row).line = as.map h.line := fun row =>
      List.map_congr_left fun b hb => line_overwrite_of_ne (ne_of_mem_of_not_mem hb hnot).symm row
    rw [List.map_cons, List.map_cons, roundRows, replaceRows_cons]
    cases hrow : replaceCells (Store.rounding precision) (h.line a) with
    | mk row e =>
      cases e with
      | some f => simp only [line_overwrite_self ha, hsame]
      | none =>
        have hrest := ih (h := h.overwrite a row) hnodup
          (fun b hb => (length_overwrite h a row).symm ▸ hlt b hb)
        have hfirst := ((roundRows_within precision as (h.overwrite a row)).line_eq a hnot).trans
          (line_overwrite_self ha row)
        rw [hsame] at hrest
        simp only [hfirst, ← hrest]

end

section

variable (hnodup : l.addresses.Nodup) (hlt : ∀ a ∈ l.addresses, a < h.lines.length)

include hnodup hlt

theorem read_write {r : Nat} (hr : r < l.addresses.length) (c : Nat) (x : Float) :
    (h.write l r c x).read l = (h.read l).setCell r c x := by
  have ha : l.addresses[r]? = some l.addresses[r] := List.getElem?_eq_getElem hr
  simp only [write, ha]
  exact congrArg (Matrix.mk l.rows l.cols) (map_line_overwrite hnodup hlt ha (·.set c x))

theorem read_roundRows (precision : Literal) :
    ((roundRows precision l.addresses h).1.read l, (roundRows precision l.addresses h).2) =
      (h.read l).replaceAll (Store.rounding precision) := by
  have hrows := map_line_roundRows hnodup hlt precision
  have hcells : (h.read l).cells = l.addresses.map h.line := rfl
  rw [replaceAll, hcells, ← hrows]
  rfl

end

/-- No row belongs to two matrices, or twice to one. -/
structure Separate (h : Heap) : Prop where
  nodup : (h.objects.flatMap (·.addresses)).Nodup
  lt_length : ∀ l ∈ h.objects, ∀ a ∈ l.addresses, a < h.lines.length

theorem separate_empty : Separate {} := ⟨List.nodup_nil, List.forall_mem_nil _⟩

namespace Separate

variable (hs : h.Separate)

include hs

theorem nodup_addresses {n : Nat} (hl : h.objects[n]? = some l) : l.addresses.Nodup :=
  (List.nodup_flatMap.mp hs.nodup).1 l (List.mem_of_getElem? hl)

theorem disjoint {i j : Nat} {k : Layout} (hi : h.objects[i]? = some l)
    (hj : h.objects[j]? = some k) (hij : i ≠ j) : l.addresses.Disjoint k.addresses := by
  have hpairwise := (List.nodup_flatMap.mp hs.nodup).2
  obtain ⟨hilt, rfl⟩ := List.getElem?_eq_some_iff.mp hi
  obtain ⟨hjlt, rfl⟩ := List.getElem?_eq_some_iff.mp hj
  obtain hlt | hlt := Nat.lt_or_gt_of_ne hij
  · exact List.pairwise_iff_getElem.mp hpairwise i j hilt hjlt hlt
  · exact (List.pairwise_iff_getElem.mp hpairwise j i hjlt hilt hlt).symm

/-- A matrix in rows of its own leaves the others as they are. -/
theorem matrices_keep (hlaid : Laid h m h' l) (target : Option String) :
    (keep target (h', l)).matrices = h.matrices.keep target m := by
  have hread : ∀ k ∈ h.objects, h'.read k = h.read k := fun k hk =>
    hlaid.toGrown.read_eq (hs.lt_length k hk)
  have hmap : h'.matrices = h.matrices := by
    rw [matrices, matrices, hlaid.toDirectory_eq, Directory.map, Directory.map,
      List.map_congr_left hread]
  have hkeep : (keep target (h', l)).matrices = h'.matrices.keep target (h'.read l) :=
    Directory.map_keep h'.toDirectory h'.read target l
  rw [hkeep, hmap, hlaid.read_eq]

theorem keep (hlaid : Laid h m h' l) (target : Option String) :
    (Heap.keep target (h', l)).Separate := by
  have hobjects : h'.objects = h.objects := congrArg Directory.objects hlaid.toDirectory_eq
  have hold : ∀ k ∈ h'.objects, ∀ a ∈ k.addresses, a < h.lines.length :=
    fun k hk => hs.lt_length k (hobjects ▸ hk)
  cases target with
  | none =>
    exact ⟨hobjects ▸ hs.nodup, fun k hk a ha => (hold k hk a ha).trans_le hlaid.length_le⟩
  | some name =>
    constructor
    · have hflat : ((Heap.keep (some name) (h', l)).objects.flatMap (·.addresses)) =
          h.objects.flatMap (·.addresses) ++ l.addresses := by
        rw [← hobjects]
        simp [Heap.keep, Directory.keep, Directory.bind]
      rw [hflat]
      refine List.nodup_append'.mpr ⟨hs.nodup, hlaid.nodup, fun a ha hal => ?_⟩
      obtain ⟨k, hk, ha⟩ := List.mem_flatMap.mp ha
      have := hs.lt_length k hk a ha
      have := (hlaid.fresh a hal).1
      omega
    · intro k hk a ha
      obtain hk | rfl := Directory.mem_objects_keep hk
      · exact (hold k hk a ha).trans_le hlaid.length_le
      · exact (hlaid.fresh a ha).2

/-- Rows of one matrix that are overwritten change that matrix alone. -/
theorem matrices_within {n : Nat} (hl : h.objects[n]? = some l)
    (hwithin : Within l.addresses h h') : h'.matrices = h.matrices.replace n (h'.read l) := by
  have hobjects : h.objects.map h'.read = (h.objects.map h.read).set n (h'.read l) := by
    refine List.ext_getElem? fun j => ?_
    by_cases hj : n = j
    · subst hj
      obtain ⟨hn, -⟩ := List.getElem?_eq_some_iff.mp hl
      rw [List.getElem?_set_self (by simpa using hn), List.getElem?_map, hl, Option.map_some]
    · rw [List.getElem?_set_ne hj, List.getElem?_map, List.getElem?_map]
      cases hk : h.objects[j]? with
      | none => rfl
      | some k =>
        have hdisjoint := hs.disjoint hl hk hj
        have hlines : k.addresses.map h'.line = k.addresses.map h.line :=
          List.map_congr_left fun a ha => hwithin.line_eq a fun hal => hdisjoint hal ha
        exact congrArg some (congrArg (Matrix.mk k.rows k.cols) hlines)
  rw [matrices, matrices, hwithin.toDirectory_eq, Directory.map, Directory.map, hobjects]
  rfl

theorem within {as : List Nat} (hwithin : Within as h h') : h'.Separate := by
  have hobjects : h'.objects = h.objects := congrArg Directory.objects hwithin.toDirectory_eq
  refine ⟨hobjects ▸ hs.nodup, fun k hk a ha => ?_⟩
  rw [hwithin.length_eq]
  exact hs.lt_length k (hobjects ▸ hk) a ha

end Separate

/-- Memory holds the matrices of a store, and no row of it belongs to two of them. -/
structure Holds (h : Heap) (s : Store) : Prop where
  separate : h.Separate
  matrices_eq : h.matrices = s.matrices

namespace Holds

variable {s : Store} (hh : h.Holds s)

include hh

theorem operand_eq (a : Operand) : (h.operand a).map (Option.map (Prod.map id h.read)) =
    (s.operand a).map (Option.map (Prod.map id Object.matrix)) := by
  rw [← Directory.operand_map, ← Directory.operand_map]
  exact congrArg (·.operand a) hh.matrices_eq

theorem kindOf_eq (a : Operand) : h.kindOf a = s.kindOf a := by
  rw [← Directory.kindOf_map h.toDirectory h.read, ← Directory.kindOf_map s.toDirectory (·.matrix)]
  exact congrArg (·.kindOf a) hh.matrices_eq

/-- An operand is missing in both, or it is the same matrix in both. -/
theorem demand_cases (ability : String) (a : Operand) :
    (∃ f, h.demand ability a = .error f ∧ s.demand ability a = .error f) ∨
      ∃ n l o, h.demand ability a = .ok (n, l) ∧ s.demand ability a = .ok (n, o) ∧
        h.objects[n]? = some l ∧ h.read l = o.matrix := by
  have hmap : (h.demand ability a).map (Prod.map id h.read) =
      (s.demand ability a).map (Prod.map id Object.matrix) := by
    rw [← Directory.demand_map, ← Directory.demand_map]
    exact congrArg (·.demand ability a) hh.matrices_eq
  obtain ⟨f, hf, hf'⟩ | ⟨⟨n, l⟩, ⟨k, o⟩, hl, ho, heq⟩ := Attempt.cases_of_map_eq hmap
  · exact .inl ⟨f, hf, hf'⟩
  · obtain ⟨rfl, hread⟩ := Prod.mk.inj heq
    obtain ⟨name, -, hfind⟩ := Directory.demand_eq_ok_iff.mp hl
    exact .inr ⟨n, l, o, hl, ho, (Directory.find?_eq_some_iff.mp hfind).2, hread⟩

/-- A new matrix in rows of its own, and a new object with it. -/
theorem keep (hlaid : Laid h m h' l) (target : Option String) {s' : Store}
    (hs' : s'.matrices = s.matrices.keep target m) : (Heap.keep target (h', l)).Holds s' := by
  refine ⟨hh.separate.keep hlaid target, ?_⟩
  rw [hh.separate.matrices_keep hlaid, hs', hh.matrices_eq]

/-- A matrix whose rows are overwritten, and its object with it. -/
theorem within {n : Nat} (hl : h.objects[n]? = some l) (hwithin : Within l.addresses h h')
    {s' : Store} (hs' : s'.matrices = s.matrices.replace n (h'.read l)) : h'.Holds s' := by
  refine ⟨hh.separate.within hwithin, ?_⟩
  rw [hh.separate.matrices_within hl hwithin, hs', hh.matrices_eq]

theorem bind (target : Option String) (n : Nat) :
    Holds { h with toDirectory := h.bind target n } { s with toDirectory := s.bind target n } := by
  refine ⟨⟨?_, ?_⟩, ?_⟩
  · rw [Directory.objects_bind]
    exact hh.separate.nodup
  · rw [Directory.objects_bind]
    exact hh.separate.lt_length
  · exact (Directory.map_bind h.toDirectory h.read target n).trans
      ((congrArg (·.bind target n) hh.matrices_eq).trans (Directory.map_bind ..).symm)

theorem deliver (target : Option String) (r : Attempt (Matrix Float)) :
    (h.deliver target r).2 = (s.deliver target r).2 ∧
      (h.deliver target r).1.Holds (s.deliver target r).1 := by
  cases r with
  | error f => exact ⟨rfl, hh⟩
  | ok m => exact ⟨rfl, hh.keep (lay_laid h m) target (Directory.map_keep ..)⟩

/-- A command gives the same in memory as in the store. -/
theorem apply (settings : Settings) (target : Option String) (c : Command) :
    (h.apply settings target c).2 = (s.apply settings target c).2 ∧
      (h.apply settings target c).1.Holds (s.apply settings target c).1 := by
  cases c with
  | build source =>
    rw [Heap.apply, Store.apply]
    cases hm : source.matrix with
    | error f => exact ⟨rfl, hh⟩
    | ok m =>
      refine ⟨rfl, ?_⟩
      simp only
      split
      · exact hh.keep (layBlank_laid h (Source.wellFormed hm)) target (Directory.map_keep ..)
      · exact hh.keep (lay_laid h m) target (Directory.map_keep ..)
  | copy a =>
    rw [Heap.apply, Store.apply]
    obtain ⟨f, hf, hf'⟩ | ⟨n, l, o, hl, ho, -, hread⟩ := hh.demand_cases "copy" a
    · rw [hf, hf']
      exact ⟨rfl, hh⟩
    · rw [hl, ho]
      refine ⟨congrArg Except.ok hread, ?_⟩
      simp only [hread]
      exact hh.keep (lay_laid h o.matrix) target (Directory.map_keep ..)
  | operate op a b =>
    rw [Heap.apply, Store.apply, hh.matrices_eq]
    exact hh.deliver target _
  | combine op a b =>
    rw [Heap.apply, Store.apply, hh.matrices_eq, hh.kindOf_eq]
    obtain ⟨f, hf, hf'⟩ | ⟨p, q, hp, hq, heq⟩ := Attempt.cases_of_map_eq (hh.operand_eq a)
    · rw [hf, hf']
      exact ⟨rfl, hh⟩
    · rw [hp, hq]
      cases p with
      | none =>
        cases q with
        | none => exact ⟨rfl, hh⟩
        | some _ => cases heq
      | some _ =>
        cases q with
        | none => cases heq
        | some _ => exact hh.deliver target _
  | toFixed a precision =>
    rw [Heap.apply, Store.apply]
    obtain ⟨f, hf, hf'⟩ | ⟨n, l, o, hl, ho, hobject, hread⟩ := hh.demand_cases "to_fixed" a
    · rw [hf, hf']
      exact ⟨rfl, hh⟩
    rw [hl, ho]
    have hround := read_roundRows (hh.separate.nodup_addresses hobject)
      (hh.separate.lt_length l (List.mem_of_getElem? hobject)) precision
    have hwithin := roundRows_within precision l.addresses h
    rw [hread] at hround
    cases hrows : roundRows precision l.addresses h with
    | mk h' e =>
      rw [hrows] at hround hwithin
      have hfix : (s.fix n o precision).1.matrices = s.matrices.replace n (h'.read l) := by
        simp only [Store.fix, ← hround]
        cases e <;> exact Directory.map_replace ..
      have hholds : h'.Holds (s.fix n o precision).1 := hh.within hobject hwithin hfix
      simp only [Store.fix, ← hround, hrows] at hholds ⊢
      cases e with
      | some f => exact ⟨rfl, hholds⟩
      | none => exact ⟨rfl, hholds.bind target n⟩
  | set a i j value =>
    rw [Heap.apply, Store.apply]
    obtain ⟨f, hf, hf'⟩ | ⟨n, l, o, hl, ho, hobject, hread⟩ := hh.demand_cases "set" a
    · rw [hf, hf']
      exact ⟨rfl, hh⟩
    rw [hl, ho]
    simp only [Store.write, hread]
    cases value.toFloat with
    | error e => exact ⟨rfl, hh⟩
    | ok x =>
      cases hplace : Store.place o.matrix i j .storeOutOfRange with
      | error f => exact ⟨rfl, hh⟩
      | ok p =>
        obtain ⟨r, c, y⟩ := p
        have hr : r < l.addresses.length := by
          have hlt := Store.lt_of_place hplace
          rwa [← hread, read, List.length_map] at hlt
        have hset := read_write (hh.separate.nodup_addresses hobject)
          (hh.separate.lt_length l (List.mem_of_getElem? hobject)) hr c x
        rw [hread] at hset
        refine ⟨congrArg Except.ok hset, hh.within hobject (write_within h l r c x) ?_⟩
        rw [hset]
        exact Directory.map_replace ..

theorem run (steps : List Step) : (h.run steps).Holds (s.run steps) := by
  induction steps generalizing h s with
  | nil => exact hh
  | cons step steps ih => exact ih (hh.apply step.settings step.target step.command).2

end Holds

theorem holds_empty : Holds {} {} := ⟨separate_empty, rfl⟩

end Heap

/-- Named matrices after any commands, and what one more command does to them. All of them are tables
of numbers, and so is every result; no row of memory belongs to two of them, and memory holds the
matrices of the store. A matrix stays as it is unless the command changes it where it is, by one of
the names that refer to it. And a name refers to another matrix only once a result is put under it:
to its operand after a rounding, to a new matrix otherwise. -/
theorem Store.run_frame (steps : List Step) (step : Step) :
    let h := Heap.run {} steps
    let s := Store.run {} steps
    let inMemory := h.apply step.settings step.target step.command
    let out := s.apply step.settings step.target step.command
    s.Sound ∧ h.Holds s ∧ inMemory.1.Holds out.1 ∧ inMemory.2 = out.2 ∧
    (∀ m, out.2 = .ok m → m.WellFormed) ∧
    (∀ (n : Nat) (o : Object), s.objects[n]? = some o →
      (∀ name, step.command.changed? = some (some name) → s.number? name ≠ some n) →
      out.1.objects[n]? = some o) ∧
    ∀ name, out.1.number? name =
      if out.2.isOk = true ∧ step.target = some name then s.handedOn name step.command
      else s.number? name := by
  intro h s inMemory out
  have hsound : s.Sound := run_sound sound_empty steps
  have hholds : h.Holds s := Heap.holds_empty.run steps
  have heffect : Effect s step.target step.command out :=
    apply_effect hsound step.settings step.target step.command
  obtain ⟨hresult, hnext⟩ := hholds.apply step.settings step.target step.command
  exact ⟨hsound, hholds, hnext, hresult, fun m hm => heffect.wellFormed_result hsound hm,
    fun n o ho hn => heffect.getElem?_objects ho hn, heffect.number?_eq⟩

/-- Two names of one matrix, and a third one of a copy. -/
def aliasing : List Step := [
  { target := some "A", command := .build (.values (.list [.list [.float 1.25]])) },
  { target := some "B", command := .copy (some "A") },
  { target := some "C", command := .toFixed (some "A") (.int 1) }]

theorem Store.run_frame_aliasing :
    let s := Store.run {} aliasing
    let out := s.apply {} none (.set (some "C") (.int 0) (.int 0) (.float 9))
    (s.number? "A" = some 0 ∧ s.number? "C" = some 0 ∧ s.number? "B" = some 1) ∧
    (∃ o, s.objects[1]? = some o ∧ out.1.objects[1]? = some o) ∧
    (out.1.objects[0]?.any fun o => o.matrix.cells == [[9]]) = true := by
  intro s out
  obtain ⟨-, -, -, -, -, hframe, -⟩ := Store.run_frame aliasing
    { command := .set (some "C") (.int 0) (.int 0) (.float 9) }
  refine ⟨by decide, ?_, by decide⟩
  have hsome : (s.objects[1]?).isSome = true := by decide
  obtain ⟨o, ho⟩ := Option.isSome_iff_exists.mp hsome
  refine ⟨o, ho, hframe 1 o ho fun name hname => ?_⟩
  cases hname
  decide

end Simultaneous.Matrix
