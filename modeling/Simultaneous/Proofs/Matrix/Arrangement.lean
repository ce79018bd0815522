import Simultaneous.Proofs.Attempt.Agreement
import Simultaneous.Proofs.Matrix.Nonsingular
import Simultaneous.Proofs.Matrix.Vector

/-!
Linear equations written down otherwise. A change of signs of the rows is carried through an
elimination: the same pivots are found, and their rows lose the signs. Another order of the rows can
lead to other pivots, but where both inversions come to an end the solutions are the same.
-/

namespace Simultaneous.Matrix

open Attempt

variable {a a' b b' : Matrix ℚ} {work work' : List (List ℚ)} {tolerance : ℚ} {n c : Nat}
  {q f f' : Nat → ℚ}

theorem largest_congr {size size' : Nat → ℚ} {best : Nat} {rs : List Nat}
    (h : ∀ r ∈ best :: rs, size' r = size r) : largest size' best rs = largest size best rs := by
  induction rs generalizing best with
  | nil => rfl
  | cons r rs ih =>
    rw [largest, largest, h best List.mem_cons_self,
      h r (List.mem_cons_of_mem _ List.mem_cons_self)]
    apply ih
    intro s hs
    obtain rfl | hs := List.mem_cons.mp hs
    · split
      · exact h r (List.mem_cons_of_mem _ List.mem_cons_self)
      · exact h best List.mem_cons_self
    · exact h s (List.mem_cons_of_mem _ (List.mem_cons_of_mem _ hs))

/-- The first `n` columns of one grid are those of the other but for the signs of the rows. -/
structure Signed (q : Nat → ℚ) (n : Nat) (work work' : List (List ℚ)) : Prop where
  abs_sign : ∀ r < n, |q r| = 1
  entry_eq : ∀ r < n, ∀ j < n, entry work' r j = q r * entry work r j

namespace Signed

variable {w w' : Nat} (h : Signed q n work work')

include h

theorem sign_ne_zero {r : Nat} (hr : r < n) : q r ≠ 0 :=
  abs_ne_zero.mp ((h.abs_sign r hr).symm ▸ one_ne_zero)

theorem abs_entry {r j : Nat} (hr : r < n) (hj : j < n) : |entry work' r j| = |entry work r j| := by
  rw [h.entry_eq r hr j hj, abs_mul, h.abs_sign r hr, one_mul]

theorem pivotRow_eq (hg : IsGrid work n w) (hg' : IsGrid work' n w') (hc : c < n) :
    pivotRow work' c = pivotRow work c := by
  rw [pivotRow, pivotRow, hg.length_cells, hg'.length_cells]
  refine largest_congr fun r hr => ?_
  rw [Scalar.magnitude_eq, Scalar.magnitude_eq, h.abs_entry ((mem_rowsFrom hc).mp hr).2 hc]

/-- Reduced rows have lost their signs; the others keep theirs on the exchange. -/
theorem reduced (hg : IsGrid work n w) (hg' : IsGrid work' n w') (hc : c < n) (hw : n ≤ w)
    (hw' : n ≤ w') :
    Signed (fun r => if r = c then 1 else q (Equiv.swap c (pivotRow work c) r)) n
      (Matrix.reduced work c) (Matrix.reduced work' c) := by
  obtain ⟨-, hp, -⟩ := pivotRow_spec hg hc
  refine ⟨fun r hr => ?_, fun r hr j hj => ?_⟩
  · split
    · exact abs_one
    · exact h.abs_sign _ (swap_lt hc hp hr)
  · have hq := h.sign_ne_zero hp
    rw [entry_reduced hg hc hr (by omega), entry_reduced hg' hc hr (by omega),
      h.pivotRow_eq hg hg' hc, h.entry_eq _ hp j hj, h.entry_eq _ hp c hc, mul_div_mul_left _ _ hq]
    split
    · rw [one_mul]
    · rw [h.entry_eq _ (swap_lt hc hp hr) j hj, h.entry_eq _ (swap_lt hc hp hr) c hc]
      ring

end Signed

theorem eliminate_of_zero {w : Nat} (hg : IsGrid work n w) (hc : c < n) (hw : 0 < w)
    (hle : tolerance ≤ |entry work (pivotRow work c) c|)
    (hzero : entry work (pivotRow work c) c = 0) :
    eliminate tolerance work c = .error (.broken .floatDivisionByZero) := by
  obtain ⟨-, hp, -⟩ := pivotRow_spec hg hc
  have hrow := (isGrid_swapRows hg hc hp).length_getD hc
  rw [eliminate_eq hg hc hle, hzero]
  generalize (swapRows c (pivotRow work c) work).getD c [] = row at hrow
  obtain ⟨x, row, rfl⟩ := List.exists_cons_of_length_pos (hrow.symm ▸ hw)
  rw [normalize, List.mapM_cons, Scalar.over?_zero]
  rfl

/-- Grids of one size, equal in the first columns but for the signs of the rows. -/
structure SignedGrids (n w : Nat) (work work' : List (List ℚ)) : Prop where
  grid : IsGrid work n w
  grid' : IsGrid work' n w
  signed : ∃ q, Signed q n work work'

theorem eliminate_agree {w : Nat} (h : SignedGrids n w work work') (hc : c < n) (hw : n ≤ w) :
    Agree (SignedGrids n w) Eq (eliminate tolerance work c) (eliminate tolerance work' c) := by
  obtain ⟨hg, hg', q, hq⟩ := h
  obtain ⟨-, hp, -⟩ := pivotRow_spec hg hc
  have hpivot := hq.pivotRow_eq hg hg' hc
  have habs := hq.abs_entry hp hc
  obtain hlt | hle := lt_or_ge |entry work (pivotRow work c) c| tolerance
  · rw [eliminate_of_lt hlt, eliminate_of_lt (by rwa [hpivot, habs])]
    exact .error rfl
  have hle' : tolerance ≤ |entry work' (pivotRow work' c) c| := by rwa [hpivot, habs]
  by_cases hzero : entry work (pivotRow work c) c = 0
  · have hzero' : entry work' (pivotRow work' c) c = 0 := by
      rw [hpivot, hq.entry_eq _ hp c hc, hzero, mul_zero]
    rw [eliminate_of_zero hg hc (by omega) hle hzero,
      eliminate_of_zero hg' hc (by omega) hle' hzero']
    exact .error rfl
  · have hzero' : entry work' (pivotRow work' c) c ≠ 0 := by
      rw [hpivot, hq.entry_eq _ hp c hc]
      exact mul_ne_zero (hq.sign_ne_zero hp) hzero
    rw [eliminate_of_le hg hc hle hzero, eliminate_of_le hg' hc hle' hzero']
    exact .ok ⟨isGrid_reduced hg hc, isGrid_reduced hg' hc, _, hq.reduced hg hg' hc hw hw⟩

theorem eliminateBefore_agree (ha : a.HasShape n n) (ha' : a'.HasShape n n)
    (h : Signed q n a.cells a'.cells) (hc : c ≤ n) :
    Agree (SignedGrids n (n + n)) Eq (eliminateBefore tolerance a c)
      (eliminateBefore tolerance a' c) := by
  induction c with
  | zero =>
    refine .ok ⟨isGrid_augmented ha, isGrid_augmented ha', q, h.abs_sign, fun r hr j hj => ?_⟩
    rw [entry_augmented_left ha hr hj, entry_augmented_left ha' hr hj, h.entry_eq r hr j hj]
  | succ c ih =>
    rw [eliminateBefore_succ, eliminateBefore_succ]
    exact (ih (by omega)).bind fun _ _ hw => eliminate_agree hw hc (Nat.le_add_left n n)

/-- The matrix sends `x` to `f`. -/
def Solves (a : Matrix ℚ) (n : Nat) (f x : Nat → ℚ) : Prop :=
  ∀ r < n, ∑ j ∈ Finset.range n, entry a.cells r j * x j = f r

theorem solves_iff (ha : a.HasShape n n) (hb : a.inv tolerance = .ok b) (x : Nat → ℚ) :
    Solves a n f x ↔ ∀ r < n, ∑ j ∈ Finset.range n, entry b.cells r j * f j = x r := by
  have h := sum_eq_zero_iff ha hb x fun r => -f r
  simp only [mul_neg, Finset.sum_neg_distrib, ← sub_eq_add_neg, sub_eq_zero] at h
  exact h.trans (forall₂_congr fun r _ => eq_comm)

/-- Inversions of systems with the same solutions lead to the same point. -/
theorem mul_eq_of_solves (ha : a.HasShape n n) (ha' : a'.HasShape n n)
    (hb : a.inv tolerance = .ok b) (hb' : a'.inv tolerance = .ok b')
    (h : ∀ x, Solves a n f x ↔ Solves a' n f' x) :
    b'.mul (vector n f') = b.mul (vector n f) := by
  have hshape := (inv_ensures _ ha).of_eq_ok hb
  have hshape' := (inv_ensures _ ha').of_eq_ok hb'
  have hsolves := (h _).mp ((solves_iff ha hb _).mpr fun r _ => rfl)
  rw [mul_vector hshape, mul_vector hshape', vector_congr ((solves_iff ha' hb' _).mp hsolves)]

theorem Signed.solves_iff (h : Signed q n a.cells a'.cells) (f x : Nat → ℚ) :
    Solves a n f x ↔ Solves a' n (fun r => q r * f r) x := by
  refine forall₂_congr fun r hr => ?_
  have hsum : ∑ j ∈ Finset.range n, entry a'.cells r j * x j =
      q r * ∑ j ∈ Finset.range n, entry a.cells r j * x j := by
    rw [Finset.mul_sum]
    refine Finset.sum_congr rfl fun j hj => ?_
    rw [h.entry_eq r hr j (Finset.mem_range.mp hj), mul_assoc]
  rw [hsum, mul_right_inj' (h.sign_ne_zero hr)]

theorem inv_agree (ha : a.HasShape n n) (ha' : a'.HasShape n n)
    (h : Signed q n a.cells a'.cells) :
    Agree (fun _ _ => True) Eq (a.inv tolerance) (a'.inv tolerance) := by
  rw [inv_eq ha, inv_eq ha']
  exact (eliminateBefore_agree ha ha' h le_rfl).bind fun _ _ _ => .ok trivial

/-- Signs of the rows make no difference, not even to the column without a pivot. -/
theorem Signed.inv_mul_eq (ha : a.HasShape n n) (ha' : a'.HasShape n n)
    (h : Signed q n a.cells a'.cells) (f : Nat → ℚ) :
    (a'.inv tolerance >>= fun b => b.mul (vector n fun r => q r * f r)) =
      a.inv tolerance >>= fun b => b.mul (vector n f) := by
  have hagree : Agree (fun _ _ => True) Eq (a.inv tolerance) (a'.inv tolerance) :=
    inv_agree ha ha' h
  rcases hb : a.inv tolerance with e | b <;> rcases hb' : a'.inv tolerance with e' | b' <;>
    rw [hb, hb'] at hagree
  · cases hagree with
    | error he => rw [he]; rfl
  · cases hagree
  · cases hagree
  · exact mul_eq_of_solves ha ha' hb hb' (h.solves_iff f)

/-- An inversion fails for want of a pivot, or by a division by zero if the matrix has a kernel. -/
theorem eliminateBefore_eq_error (ha : a.HasShape n n) (hc : c ≤ n) {e : Failure}
    (h : eliminateBefore tolerance a c = .error e) :
    (∃ k, e = .matrix (.noPivot k) false) ∨
      e = .broken .floatDivisionByZero ∧ HasKernel a n := by
  induction c with
  | zero => cases h
  | succ c ih =>
    rw [eliminateBefore_succ] at h
    obtain h | ⟨work, hwork, h⟩ := bind_eq_error.mp h
    · exact ih (by omega) h
    have hprogress := progress_of_eliminateBefore ha (by omega) hwork
    obtain hlt | hle := lt_or_ge |entry work (pivotRow work c) c| tolerance
    · rw [eliminate_of_lt hlt] at h
      cases h
      exact .inl ⟨c, rfl⟩
    by_cases hzero : entry work (pivotRow work c) c = 0
    · rw [eliminate_of_zero hprogress.grid hc (by omega) hle hzero] at h
      cases h
      exact .inr ⟨rfl, hprogress.hasKernel ha hc hzero⟩
    · rw [eliminate_of_le hprogress.grid hc hle hzero] at h
      cases h

theorem inv_eq_error (ha : a.HasShape n n) {e : Failure} (h : a.inv tolerance = .error e) :
    (∃ k, e = .matrix (.noPivot k) false) ∨
      e = .broken .floatDivisionByZero ∧ HasKernel a n := by
  rw [inv_eq ha] at h
  obtain h | ⟨_, _, h⟩ := bind_eq_error.mp h
  · exact eliminateBefore_eq_error ha le_rfl h
  · cases h

section

variable {ι : Type} {es es' : List ι} {row : ι → List ℚ} {value : ι → ℚ}

/-- The rows of one kind of things. -/
def rowsOf (n : Nat) (row : ι → List ℚ) (es : List ι) : Matrix ℚ := ⟨n, n, es.map row⟩

/-- A number for each thing, in a column. -/
def valuesOf (value : ι → ℚ) (es : List ι) : Matrix ℚ := ⟨es.length, 1, es.map fun e => [value e]⟩

theorem firstColumn_valuesOf (value : ι → ℚ) (es : List ι) :
    (valuesOf value es).firstColumn = es.map value := by
  have := firstColumn_column es.length (es.map value)
  rwa [List.map_map] at this

theorem sub_valuesOf (value value' : ι → ℚ) (es : List ι) :
    (valuesOf value es).sub (valuesOf value' es) =
      .ok (valuesOf (fun e => value e - value' e) es) := by
  have hcells :
      (valuesOf value es).cells.zipWith (List.zipWith (· - ·)) (valuesOf value' es).cells =
        (valuesOf (fun e => value e - value' e) es).cells := by
    rw [valuesOf, valuesOf, List.zipWith_map, List.zipWith_self]
    rfl
  rw [sub, combine, requireSameShape, if_neg (by simp [valuesOf]), if_neg (by simp [valuesOf]),
    ok_bind, hcells]
  rfl

theorem valuesOf_eq_vector [Inhabited ι] (value : ι → ℚ) (es : List ι) :
    valuesOf value es = vector es.length fun i => value (es.getD i default) := by
  have hcells : es.map (fun e => [value e]) =
      (List.range es.length).map fun i => [value (es.getD i default)] := by
    refine List.ext_getElem (by simp) fun i hi _ => ?_
    have hi : i < es.length := by simpa using hi
    rw [List.getElem_map, List.getElem_map, List.getElem_range, List.getD_eq_getElem es _ hi]
  rw [valuesOf, hcells, vector]

theorem solves_rowsOf [Inhabited ι] (value : ι → ℚ) (hlength : es.length = n) (x : Nat → ℚ) :
    Solves (rowsOf n row es) n (fun i => value (es.getD i default)) x ↔
      ∀ e ∈ es, ∑ j ∈ Finset.range n, (row e).getD j 0 * x j = value e := by
  subst hlength
  rw [List.forall_mem_iff_getElem, Solves]
  refine forall₂_congr fun i hi => ?_
  have hentry : ∀ j, entry (rowsOf es.length row es).cells i j = (row es[i]).getD j 0 := by
    intro j
    rw [rowsOf, entry, List.getD_eq_getElem _ [] (by simpa using hi), List.getElem_map]
  simp only [hentry, List.getD_eq_getElem es _ hi]

theorem hasKernel_rowsOf [Inhabited ι] (hlength : es.length = n) :
    HasKernel (rowsOf n row es) n ↔ ∃ x : Nat → ℚ, (∃ j < n, x j ≠ 0) ∧
      ∀ e ∈ es, ∑ j ∈ Finset.range n, (row e).getD j 0 * x j = 0 := by
  refine exists_congr fun x => and_congr_right fun _ => ?_
  exact solves_rowsOf (fun _ => 0) hlength x

/-- The order of the rows makes no difference, as long as no pivot is missed. -/
theorem inv_mul_perm [Inhabited ι] (h : es.Perm es') (hlength : es.length = n)
    (hshape : (rowsOf n row es).HasShape n n) (hshape' : (rowsOf n row es').HasShape n n)
    (hpivot : ∀ k, (rowsOf n row es).inv tolerance ≠ .error (.matrix (.noPivot k) false))
    (hpivot' : ∀ k, (rowsOf n row es').inv tolerance ≠ .error (.matrix (.noPivot k) false)) :
    ((rowsOf n row es').inv tolerance >>= fun b => b.mul (valuesOf value es')) =
      (rowsOf n row es).inv tolerance >>= fun b => b.mul (valuesOf value es) := by
  have hlength' : es'.length = n := h.length_eq ▸ hlength
  have hkernel : HasKernel (rowsOf n row es) n ↔ HasKernel (rowsOf n row es') n := by
    rw [hasKernel_rowsOf hlength, hasKernel_rowsOf hlength']
    simp only [h.mem_iff]
  have hregular : ∀ {a b : Matrix ℚ}, a.HasShape n n → a.inv tolerance = .ok b →
      ¬ HasKernel a n := by
    intro a b ha hb
    rw [inv_eq ha] at hb
    obtain ⟨work, hwork, -⟩ := bind_eq_ok.mp hb
    exact not_hasKernel ha hwork
  rcases hb : (rowsOf n row es).inv tolerance with e | b
  · obtain ⟨k, rfl⟩ | ⟨rfl, hk⟩ := inv_eq_error hshape hb
    · exact absurd hb (hpivot k)
    rcases hb' : (rowsOf n row es').inv tolerance with e' | b'
    · obtain ⟨k, rfl⟩ | ⟨rfl, -⟩ := inv_eq_error hshape' hb'
      · exact absurd hb' (hpivot' k)
      · rfl
    · exact absurd (hkernel.mp hk) (hregular hshape' hb')
  · rcases hb' : (rowsOf n row es').inv tolerance with e' | b'
    · obtain ⟨k, rfl⟩ | ⟨rfl, hk⟩ := inv_eq_error hshape' hb'
      · exact absurd hb' (hpivot' k)
      · exact absurd (hkernel.mpr hk) (hregular hshape hb)
    · rw [ok_bind, ok_bind, valuesOf_eq_vector, valuesOf_eq_vector, hlength, hlength']
      refine mul_eq_of_solves hshape hshape' hb hb' fun x => ?_
      rw [solves_rowsOf _ hlength, solves_rowsOf _ hlength']
      simp only [h.mem_iff]

end

end Simultaneous.Matrix
