import Mathlib

/-!
Doubles in order. All doubles but the one that is no number stand in one line: by their class, and
within a class by exponent and mantissa. The difference of finite doubles stands in it too.
-/

namespace Simultaneous.Double

open Float.Model Float.Model.UnpackedFloat

/-- The place of a double in the line, zeros of either sign in the middle. -/
def place : UnpackedFloat → ℤ ×ₗ ℤ ×ₗ ℤ
  | .infinity .negative => toLex (-2, toLex (0, 0))
  | .finite .negative m e _ => toLex (-1, toLex (-e, -m))
  | .finite .positive m e _ => toLex (1, toLex (e, m))
  | .infinity .positive => toLex (2, toLex (0, 0))
  | _ => toLex (0, toLex (0, 0))

theorem compare_negative_positive : compare Sign.negative Sign.positive = .lt := rfl

theorem compare_positive_negative : compare Sign.positive Sign.negative = .gt := rfl

theorem compare_sign_self (s : Sign) : compare s s = .eq := by
  cases s <;> rfl

section

variable {a b : UnpackedFloat} (ha : a.isNaN = false) (hb : b.isNaN = false)

include ha hb

/-- What is no number apart, comparing doubles is comparing their places. -/
theorem exists_compare : ∃ o, a.compare b = some o ∧ (o = .lt ↔ place a < place b) ∧
    (o = .gt ↔ place b < place a) := by
  unfold UnpackedFloat.compare
  rcases a with (_ | _) | _ | s | ⟨_ | _, m, e, hm⟩ <;>
    rcases b with (_ | _) | _ | t | ⟨_ | _, n, f, hn⟩ <;>
    simp [UnpackedFloat.isNaN, place, Prod.Lex.toLex_lt_toLex, compare_lt_iff_lt,
      compare_gt_iff_gt, Ordering.then_eq_gt, Ordering.then_eq_lt, compare_negative_positive,
      compare_positive_negative, compare_sign_self, @eq_comm ℤ] at *

theorem unpacked_lt_iff : a.lt b ↔ place a < place b := by
  obtain ⟨o, ho, hlt, -⟩ := exists_compare ha hb
  rw [← hlt, UnpackedFloat.lt, ho, beq_iff_eq, Option.some.injEq]

theorem unpacked_le_iff : a.le b ↔ place a ≤ place b := by
  obtain ⟨o, ho, -, hgt⟩ := exists_compare ha hb
  rw [← not_lt, ← hgt, UnpackedFloat.le, ho]
  cases o <;> decide

end

variable {x y z : Float}

theorem lt_iff (hx : x.isNaN = false) (hy : y.isNaN = false) :
    x < y ↔ place x.toModel.unpack < place y.toModel.unpack := by
  rw [← unpacked_lt_iff hx hy]
  exact decide_eq_true_iff

theorem le_iff (hx : x.isNaN = false) (hy : y.isNaN = false) :
    x ≤ y ↔ place x.toModel.unpack ≤ place y.toModel.unpack := by
  rw [← unpacked_le_iff hx hy]
  exact decide_eq_true_iff

theorem isNaN_of_unpacked_lt {a b : UnpackedFloat} (h : a.lt b = true) :
    a.isNaN = false ∧ b.isNaN = false := by
  constructor
  · cases a with
    | notANumber => cases h
    | _ => rfl
  · cases b with
    | notANumber => cases a <;> cases h
    | _ => rfl

theorem isNaN_of_lt (h : x < y) : x.isNaN = false ∧ y.isNaN = false :=
  isNaN_of_unpacked_lt (of_decide_eq_true h)

theorem le_of_lt (h : x < y) : x ≤ y := by
  obtain ⟨hx, hy⟩ := isNaN_of_lt h
  rw [lt_iff hx hy] at h
  exact (le_iff hx hy).mpr h.le

theorem le_refl (hx : x.isNaN = false) : x ≤ x := (le_iff hx hx).mpr le_rfl

theorem not_lt_iff (hx : x.isNaN = false) (hy : y.isNaN = false) : ¬ x < y ↔ y ≤ x := by
  rw [lt_iff hx hy, le_iff hy hx, not_lt]

theorem le_trans (hx : x.isNaN = false) (hy : y.isNaN = false) (hz : z.isNaN = false)
    (hxy : x ≤ y) (hyz : y ≤ z) : x ≤ z := by
  rw [le_iff hx hy] at hxy
  rw [le_iff hy hz] at hyz
  exact (le_iff hx hz).mpr (hxy.trans hyz)

/-- Storing a number does not turn it into none. -/
theorem isNaN_pack {u : UnpackedFloat} (h : u.isNaN = false) :
    (Float.Model.pack u).isNaN = false := by
  rw [← Bool.not_eq_true]
  intro hn
  have hbits : UnpackedFloat.pack .binary64 u = packedNaN .binary64 :=
    (isNaN_unpack_iff_of_valid valid_pack).mp hn
  obtain ⟨he, hm⟩ := of_decide_eq_true (hbits ▸ isNaNBits_packedNaN :
    isNaNBits (UnpackedFloat.pack .binary64 u) = true)
  revert he hm
  change unpackExponent (UnpackedFloat.pack .binary64 u) = _ →
    unpackMantissa (UnpackedFloat.pack .binary64 u) ≠ _ → False
  fun_cases UnpackedFloat.pack .binary64 u with
  | case1 => cases h
  | case2 s | case4 s m e hm exponent hinf => simp [packedInfinity]
  | case3 s => simp [packedZero]
  | case5 s m e hm bits exponent hinf hbits =>
    simp only [unpackExponent_packComponents]
    intro he
    have hmax : ¬ 2048 ≤ exponent + 1 := hinf
    have he : exponent % 2048 = 2047 := congrArg BitVec.toNat he
    omega
  | case6 s m e hm bits exponent hinf hbits =>
    simp only [unpackExponent_packComponents]
    intro he
    exact absurd he (by decide)

theorem isNaN_abs (hx : x.isNaN = false) : x.abs.isNaN = false := by
  refine isNaN_pack ?_
  change x.toModel.unpack.isNaN = false at hx
  cases hu : x.toModel.unpack <;> simp_all [UnpackedFloat.isNaN, UnpackedFloat.abs]

theorem isNaN_round (s : Sign) (m : Nat) (e : Int) :
    (UnpackedFloat.round .binary64 s m e).isNaN = false := by
  rw [UnpackedFloat.round]
  simp only
  rw [roundWithAccuracy]
  simp only
  split <;> rfl

theorem isNaN_normalize (m e : Int) :
    (UnpackedFloat.normalize .binary64 m e .positive).isNaN = false := by
  rw [UnpackedFloat.normalize]
  split
  · exact isNaN_round _ _ _
  · rfl
  · exact isNaN_round _ _ _

theorem isNaN_unpacked_sub {a b : UnpackedFloat} (ha : a.isFinite) (hb : b.isFinite) :
    (UnpackedFloat.sub .binary64 a b).isNaN = false := by
  cases a with
  | notANumber | infinity s => cases ha
  | zero s =>
    cases b with
    | notANumber | infinity t => cases hb
    | zero t => cases s <;> cases t <;> rfl
    | finite t n f hn => rfl
  | finite s m e hm =>
    cases b with
    | notANumber | infinity t => cases hb
    | zero t => rfl
    | finite t n f hn => exact isNaN_normalize _ _

/-- Finite doubles differ by a number, if only by an infinite one. -/
theorem isNaN_sub (hx : x.isFinite) (hy : y.isFinite) : (x - y).isNaN = false :=
  isNaN_pack (isNaN_unpacked_sub hx hy)

theorem unpack_zero : (Float.toModel 0).unpack = .zero .positive := by rfl

theorem pack_zero : Float.ofModel (Float.Model.pack (.zero .positive)) = 0 := by rfl

/-- A zero of either sign has the size zero. -/
theorem abs_eq_zero (hx : (x == 0) = true) : x.abs = 0 := by
  have hbeq : x.toModel.unpack.beq (Float.toModel 0).unpack = true := hx
  obtain ⟨-, -, hzero⟩ := (beq_iff_ne_notANumber_and_eq _ _).mp hbeq
  have habs : x.toModel.unpack.abs = .zero .positive := by
    rw [unpack_zero] at hzero
    obtain h | ⟨-, h⟩ | ⟨h, -⟩ := hzero
    · rw [h, UnpackedFloat.abs]
    · cases h
    · rw [h, UnpackedFloat.abs]
  calc x.abs = Float.ofModel (Float.Model.pack x.toModel.unpack.abs) := rfl
    _ = 0 := by rw [habs, pack_zero]

theorem unpacked_sub_self {a : UnpackedFloat} (ha : a.isFinite) :
    UnpackedFloat.sub .binary64 a a = .zero .positive := by
  cases a with
  | notANumber | infinity s => cases ha
  | zero s => cases s <;> rfl
  | finite s m e hm =>
    unfold UnpackedFloat.sub
    simp only [Int.sub_self]
    rfl

theorem sub_self_eq_zero (hx : x.isFinite) : x - x = 0 :=
  (congrArg (fun a => Float.ofModel (Float.Model.pack a)) (unpacked_sub_self hx)).trans pack_zero

/-- Zero over any number but zero is a zero, if only a negative one. -/
theorem zero_beq_zero_div (hy : (y == 0) = false) (hnan : y.isNaN = false) :
    (0 == 0 / y) = true := by
  have hdiv : ∃ s, UnpackedFloat.div .binary64 (.zero .positive) y.toModel.unpack = .zero s := by
    change y.toModel.unpack.isNaN = false at hnan
    have hbeq : y.toModel.unpack.beq (Float.toModel 0).unpack = false := hy
    rw [unpack_zero] at hbeq
    cases hu : y.toModel.unpack with
    | notANumber => rw [hu] at hnan; cases hnan
    | zero s =>
      rw [hu] at hbeq
      cases s <;> cases hbeq
    | infinity s => exact ⟨_, rfl⟩
    | finite s m e hm => exact ⟨_, rfl⟩
  obtain ⟨s, hs⟩ := hdiv
  have hquotient : 0 / y = Float.ofModel (Float.Model.pack (.zero s)) :=
    congrArg (fun a => Float.ofModel (Float.Model.pack a)) hs
  rw [hquotient]
  cases s <;> rfl

end Simultaneous.Double
