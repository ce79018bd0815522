import Simultaneous.Proofs.Literal.Numeral

/-!
The brief text of a finite double. It is a numeral, and the number that is read from it has the
double as its nearest, whichever way it is laid out.
-/

namespace Simultaneous.Literal

open Text Decimal

theorem exists_toDigits_eq_cons {c : Nat} (hc : 0 < c) :
    ∃ d s, Nat.toDigits 10 c = d :: s ∧ d ≠ '0' := by
  induction c using Nat.strong_induction_on with
  | _ c ih =>
    obtain hlt | hge := Nat.lt_or_ge c 10
    · refine ⟨_, [], Nat.toDigits_of_lt_base hlt, ?_⟩
      interval_cases c <;> decide
    · obtain ⟨d, s, hs, hd⟩ := ih (c / 10) (by omega) (by omega)
      refine ⟨d, s ++ [(c % 10).digitChar], ?_, hd⟩
      rw [Nat.toDigits_of_base_le (by decide) hge, hs, List.cons_append]

theorem toList_toString (c : Nat) : (toString c).toList = Nat.toDigits 10 c := Nat.toList_repr

theorem isAsciiDigit_of_mem_zeros (k : Nat) :
    ∀ c ∈ List.replicate k '0', isAsciiDigit c = true := fun c hc => by
  rw [List.eq_of_mem_replicate hc]
  rfl

/-- The numeral stands for `c * 10 ^ p`: as an integer, or as so many units of the last digit. -/
inductive Numeral.Writes (w : Numeral) (c : Nat) (p : Int) : Prop
  | integer (plain : (w.frac.isEmpty && w.expo.isNone) = true) (nonneg : 0 ≤ p)
      (value : digitsValue w.whole = c * 10 ^ p.toNat)
  | decimal (marked : (w.frac.isEmpty && w.expo.isNone) = false)
      (value : digitsValue (w.whole ++ w.frac) = c) (place : w.expo.getD 0 - w.frac.length = p)
      (length : p + (w.whole ++ w.frac).length = 1 ∨ w.whole ++ w.frac = Nat.toDigits 10 c)

section

variable {c : Nat} {p : Int}

/-- A number below one: zeros after the point, then the digits. -/
theorem exists_numeral_small (h : p + (Nat.toDigits 10 c).length - 1 < 0) :
    ∃ w : Numeral, w.chars = '0' :: '.' :: (List.replicate
        ((-(p + (Nat.toDigits 10 c).length - 1)).toNat - 1) '0' ++ Nat.toDigits 10 c) ∧
      w.Valid ∧ w.Writes c p := by
  have hne : Nat.toDigits 10 c ≠ [] := Nat.toDigits_ne_nil
  refine ⟨⟨['0'], List.replicate ((-(p + (Nat.toDigits 10 c).length - 1)).toNat - 1) '0' ++
    Nat.toDigits 10 c, none⟩, ?_, ⟨?_, ?_, .inl rfl, ?_⟩, .decimal ?_ ?_ ?_ (.inl ?_)⟩
  · simp [Numeral.chars, Numeral.fracChars, Numeral.expoChars, hne]
  · simp [isAsciiDigit]
  · exact List.forall_mem_append.mpr ⟨isAsciiDigit_of_mem_zeros _, isAsciiDigit_of_mem_toDigits⟩
  · simp [maxIntegerDigits]
  · simp [hne]
  · rw [← List.append_assoc, List.singleton_append, ← List.replicate_succ,
      digitsValue_zeros_append, digitsValue_toDigits]
  · simp
    omega
  · simp
    omega

variable (hc : 0 < c)

include hc

/-- A whole number: the digits, then zeros. -/
theorem exists_numeral_whole (hp : 0 ≤ p) (h : p + (Nat.toDigits 10 c).length - 1 < 16) :
    ∃ w : Numeral, w.chars = Nat.toDigits 10 c ++ List.replicate p.toNat '0' ∧ w.Valid ∧
      w.Writes c p := by
  obtain ⟨d, s, hs, hd⟩ := exists_toDigits_eq_cons hc
  refine ⟨⟨Nat.toDigits 10 c ++ List.replicate p.toNat '0', [], none⟩, ?_,
    ⟨?_, ?_, .inr ⟨d, s ++ List.replicate p.toNat '0', by rw [hs]; rfl, hd⟩, ?_⟩,
    .integer rfl hp ?_⟩
  · simp [Numeral.chars, Numeral.fracChars, Numeral.expoChars]
  · exact List.forall_mem_append.mpr ⟨isAsciiDigit_of_mem_toDigits, isAsciiDigit_of_mem_zeros _⟩
  · simp
  · simp [maxIntegerDigits]
    omega
  · rw [digitsValue_append_zeros, digitsValue_toDigits]

/-- The point stands between the digits. -/
theorem exists_numeral_pointed {k : Nat} (hp : p < 0)
    (hk : (k : Int) = p + (Nat.toDigits 10 c).length - 1) (h : k < 16) :
    ∃ w : Numeral, w.chars = (Nat.toDigits 10 c).take (k + 1) ++
        '.' :: (Nat.toDigits 10 c).drop (k + 1) ∧ w.Valid ∧ w.Writes c p := by
  obtain ⟨d, s, hs, hd⟩ := exists_toDigits_eq_cons hc
  have hfrac : ((Nat.toDigits 10 c).drop (k + 1)).isEmpty = false := by
    simp
    omega
  refine ⟨⟨(Nat.toDigits 10 c).take (k + 1), (Nat.toDigits 10 c).drop (k + 1), none⟩, ?_,
    ⟨?_, ?_, .inr ⟨d, s.take k, by rw [hs]; rfl, hd⟩, ?_⟩, .decimal ?_ ?_ ?_ (.inr ?_)⟩
  · simp only [Numeral.chars, Numeral.fracChars, Numeral.expoChars, hfrac]
    simp
  · exact fun a ha => isAsciiDigit_of_mem_toDigits a (List.mem_of_mem_take ha)
  · exact fun a ha => isAsciiDigit_of_mem_toDigits a (List.mem_of_mem_drop ha)
  · simp [maxIntegerDigits]
    omega
  · rw [hfrac]
    rfl
  · rw [List.take_append_drop, digitsValue_toDigits]
  · simp
    omega
  · rw [List.take_append_drop]

/-- One digit before the point, and the exponent. -/
theorem exists_numeral_far (e : Int) (he : e = p + (Nat.toDigits 10 c).length - 1) :
    ∃ w : Numeral, w.chars = (Nat.toDigits 10 c).take 1 ++
        ((if (Nat.toDigits 10 c).length == 1 then [] else ['.']) ++
          ((Nat.toDigits 10 c).drop 1 ++ (exponentText e).toList)) ∧ w.Valid ∧ w.Writes c p := by
  obtain ⟨d, s, hs, hd⟩ := exists_toDigits_eq_cons hc
  refine ⟨⟨(Nat.toDigits 10 c).take 1, (Nat.toDigits 10 c).drop 1, some e⟩, ?_,
    ⟨?_, ?_, .inr ⟨d, [], by rw [hs]; rfl, hd⟩, ?_⟩, .decimal ?_ ?_ ?_ (.inr ?_)⟩
  · simp only [Numeral.chars, Numeral.fracChars, Numeral.expoChars, hs]
    cases s <;> simp
  · exact fun a ha => isAsciiDigit_of_mem_toDigits a (List.mem_of_mem_take ha)
  · exact fun a ha => isAsciiDigit_of_mem_toDigits a (List.mem_of_mem_drop ha)
  · simp [maxIntegerDigits]
  · simp
  · rw [List.take_append_drop, digitsValue_toDigits]
  · simp [hs] at he ⊢
    omega
  · rw [List.take_append_drop]

/-- Every layout of digits is a numeral for the number. -/
theorem exists_numeral (p : Int) : ∃ w : Numeral, w.chars = (layOut briefLayout c p).toList ∧
    w.Valid ∧ w.Writes c p := by
  rw [layOut]
  simp only [toList_toString, briefLayout]
  split
  next hfixed =>
    simp only [Bool.and_eq_true, decide_eq_true_eq] at hfixed
    split
    next hneg => simpa using exists_numeral_small hneg
    split
    next hwhole => simpa using exists_numeral_whole hc hwhole hfixed.2
    next hneg hfrac =>
      simpa using exists_numeral_pointed hc (not_le.mp hfrac)
        (Int.toNat_of_nonneg (not_lt.mp hneg)) (by omega)
  next =>
    have := exists_numeral_far hc (p := p) _ rfl
    simp only [String.toList_append, String.toList_ofList, apply_ite String.toList]
    simpa using this

theorem pow_le_of_length :
    10 ^ ((Nat.toDigits 10 c).length - 1) ≤ c ∧ c < 10 ^ (Nat.toDigits 10 c).length := by
  have hpos : 0 < (Nat.toDigits 10 c).length := Nat.length_toDigits_pos
  refine ⟨?_, (Nat.length_toDigits_le_iff (by decide) hpos).mp le_rfl⟩
  by_contra hlt
  obtain hone | hmore := Nat.eq_zero_or_pos ((Nat.toDigits 10 c).length - 1)
  · rw [hone, pow_zero] at hlt
    omega
  · have := (Nat.length_toDigits_le_iff (by decide) hmore).mpr (not_le.mp hlt)
    omega

omit hc in
theorem ofInt?_signed {neg : Bool} {n : Nat} (hn : 0 < n)
    (hfinite : (nearest neg n 1).isInf = false) :
    ofInt? (if neg then -(n : Int) else n) = some (nearest neg n 1) := by
  have hsign : decide ((if neg then -(n : Int) else n) < 0) = neg := by
    cases neg <;> simp
    omega
  have habs : (if neg then -(n : Int) else n).natAbs = n := by
    cases neg <;> simp
  rw [ofInt?, habs, hsign, hfinite]
  rfl

omit hc in
theorem two_zpow_lt_ten_zpow : (2 : ℚ) ^ (3 * 400 : ℤ) < 10 ^ (400 : ℤ) := by
  rw [zpow_mul]
  exact zpow_lt_zpow_left₀ (by norm_num) (by norm_num) (by norm_num)

/-- A number around a double has its digits within the range of readable exponents. -/
theorem places_bounds {b : Binary} (hb : b.Canonical) (hmant : 0 < b.mant)
    (hcovers : b.Covers (c * 10 ^ p)) :
    p + (Nat.toDigits 10 c).length ≤ 400 ∧ -400 ≤ p + (Nat.toDigits 10 c).length := by
  obtain ⟨hbelow, habove⟩ := hb.interval_bounds hmant
  obtain ⟨hle, hlt⟩ := pow_le_of_length hc
  have hpos : 0 < (Nat.toDigits 10 c).length := Nat.length_toDigits_pos
  generalize (Nat.toDigits 10 c).length = k at hle hlt hpos ⊢
  have hten (m : ℕ) : ((10 ^ m : ℕ) * 10 ^ p : ℚ) = 10 ^ (p + m) := by
    rw [Nat.cast_pow, Nat.cast_ofNat, ← zpow_natCast, ← zpow_add₀ (by norm_num), add_comm]
  have hunit : (0 : ℚ) < 10 ^ p := by positivity
  constructor
  · by_contra hfar
    refine two_zpow_lt_ten_zpow.not_ge ?_
    calc (10 : ℚ) ^ (400 : ℤ) ≤ 10 ^ (p + (k - 1 : ℕ)) :=
            zpow_le_zpow_right₀ (by norm_num) (by omega)
        _ = (10 ^ (k - 1) : ℕ) * 10 ^ p := (hten _).symm
        _ ≤ c * 10 ^ p := by gcongr
        _ ≤ 2 ^ (1024 : ℤ) := hcovers.high.trans habove
        _ ≤ 2 ^ (3 * 400 : ℤ) := zpow_le_zpow_right₀ one_le_two (by norm_num)
  · by_contra hfar
    have hinv : (2 : ℚ) ^ (-(3 * 400) : ℤ) < 10 ^ (-400 : ℤ) :=
      calc (2 : ℚ) ^ (-(3 * 400) : ℤ) ≤ 2 ^ (-1076 : ℤ) :=
            zpow_le_zpow_right₀ one_le_two (by norm_num)
        _ ≤ c * 10 ^ p := hbelow.trans hcovers.low
        _ < (10 ^ k : ℕ) * 10 ^ p := by gcongr
        _ = 10 ^ (p + k) := hten k
        _ ≤ 10 ^ (-400 : ℤ) := zpow_le_zpow_right₀ (by norm_num) (by omega)
    rw [zpow_neg, zpow_neg, inv_lt_inv₀ (by positivity) (by positivity)] at hinv
    exact hinv.not_gt two_zpow_lt_ten_zpow

/-- What is read from a numeral around a double is the double. -/
theorem toFloat_literal {x : Float} {b : Binary} (hx : ofFloat? x = some b) (hmant : 0 < b.mant)
    (hcovers : b.Covers (c * 10 ^ p)) {w : Numeral} (hwrites : w.Writes c p) :
    (w.literal b.neg).toFloat = .ok x := by
  obtain ⟨hb, hunits⟩ := ofFloat?_canonical hx
  cases hwrites with
  | integer plain nonneg value =>
    have hpos : 0 < c * 10 ^ p.toNat := Nat.mul_pos hc (Nat.pow_pos (by norm_num))
    have hnearest : nearest b.neg (c * 10 ^ p.toNat) 1 = x := by
      rw [nearest_of_covers hb hmant Nat.one_pos, hunits]
      have := ten_zpow_eq_natCast nonneg
      rw [Nat.pow_eq] at this
      rwa [Nat.cast_mul, this, Nat.cast_one, div_one]
    have hfinite : x.isInf = false := by
      rw [← hunits]
      exact isInf_ofUnits b.neg hb.mant_lt hb.le_exp hb.exp_le
    have hint := ofInt?_signed hpos (hnearest ▸ hfinite)
    rw [Numeral.literal, if_pos plain, value, Literal.toFloat, hint, hnearest]
  | decimal marked value place length =>
    -- Exponents far out of range are read as zero or infinite; those around a double are not far.
    obtain ⟨hle, hge⟩ := places_bounds hc hb hmant hcovers
    have hbounds : ¬ 400 < p + (w.whole ++ w.frac).length ∧
        ¬ p + (w.whole ++ w.frac).length < -400 := by
      obtain hone | hdigits := length
      · omega
      · rw [hdigits]
        omega
    rw [Numeral.literal, if_neg (by simp [marked]), value, place, Literal.toFloat, scaled,
      if_neg (by simpa using hc.ne'), if_neg hbounds.1, if_neg hbounds.2]
    split
    next hp =>
      rw [nearest_of_covers hb hmant Nat.one_pos, hunits]
      rwa [Nat.cast_mul, ten_zpow_eq_natCast hp, Nat.cast_one, div_one]
    next hp =>
      have hpow : 0 < Nat.pow 10 (-p).toNat := Nat.pow_pos (by norm_num)
      rw [nearest_of_covers hb hmant hpow, hunits]
      rwa [ten_zpow_eq_inv (not_le.mp hp), div_inv_eq_mul]

end

/-- Equal as numbers, or both no number. -/
def Agrees (x y : Float) : Prop := y.isNaN = x.isNaN ∧ (x.isNaN = false → (y == x) = true)

theorem Agrees.refl (x : Float) : Agrees x x := by
  refine ⟨rfl, fun hx => ?_⟩
  rw [Float.isNaN_eq_decide_eq_nan, decide_eq_false_iff_not] at hx
  exact Float.beq_self_iff.mpr hx

theorem agrees_zero (neg : Bool) : Agrees (ofUnits neg 0 (-1074)) (nearest false 0 1) := by
  cases neg
  · exact Agrees.refl _
  · constructor
    · decide
    · decide

/-- The brief text of a finite double is read back as an equal one. -/
theorem exists_numeral_brief {x : Float} {b : Binary} (hx : ofFloat? x = some b) :
    ∃ (w : Numeral) (y : Float), (brief x).toList = Numeral.signChars b.neg ++ w.chars ∧ w.Valid ∧
      (w.literal b.neg).toFloat = .ok y ∧ Agrees x y := by
  obtain ⟨hb, hunits⟩ := ofFloat?_canonical hx
  have hsign : (if b.neg then "-" else "" : String).toList = Numeral.signChars b.neg := by
    cases b.neg <;> rfl
  rw [brief, shortestIn, hx]
  simp only [String.toList_append, hsign]
  obtain hzero | hmant := Nat.eq_zero_or_pos b.mant
  · -- Either zero is read as the integer zero, which has no sign.
    have hexp : b.exp = -1074 := by
      by_contra hexp
      have := hb.normal (by have := hb.le_exp; omega)
      omega
    rw [hzero, hexp] at hunits
    refine ⟨⟨['0'], [], none⟩, nearest false 0 1, ?_, ⟨by simp [isAsciiDigit], by simp, .inl rfl,
      by simp [maxIntegerDigits]⟩, ?_, hunits ▸ agrees_zero b.neg⟩
    · rw [hzero, if_pos (by rfl), if_neg (by decide)]
      rfl
    · cases b.neg <;> rfl
  · have hcovers := Binary.covers_shortest hb hmant
    have hdigits : 0 < b.shortest.1 := by
      by_contra hnone
      have hpos := (zpow_pos two_pos _).trans_le ((hb.interval_bounds hmant).1.trans hcovers.low)
      rw [Nat.eq_zero_of_not_pos hnone, Nat.cast_zero, zero_mul] at hpos
      exact lt_irrefl _ hpos
    obtain ⟨w, hchars, hvalid, hwrites⟩ := exists_numeral hdigits b.shortest.2
    rw [if_neg (by simpa using hmant.ne')]
    exact ⟨w, x, by rw [hchars], hvalid, toFloat_literal hdigits hx hmant hcovers hwrites, .refl x⟩

end Simultaneous.Literal
