import Mathlib
import Simultaneous.Decimal.Places

/-!
The nearest double of a quotient. It is finite as long as the quotient does not exceed the largest
double, and so is a finite double after it has been rounded to decimal places.
-/

namespace Simultaneous.Decimal

open Float.Model Float.Model.UnpackedFloat

section

variable {n d k : Nat} {q : Int}

theorem roundDiv_le (hd : 0 < d) (h : n ≤ k * d) : roundDiv n d ≤ k := by
  obtain hlt | rfl := h.lt_or_eq
  · have hq : n / d < k := (Nat.div_lt_iff_lt_mul hd).mpr hlt
    rw [roundDiv]
    split_ifs <;> omega
  · simp [roundDiv, hd]

theorem natCast_pow_toNat (h : 0 ≤ q) : ((Nat.pow 2 q.toNat : Nat) : ℚ) = 2 ^ q := by
  obtain ⟨m, rfl⟩ := Int.eq_ofNat_of_zero_le h
  simp

theorem natCast_pow_toNat_neg (h : q < 0) : ((Nat.pow 2 (-q).toNat : Nat) : ℚ) = (2 ^ q)⁻¹ := by
  rw [natCast_pow_toNat (by omega), zpow_neg]

/-- The quotient of two numbers is below a power of two. -/
def isBelow (n d : Nat) (q : Int) : Bool :=
  if 0 ≤ q then decide (n < d * Nat.pow 2 q.toNat) else decide (n * Nat.pow 2 (-q).toNat < d)

theorem isBelow_iff : isBelow n d q = true ↔ (n : ℚ) < d * 2 ^ q := by
  rw [isBelow]
  split
  next h => rw [decide_eq_true_iff, ← natCast_pow_toNat h, ← Nat.cast_mul, Nat.cast_lt]
  next h =>
    rw [decide_eq_true_iff, ← Nat.cast_lt (α := ℚ), Nat.cast_mul,
      natCast_pow_toNat_neg (not_le.mp h), mul_inv_lt_iff₀ (by positivity)]

/-- The exponent of the leading binary digit of `n / d`. -/
def leading (n d : Nat) : Int :=
  let k : Int := (Nat.log2 n : Int) - Nat.log2 d
  if isBelow n d k then k - 1 else k

theorem leading_spec (hn : 0 < n) (hd : 0 < d) :
    (d : ℚ) * 2 ^ leading n d ≤ n ∧ (n : ℚ) < d * 2 ^ (leading n d + 1) := by
  have hnlow : (2 : ℚ) ^ (n.log2 : Int) ≤ n := by exact_mod_cast Nat.log2_self_le hn.ne'
  have hnhigh : (n : ℚ) < 2 ^ ((n.log2 : Int) + 1) := by exact_mod_cast Nat.lt_log2_self
  have hdlow : (2 : ℚ) ^ (d.log2 : Int) ≤ d := by exact_mod_cast Nat.log2_self_le hd.ne'
  have hdhigh : (d : ℚ) < 2 ^ ((d.log2 : Int) + 1) := by exact_mod_cast Nat.lt_log2_self
  have hpow : ∀ i j k : Int, i + j = k → (2 : ℚ) ^ k = 2 ^ i * 2 ^ j := fun i j k h => by
    rw [← h, zpow_add₀ two_ne_zero]
  rw [leading]
  split
  next h =>
    refine ⟨?_, by simpa using isBelow_iff.mp h⟩
    calc (d : ℚ) * 2 ^ ((n.log2 : Int) - d.log2 - 1)
        ≤ 2 ^ ((d.log2 : Int) + 1) * 2 ^ ((n.log2 : Int) - d.log2 - 1) := by gcongr
      _ = 2 ^ (n.log2 : Int) := (hpow _ _ _ (by omega)).symm
      _ ≤ n := hnlow
  next h =>
    refine ⟨not_lt.mp (mt isBelow_iff.mpr h), ?_⟩
    calc (n : ℚ) < 2 ^ ((n.log2 : Int) + 1) := hnhigh
      _ = 2 ^ (d.log2 : Int) * 2 ^ ((n.log2 : Int) - d.log2 + 1) := hpow _ _ _ (by omega)
      _ ≤ d * 2 ^ ((n.log2 : Int) - d.log2 + 1) := by gcongr

theorem inUnits_le (hd : 0 < d) (h : (n : ℚ) ≤ k * (d * 2 ^ q)) : inUnits n d q ≤ k := by
  rw [inUnits]
  split
  next hq =>
    refine roundDiv_le (Nat.mul_pos hd (Nat.pow_pos Nat.two_pos)) ?_
    rw [← natCast_pow_toNat hq] at h
    exact_mod_cast h
  next hq =>
    refine roundDiv_le hd ?_
    have : (n : ℚ) * (2 ^ q)⁻¹ ≤ k * d := by
      rwa [mul_inv_le_iff₀ (by positivity), mul_assoc]
    rw [← natCast_pow_toNat_neg (not_le.mp hq)] at this
    exact_mod_cast this

end

theorem toNat_unpackExponent (b : BitVec 64) :
    (@unpackExponent .binary64 b).toNat = b.toNat / 2 ^ 52 % 2048 := by
  change (b.toNat >>> 52) % 2 ^ 11 = _
  rw [Nat.shiftRight_eq_div_pow]

theorem isInf_ofBits {b : UInt64} (h : b.toNat / 2 ^ 52 % 2048 ≠ 2047) :
    (Float.ofBits b).isInf = false := by
  have hexponent : @unpackExponent .binary64 b.toBitVec ≠ -1#11 := by
    intro he
    apply h
    have := toNat_unpackExponent b.toBitVec
    rw [he] at this
    exact this.symm
  have hbits : ¬ @isNaNBits .binary64 b.toBitVec = true := fun hn =>
    hexponent (of_decide_eq_true hn).1
  change (UnpackedFloat.unpack .binary64
    (UnpackedFloat.pack .binary64 (UnpackedFloat.unpack .binary64 b.toBitVec))).isInf = false
  rw [pack_unpack, if_neg hbits, UnpackedFloat.unpack]
  simp only
  rw [if_neg hexponent]
  split
  · split <;> rfl
  · rfl

theorem isInf_ofFields (neg : Bool) {field frac : Nat} (hfield : field < 2047)
    (hfrac : frac < 2 ^ 52) :
    (Float.ofBits (UInt64.ofNat (signBit neg + field * 2 ^ 52 + frac))).isInf = false := by
  have hsign : signBit neg = 0 ∨ signBit neg = 2 ^ 63 := by
    cases neg
    · exact .inl rfl
    · exact .inr rfl
  apply isInf_ofBits
  rw [UInt64.toNat_ofNat']
  omega

/-- The largest double. -/
def largestDouble : Nat := (2 ^ 53 - 1) * 2 ^ 971

theorem largestDouble_lt : largestDouble < 2 ^ 1024 := by
  have hpow : 2 ^ 1024 = 2 ^ 53 * 2 ^ 971 := by rw [← pow_add]
  have hpos : 0 < 2 ^ 971 := by positivity
  rw [largestDouble, hpow]
  generalize 2 ^ 971 = unit at hpos
  omega

/-- The unit of the last digit that a double keeps of a quotient, as a power of two. -/
def lastPlace (n d : Nat) : Int := max (leading n d - 52) (-1074)

section

variable {n d : Nat}

theorem inUnits_lastPlace_le (hn : 0 < n) (hd : 0 < d) : inUnits n d (lastPlace n d) ≤ 2 ^ 53 := by
  refine inUnits_le hd ?_
  obtain ⟨-, hhigh⟩ := leading_spec hn hd
  have hle : leading n d + 1 ≤ 53 + lastPlace n d := by
    have := le_max_left (leading n d - 52) (-1074)
    rw [lastPlace]
    omega
  calc (n : ℚ) ≤ d * 2 ^ (leading n d + 1) := hhigh.le
    _ ≤ d * 2 ^ (53 + lastPlace n d) := by gcongr; exact one_le_two
    _ = (2 ^ 53 : Nat) * (d * 2 ^ lastPlace n d) := by
      rw [zpow_add₀ two_ne_zero]
      push_cast
      ring

theorem lastPlace_le (hn : 0 < n) (hd : 0 < d) (h : n ≤ largestDouble * d) : lastPlace n d ≤ 971 := by
  obtain ⟨hlow, -⟩ := leading_spec hn hd
  have hlarge : (n : ℚ) < d * 2 ^ (1024 : Int) := by
    have : n < 2 ^ 1024 * d := h.trans_lt (Nat.mul_lt_mul_of_pos_right largestDouble_lt hd)
    rw [mul_comm]
    exact_mod_cast this
  have hpow := lt_of_mul_lt_mul_left (hlow.trans_lt hlarge) (Nat.cast_nonneg d)
  have := (zpow_lt_zpow_iff_right₀ one_lt_two).mp hpow
  rw [lastPlace]
  omega

theorem inUnits_le_of_lastPlace_eq (hd : 0 < d) (h : n ≤ largestDouble * d)
    (hq : lastPlace n d = 971) :
    inUnits n d (lastPlace n d) ≤ 2 ^ 53 - 1 := by
  refine inUnits_le hd ?_
  rw [hq]
  have : n ≤ (2 ^ 53 - 1) * (d * 2 ^ 971) := by rwa [mul_comm d, ← mul_assoc]
  exact_mod_cast this

end

/-- The double of `r` units of the `q`-th power of two. -/
def ofUnits (neg : Bool) (r : Nat) (q : Int) : Float :=
  if r < Nat.pow 2 52 then Float.ofBits (UInt64.ofNat (signBit neg + r))
  else if 971 < q then infinity neg
  else Float.ofBits
    (UInt64.ofNat (signBit neg + (q + 1075).toNat * Nat.pow 2 52 + (r - Nat.pow 2 52)))

theorem isInf_ofUnits (neg : Bool) {r : Nat} {q : Int} (hr : r < 2 ^ 53) (hlow : -1074 ≤ q)
    (hhigh : q ≤ 971) : (ofUnits neg r q).isInf = false := by
  rw [ofUnits]
  simp only [Nat.pow_eq]
  split
  next hsmall =>
    have := isInf_ofFields neg (by norm_num : 0 < 2047) hsmall
    rwa [zero_mul, add_zero] at this
  next hlarge =>
    rw [if_neg (not_lt.mpr hhigh)]
    exact isInf_ofFields neg (by omega) (by omega)

/-- A quotient is counted in units of the last place, or in twice that unit when they are one too
many. -/
theorem nearest_eq (neg : Bool) {n d : Nat} (hn : n ≠ 0) :
    nearest neg n d = if inUnits n d (lastPlace n d) == Nat.pow 2 53
      then ofUnits neg (Nat.pow 2 52) (lastPlace n d + 1)
      else ofUnits neg (inUnits n d (lastPlace n d)) (lastPlace n d) := by
  have hunits : nearest neg n d =
      let units := if inUnits n d (lastPlace n d) == Nat.pow 2 53
        then (Nat.pow 2 52, lastPlace n d + 1) else (inUnits n d (lastPlace n d), lastPlace n d)
      ofUnits neg units.1 units.2 := by
    rw [nearest, if_neg (by simpa using hn)]
    rfl
  rw [hunits]
  split
  · rfl
  · rfl

/-- No quotient up to the largest double is too large for a double. -/
theorem isInf_nearest (neg : Bool) {n d : Nat} (hd : 0 < d) (h : n ≤ largestDouble * d) :
    (nearest neg n d).isInf = false := by
  obtain rfl | hn := Nat.eq_zero_or_pos n
  · rw [nearest, if_pos (by rfl)]
    have := isInf_ofFields neg (by norm_num : 0 < 2047) (by norm_num : 0 < 2 ^ 52)
    rwa [zero_mul, add_zero, add_zero] at this
  have hlow : -1074 ≤ lastPlace n d := le_max_right _ _
  have hhigh := lastPlace_le hn hd h
  have hle := inUnits_lastPlace_le hn hd
  have htop := inUnits_le_of_lastPlace_eq hd h
  rw [nearest_eq neg hn.ne']
  simp only [Nat.pow_eq, beq_iff_eq]
  split
  next hr => exact isInf_ofUnits neg (by norm_num) (by omega) (by omega)
  next hr => exact isInf_ofUnits neg (by omega) hlow hhigh

theorem ofFloat?_spec {x : Float} {b : Binary} (h : ofFloat? x = some b) :
    b.mant ≤ 2 ^ 53 - 1 ∧ b.exp ≤ 971 := by
  rw [ofFloat?] at h
  simp only [Nat.pow_eq] at h
  split at h
  · cases h
  next hfield =>
    have hfield : x.toBits.toNat / 2 ^ 52 % 2048 ≠ 2047 := by simpa using hfield
    split at h <;> cases h <;> simp only <;> omega

theorem ratio_le {x : Float} {b : Binary} (h : ofFloat? x = some b) :
    0 < b.ratio.2 ∧ b.ratio.1 ≤ largestDouble * b.ratio.2 := by
  obtain ⟨hmant, hexp⟩ := ofFloat?_spec h
  rw [Binary.ratio]
  split
  next hpos =>
    have hpow : 2 ^ b.exp.toNat ≤ 2 ^ 971 := by
      gcongr
      · exact one_le_two
      · omega
    refine ⟨Nat.one_pos, ?_⟩
    rw [largestDouble, mul_one]
    exact Nat.mul_le_mul hmant hpow
  next =>
    have hpow : 0 < Nat.pow 2 (-b.exp).toNat := Nat.pow_pos Nat.two_pos
    refine ⟨hpow, ?_⟩
    calc b.mant ≤ 2 ^ 53 - 1 := hmant
      _ ≤ largestDouble := Nat.le_mul_of_pos_right _ (by positivity)
      _ ≤ largestDouble * Nat.pow 2 (-b.exp).toNat := Nat.le_mul_of_pos_right _ hpow

/-- A double can be rounded to decimals. -/
theorem exists_roundPlaces? {places : Int} (hplaces : 0 ≤ places) (x : Float) :
    ∃ y, roundPlaces? x places = some y := by
  rw [roundPlaces?]
  split
  · exact ⟨x, rfl⟩
  next b hb =>
    split
    · exact ⟨x, rfl⟩
    rw [if_neg (by omega)]
    obtain ⟨hd, hle⟩ := ratio_le hb
    have hscale : 0 < Nat.pow 10 places.toNat := Nat.pow_pos (by norm_num)
    have hround : roundDiv (b.ratio.1 * Nat.pow 10 places.toNat) b.ratio.2 ≤
        largestDouble * Nat.pow 10 places.toNat := by
      refine roundDiv_le hd ?_
      calc b.ratio.1 * Nat.pow 10 places.toNat
          ≤ largestDouble * b.ratio.2 * Nat.pow 10 places.toNat := Nat.mul_le_mul_right _ hle
        _ = largestDouble * Nat.pow 10 places.toNat * b.ratio.2 := Nat.mul_right_comm _ _ _
    have hfinite := isInf_nearest b.neg hscale hround
    simp only [hfinite]
    exact ⟨_, rfl⟩

end Simultaneous.Decimal
