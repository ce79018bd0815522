import Simultaneous.Decimal.Shortest
import Simultaneous.Proofs.Decimal.Nearest

/-!
The interval of a double: every quotient between the midpoints to its neighbours has it as nearest
double, and so has a midpoint when the mantissa is even.
-/

namespace Simultaneous.Decimal

/-- A number lies no further than a half from `k`, and nearer when `k` is odd. -/
structure RoundsTo (v : ℚ) (k : ℕ) : Prop where
  low : (k : ℚ) - 1 / 2 ≤ v
  high : v ≤ k + 1 / 2
  strict : k % 2 = 1 → (k : ℚ) - 1 / 2 < v ∧ v < k + 1 / 2

section

variable {n d k : ℕ} {q : ℤ}

theorem roundDiv_eq (hd : 0 < d) (h : RoundsTo (n / d) k) : roundDiv n d = k := by
  have hd' : (0 : ℚ) < d := by exact_mod_cast hd
  have hlow : 2 * (k * d) ≤ 2 * n + d := by
    have := (le_div_iff₀ hd').mp h.low
    have : (2 * (k * d) : ℚ) ≤ 2 * n + d := by linarith
    exact_mod_cast this
  have hhigh : 2 * n ≤ 2 * (k * d) + d := by
    have := (div_le_iff₀ hd').mp h.high
    have : (2 * n : ℚ) ≤ 2 * (k * d) + d := by linarith
    exact_mod_cast this
  have hstrict : k % 2 = 1 → 2 * (k * d) < 2 * n + d ∧ 2 * n < 2 * (k * d) + d := fun hk => by
    obtain ⟨hl, hh⟩ := h.strict hk
    have hl := (lt_div_iff₀ hd').mp hl
    have hh := (div_lt_iff₀ hd').mp hh
    have hl : (2 * (k * d) : ℚ) < 2 * n + d := by linarith
    have hh : (2 * n : ℚ) < 2 * (k * d) + d := by linarith
    exact ⟨by exact_mod_cast hl, by exact_mod_cast hh⟩
  have hn := Nat.div_add_mod n d
  have hr := Nat.mod_lt n hd
  have hkn : k = n / d ∨ k = n / d + 1 := by
    have hbelow : 2 * k < 2 * (n / d) + 3 := Nat.lt_of_mul_lt_mul_left (a := d) (by grind)
    have habove : 2 * (n / d) ≤ 2 * k + 1 := Nat.le_of_mul_le_mul_left (c := d) (by grind) hd
    omega
  rw [roundDiv]
  obtain hk | hk := hkn
  · have hkd : k * d = d * (n / d) := by rw [hk, Nat.mul_comm]
    split_ifs <;> omega
  · have hkd : k * d = d * (n / d) + d := by rw [hk]; ring
    split_ifs <;> omega

/-- The leading digit is the only one whose powers of two enclose the quotient. -/
theorem leading_eq (hn : 0 < n) (hd : 0 < d) (hlow : (d : ℚ) * 2 ^ q ≤ n)
    (hhigh : (n : ℚ) < d * 2 ^ (q + 1)) : leading n d = q := by
  obtain ⟨hl, hh⟩ := leading_spec hn hd
  have hd' : (0 : ℚ) < d := by exact_mod_cast hd
  have h1 := (zpow_lt_zpow_iff_right₀ one_lt_two).mp
    (lt_of_mul_lt_mul_left (hlow.trans_lt hh) hd'.le)
  have h2 := (zpow_lt_zpow_iff_right₀ one_lt_two).mp
    (lt_of_mul_lt_mul_left (hl.trans_lt hhigh) hd'.le)
  omega

theorem inUnits_eq (hd : 0 < d) (h : RoundsTo (n / (d * 2 ^ q)) k) : inUnits n d q = k := by
  rw [inUnits]
  split
  next hq =>
    refine roundDiv_eq (Nat.mul_pos hd (Nat.pow_pos Nat.two_pos)) ?_
    rwa [Nat.cast_mul, natCast_pow_toNat hq]
  next hq =>
    refine roundDiv_eq hd ?_
    rwa [Nat.cast_mul, natCast_pow_toNat_neg (not_le.mp hq), mul_comm, mul_div_assoc,
      ← div_eq_inv_mul, div_div]

end

namespace Binary

/-- The mantissa is as long as it can be, and the double is neither too small nor too large. -/
structure Canonical (b : Binary) : Prop where
  mant_lt : b.mant < 2 ^ 53
  le_exp : -1074 ≤ b.exp
  exp_le : b.exp ≤ 971
  normal : -1074 < b.exp → 2 ^ 52 ≤ b.mant

/-- Quarters of the last place down to the midpoint below: the neighbour below a power of two is
nearer. -/
def gap (b : Binary) : Nat := if b.mant == Nat.pow 2 52 && b.exp != -1074 then 1 else 2

/-- A number between the midpoints to the neighbours of a double. -/
structure Covers (b : Binary) (v : ℚ) : Prop where
  low : (4 * b.mant - b.gap : ℚ) * 2 ^ (b.exp - 2) ≤ v
  high : v ≤ (4 * b.mant + 2 : ℚ) * 2 ^ (b.exp - 2)
  strict : b.mant % 2 = 1 →
    (4 * b.mant - b.gap : ℚ) * 2 ^ (b.exp - 2) < v ∧ v < (4 * b.mant + 2 : ℚ) * 2 ^ (b.exp - 2)

end Binary

/-- The fields of a double make it up again. -/
theorem ofFloat?_canonical {x : Float} {b : Binary} (h : ofFloat? x = some b) :
    b.Canonical ∧ ofUnits b.neg b.mant b.exp = x := by
  have hbits : x.toBits.toNat < 2 ^ 64 := x.toBits.toNat_lt
  have hx : Float.ofBits (UInt64.ofNat x.toBits.toNat) = x := by
    rw [UInt64.ofNat_toNat, Float.ofBits_toBits]
  have hsign :
      signBit (decide (x.toBits.toNat / 2 ^ 63 = 1)) = x.toBits.toNat / 2 ^ 63 * 2 ^ 63 := by
    have : x.toBits.toNat / 2 ^ 63 = 0 ∨ x.toBits.toNat / 2 ^ 63 = 1 := by omega
    obtain h | h := this <;> rw [h] <;> rfl
  rw [ofFloat?] at h
  simp only [Nat.pow_eq] at h
  generalize x.toBits.toNat = n at h hx hsign hbits
  split at h
  · cases h
  next hfield =>
    have hfield : n / 2 ^ 52 % 2048 ≠ 2047 := by simpa using hfield
    split at h <;> cases h
    next hzero =>
      have hzero : n / 2 ^ 52 % 2048 = 0 := by simpa using hzero
      refine ⟨⟨by simp only; omega, by simp, by simp, by simp⟩, ?_⟩
      rw [ofUnits, if_pos (Nat.mod_lt n (Nat.pow_pos Nat.two_pos)), hsign, ← hx]
      exact congrArg (fun k => Float.ofBits (UInt64.ofNat k)) (by simp only; omega)
    next hzero =>
      have hzero : n / 2 ^ 52 % 2048 ≠ 0 := by simpa using hzero
      refine ⟨⟨by simp only; omega, by simp only; omega, by simp only; omega, by simp⟩, ?_⟩
      rw [ofUnits]
      simp only [Nat.pow_eq]
      rw [if_neg (by omega), if_neg (by omega), hsign, ← hx]
      exact congrArg (fun k => Float.ofBits (UInt64.ofNat k)) (by omega)

namespace Binary

variable {b : Binary} {v : ℚ}

theorem gap_eq (b : Binary) : b.gap = 1 ∧ b.mant = 2 ^ 52 ∧ b.exp ≠ -1074 ∨
    b.gap = 2 ∧ ¬ (b.mant = 2 ^ 52 ∧ b.exp ≠ -1074) := by
  rw [gap]
  split
  next h => exact .inl ⟨rfl, by simpa using h⟩
  next h => exact .inr ⟨rfl, by simpa using h⟩

theorem gap_le (b : Binary) : (b.gap : ℚ) ≤ 2 := by
  obtain ⟨h, -⟩ | ⟨h, -⟩ := b.gap_eq <;> rw [h] <;> norm_num

/-- The same in units of the last place. -/
theorem Covers.units (h : b.Covers v) :
    (b.mant - b.gap / 4 : ℚ) ≤ v / 2 ^ b.exp ∧ v / 2 ^ b.exp ≤ b.mant + 1 / 2 ∧
      (b.mant % 2 = 1 →
        (b.mant - b.gap / 4 : ℚ) < v / 2 ^ b.exp ∧ v / 2 ^ b.exp < b.mant + 1 / 2) := by
  have hquarter : (2 : ℚ) ^ (b.exp - 2) = 2 ^ b.exp / 4 := by
    rw [zpow_sub₀ two_ne_zero]
    norm_num
  have hunit : (0 : ℚ) < 2 ^ b.exp := by positivity
  obtain ⟨hlow, hhigh, hstrict⟩ := h
  rw [hquarter] at hlow hhigh hstrict
  rw [le_div_iff₀ hunit, div_le_iff₀ hunit, lt_div_iff₀ hunit, div_lt_iff₀ hunit]
  refine ⟨by linarith, by linarith, fun hodd => ?_⟩
  obtain ⟨hl, hh⟩ := hstrict hodd
  exact ⟨by linarith, by linarith⟩

end Binary

section

variable {b : Binary} {n d : Nat}

theorem div_unit (n d : Nat) (q : ℤ) : (n : ℚ) / (d * 2 ^ q) = n / d / 2 ^ q := by rw [div_div]

/-- The last place kept of a quotient with so many units, at a double with the same unit. -/
theorem lastPlace_eq {q : ℤ} (hn : 0 < n) (hd : 0 < d) (hq : -1074 ≤ q)
    (hlow : q ≠ -1074 → 2 ^ 52 ≤ (n : ℚ) / d / 2 ^ q) (hhigh : (n : ℚ) / d / 2 ^ q < 2 ^ 53) :
    lastPlace n d = q := by
  have hunit : (0 : ℚ) < 2 ^ q := by positivity
  have hd' : (0 : ℚ) < d := by exact_mod_cast hd
  rw [div_lt_iff₀ hunit, ← zpow_natCast, ← zpow_add₀ two_ne_zero, div_lt_iff₀ hd'] at hhigh
  rw [lastPlace]
  by_cases hsub : q = -1074
  · obtain ⟨hl, -⟩ := leading_spec hn hd
    have hlt : (d : ℚ) * 2 ^ leading n d < d * 2 ^ ((53 : ℕ) + q : ℤ) := by linarith
    have := (zpow_lt_zpow_iff_right₀ one_lt_two).mp (lt_of_mul_lt_mul_left hlt hd'.le)
    omega
  · have hlow := hlow hsub
    rw [le_div_iff₀ hunit, ← zpow_natCast, ← zpow_add₀ two_ne_zero, le_div_iff₀ hd'] at hlow
    rw [leading_eq (q := 52 + q) hn hd (by push_cast at hlow; linarith)
      (by rw [show (52 + q + 1 : ℤ) = ((53 : ℕ) : ℤ) + q by omega]; linarith)]
    omega

/-- Just below a power of two the unit of the quotient is half that of the double. -/
theorem nearest_of_covers_power (hb : b.Canonical) (hn : 0 < n) (hd : 0 < d)
    (h : b.Covers (n / d)) (hexp : b.exp ≠ -1074) (hbelow : (n : ℚ) / d / 2 ^ b.exp < 2 ^ 52) :
    nearest b.neg n d = ofUnits b.neg b.mant b.exp := by
  have hleast := hb.le_exp
  obtain ⟨hlow, -, -⟩ := h.units
  have hgap := b.gap_le
  have hnormal : (2 : ℚ) ^ 52 ≤ b.mant := by exact_mod_cast hb.normal (by omega)
  have hpower : b.mant = 2 ^ 52 := by
    have : (b.mant : ℚ) < 2 ^ 52 + 1 := by linarith
    have : b.mant < 2 ^ 52 + 1 := by exact_mod_cast this
    exact le_antisymm (Nat.le_of_lt_succ this) (by exact_mod_cast hnormal)
  have hgap : b.gap = 1 := by
    obtain ⟨hg, -⟩ | ⟨-, hg⟩ := b.gap_eq
    · exact hg
    · exact absurd ⟨hpower, hexp⟩ hg
  rw [hpower, hgap] at hlow
  push_cast at hlow
  have hhalf : (n : ℚ) / d / 2 ^ (b.exp - 1) = 2 * ((n : ℚ) / d / 2 ^ b.exp) := by
    rw [zpow_sub_one₀ two_ne_zero, mul_comm, ← div_div, div_inv_eq_mul, mul_comm, mul_div_assoc]
  have hlast : lastPlace n d = b.exp - 1 :=
    lastPlace_eq hn hd (by omega) (fun _ => by linarith) (by linarith)
  have hunits : inUnits n d (b.exp - 1) = 2 ^ 53 := by
    refine inUnits_eq hd ⟨?_, ?_, fun hodd => absurd hodd (by decide)⟩
    all_goals
      rw [div_unit, hhalf]
      push_cast
      linarith
  rw [nearest_eq b.neg hn.ne', hlast, hunits, if_pos (by rfl), hpower, sub_add_cancel]
  rfl

/-- What lies between the midpoints around a double is rounded to it. -/
theorem nearest_of_covers (hb : b.Canonical) (hmant : 0 < b.mant) (hd : 0 < d)
    (h : b.Covers (n / d)) : nearest b.neg n d = ofUnits b.neg b.mant b.exp := by
  obtain ⟨hlow, hhigh, hstrict⟩ := h.units
  have hgap := b.gap_le
  have hmant' : (1 : ℚ) ≤ b.mant := by exact_mod_cast hmant
  have hlt : (b.mant : ℚ) + 1 ≤ 2 ^ 53 := by exact_mod_cast hb.mant_lt
  have hn : 0 < n := by
    by_contra hn
    obtain rfl : n = 0 := by omega
    simp at hlow
    linarith
  -- Only below a power of two has the quotient another unit than the double.
  by_cases hpower : b.exp ≠ -1074 ∧ (n : ℚ) / d / 2 ^ b.exp < 2 ^ 52
  · exact nearest_of_covers_power hb hn hd h hpower.1 hpower.2
  have hlast : lastPlace n d = b.exp :=
    lastPlace_eq hn hd hb.le_exp (fun hexp => not_lt.mp fun hlt => hpower ⟨hexp, hlt⟩)
      (by linarith)
  have hunits : inUnits n d b.exp = b.mant := by
    refine inUnits_eq hd ⟨?_, ?_, fun hodd => ?_⟩
    all_goals rw [div_unit]
    · linarith
    · linarith
    · obtain ⟨hl, hh⟩ := hstrict hodd
      exact ⟨by linarith, by linarith⟩
  rw [nearest_eq b.neg hn.ne', hlast, hunits, if_neg]
  simpa using hb.mant_lt.ne

end

end Simultaneous.Decimal
