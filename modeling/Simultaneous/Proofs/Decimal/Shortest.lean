import Simultaneous.Proofs.Decimal.Interval

/-!
The shortest digits of a double. Seventeen digits reach into every interval, so that the search for
a grid with a point in the interval ends with one, and what it finds has the double as its nearest.
-/

namespace Simultaneous.Decimal

section

variable {n d : Nat} {k p : ℤ}

/-- A power with an exponent of either sign, as a quotient of natural numbers. -/
theorem zpow_eq_div {base : ℕ} (hbase : 0 < base) (e : ℤ) :
    (base : ℚ) ^ e = (Nat.pow base e.toNat : ℕ) / (Nat.pow base (-e).toNat : ℕ) := by
  have hne : (base : ℚ) ≠ 0 := by exact_mod_cast hbase.ne'
  simp only [Nat.pow_eq, Nat.cast_pow]
  rw [← zpow_natCast, ← zpow_natCast, ← zpow_sub₀ hne]
  congr 1
  omega

theorem ten_zpow_eq_natCast (h : 0 ≤ p) : ((Nat.pow 10 p.toNat : ℕ) : ℚ) = 10 ^ p := by
  have := zpow_eq_div (by norm_num : 0 < 10) p
  rw [show (-p).toNat = 0 by omega] at this
  simpa using this.symm

theorem ten_zpow_eq_inv (h : p < 0) : ((Nat.pow 10 (-p).toNat : ℕ) : ℚ) = (10 ^ p)⁻¹ := by
  have := zpow_eq_div (by norm_num : 0 < 10) p
  rw [show p.toNat = 0 by omega] at this
  simpa using (congrArg Inv.inv this).symm

/-- The quotient of two numbers is at least a power of ten. -/
def hasReached (n d : Nat) (k : ℤ) : Bool :=
  if 0 ≤ k then decide (d * Nat.pow 10 k.toNat ≤ n) else decide (d ≤ n * Nat.pow 10 (-k).toNat)

theorem hasReached_iff (hd : 0 < d) : hasReached n d k = true ↔ (10 : ℚ) ^ k ≤ n / d := by
  have hd' : (0 : ℚ) < d := by exact_mod_cast hd
  rw [hasReached, le_div_iff₀ hd', mul_comm]
  split
  next hk => rw [decide_eq_true_iff, ← ten_zpow_eq_natCast hk, ← Nat.cast_mul, Nat.cast_le]
  next hk =>
    rw [decide_eq_true_iff, ← Nat.cast_le (α := ℚ), Nat.cast_mul, ten_zpow_eq_inv (not_le.mp hk),
      ← div_eq_mul_inv, le_div_iff₀ (by positivity), mul_comm]

theorem climb_succ (fuel : Nat) :
    climb n d (fuel + 1) k = if hasReached n d k then climb n d fuel (k + 1) else k := rfl

/-- Climbing keeps below the quotient. -/
theorem climb_le (hd : 0 < d) (fuel : Nat) (h : (10 : ℚ) ^ (k - 1) ≤ n / d) :
    (10 : ℚ) ^ (climb n d fuel k - 1) ≤ n / d := by
  induction fuel generalizing k with
  | zero => exact h
  | succ fuel ih =>
    rw [climb_succ]
    split
    next hreached =>
      refine ih ?_
      rw [add_sub_cancel_right]
      exact (hasReached_iff hd).mp hreached
    · exact h

/-- Ten is below `2 ^ (10 / 3)`. -/
theorem ten_pow_le {a m : ℕ} (h : 10 * a ≤ 3 * m + 12) : 10 ^ a ≤ 16 * 2 ^ m := by
  have hcube : (10 ^ a) ^ 3 ≤ (16 * 2 ^ m) ^ 3 :=
    calc (10 ^ a) ^ 3 = (10 ^ 3) ^ a := by rw [← pow_mul, ← pow_mul, mul_comm]
      _ ≤ (2 ^ 10) ^ a := Nat.pow_le_pow_left (by norm_num) a
      _ = 2 ^ (10 * a) := by rw [← pow_mul]
      _ ≤ 2 ^ (3 * m + 12) := by gcongr; norm_num
      _ = (16 * 2 ^ m) ^ 3 := by ring
  exact (Nat.pow_le_pow_iff_left (by norm_num)).mp hcube

/-- Ten is above `2 ^ (33 / 10)`. -/
theorem two_pow_le {a m : ℕ} (h : 10 * m ≤ 33 * a + 80) : 2 ^ m ≤ 256 * 10 ^ a := by
  have htenth : (2 ^ m) ^ 10 ≤ (256 * 10 ^ a) ^ 10 :=
    calc (2 ^ m) ^ 10 = 2 ^ (10 * m) := by rw [← pow_mul, mul_comm]
      _ ≤ 2 ^ (33 * a + 80) := by gcongr; norm_num
      _ = (2 ^ 33) ^ a * 256 ^ 10 := by rw [pow_add, pow_mul]; norm_num
      _ ≤ (10 ^ 10) ^ a * 256 ^ 10 :=
        Nat.mul_le_mul_right _ (Nat.pow_le_pow_left (by norm_num) a)
      _ = (256 * 10 ^ a) ^ 10 := by rw [mul_pow, ← pow_mul, ← pow_mul, mul_comm 10 a, mul_comm]
  exact (Nat.pow_le_pow_iff_left (by norm_num)).mp htenth

/-- The first guess at the number of digits before the point of a double is not too large. -/
theorem guess_le {j : ℤ} (hlow : -1100 ≤ j) (hhigh : j ≤ 1100) :
    (10 : ℚ) ^ (j * 30103 / 100000 - 3) ≤ 2 ^ (j - 1) := by
  generalize hf : j * 30103 / 100000 = f
  rw [zpow_sub₀ (by norm_num), zpow_sub₀ two_ne_zero]
  obtain hj | hj := le_or_gt 0 j
  · obtain ⟨a, rfl⟩ := Int.eq_ofNat_of_zero_le (show 0 ≤ f by omega)
    obtain ⟨m, rfl⟩ := Int.eq_ofNat_of_zero_le hj
    have hpow : (10 : ℚ) ^ a ≤ 16 * 2 ^ m := by exact_mod_cast ten_pow_le (by omega)
    have hpos : (0 : ℚ) < 2 ^ m := by positivity
    rw [zpow_natCast, zpow_natCast]
    norm_num
    linarith
  · obtain ⟨a, rfl⟩ := Int.eq_negSucc_of_lt_zero (show f < 0 by omega)
    obtain ⟨m, rfl⟩ := Int.eq_negSucc_of_lt_zero hj
    have hpow : (2 : ℚ) ^ (m + 1) ≤ 256 * 10 ^ (a + 1) := by
      exact_mod_cast two_pow_le (by omega)
    have hinv : ((10 : ℚ) ^ (a + 1))⁻¹ ≤ 256 * (2 ^ (m + 1))⁻¹ := by
      rw [inv_le_iff_one_le_mul₀ (by positivity), ← div_eq_mul_inv, div_mul_eq_mul_div,
        one_le_div₀ (by positivity)]
      exact hpow
    have hpos : (0 : ℚ) < (2 ^ (m + 1))⁻¹ := by positivity
    rw [zpow_negSucc, zpow_negSucc]
    norm_num
    linarith

theorem magnitude_le (hn : 0 < n) (hd : 0 < d) (hlow : (2 : ℚ) ^ (-1098 : ℤ) ≤ n / d)
    (hhigh : (n : ℚ) / d ≤ 2 ^ (1098 : ℤ)) : (10 : ℚ) ^ (magnitude n d - 1) ≤ n / d := by
  have hd' : (0 : ℚ) < d := by exact_mod_cast hd
  obtain ⟨hl, hh⟩ := leading_spec hn hd
  rw [mul_comm, ← le_div_iff₀ hd'] at hl
  rw [mul_comm, ← div_lt_iff₀ hd'] at hh
  have hle := (zpow_le_zpow_iff_right₀ one_lt_two).mp (hl.trans hhigh)
  have hge := (zpow_lt_zpow_iff_right₀ one_lt_two).mp (hlow.trans_lt hh)
  have hlog : leading n d = (n.log2 : ℤ) - d.log2 - 1 ∨ leading n d = (n.log2 : ℤ) - d.log2 := by
    rw [leading]
    split
    · exact .inl rfl
    · exact .inr rfl
  rw [magnitude]
  refine climb_le hd 8 ?_
  calc (10 : ℚ) ^ (((n.log2 : ℤ) - d.log2) * 30103 / 100000 - 2 - 1)
      = 10 ^ (((n.log2 : ℤ) - d.log2) * 30103 / 100000 - 3) := by rw [sub_sub]; norm_num
    _ ≤ 2 ^ ((n.log2 : ℤ) - d.log2 - 1) := guess_le (by omega) (by omega)
    _ ≤ 2 ^ leading n d := zpow_le_zpow_right₀ one_le_two (by omega)
    _ ≤ n / d := hl

end

namespace Interval

variable {i : Interval} {c : Nat} {k p : ℤ}

/-- A point of a grid lies in an interval. -/
theorem holds_iff (hden : 0 < i.den) : i.holds c p = true ↔
    if i.closed then (i.low / i.den : ℚ) ≤ c * 10 ^ p ∧ (c * 10 ^ p : ℚ) ≤ i.high / i.den
    else (i.low / i.den : ℚ) < c * 10 ^ p ∧ (c * 10 ^ p : ℚ) < i.high / i.den := by
  have hden' : (0 : ℚ) < i.den := by exact_mod_cast hden
  rw [holds]
  generalize hx : (if 0 ≤ p then c * Nat.pow 10 p.toNat * i.den else c * i.den) = x
  generalize hscale : (if 0 ≤ p then 1 else Nat.pow 10 (-p).toNat) = scale
  have hpoint : 0 < scale ∧ (x : ℚ) = c * 10 ^ p * i.den * scale := by
    obtain hp | hp := le_or_gt 0 p
    · rw [if_pos hp] at hx hscale
      rw [← hx, ← hscale, ← ten_zpow_eq_natCast hp]
      push_cast
      exact ⟨trivial, (mul_one _).symm⟩
    · rw [if_neg (not_le.mpr hp)] at hx hscale
      rw [← hx, ← hscale, ten_zpow_eq_inv hp]
      push_cast
      refine ⟨Nat.pow_pos (by norm_num), ?_⟩
      field_simp
  obtain ⟨hpos, hx⟩ := hpoint
  have hpos' : (0 : ℚ) < scale := by exact_mod_cast hpos
  have habove (a : ℕ) : (a : ℚ) ≤ c * 10 ^ p * i.den ↔ a * scale ≤ x := by
    rw [← mul_le_mul_iff_left₀ hpos', ← hx]
    norm_cast
  have hbelow (a : ℕ) : c * 10 ^ p * i.den ≤ (a : ℚ) ↔ x ≤ a * scale := by
    rw [← mul_le_mul_iff_left₀ hpos', ← hx]
    norm_cast
  rw [div_le_iff₀ hden', le_div_iff₀ hden', div_lt_iff₀ hden', lt_div_iff₀ hden']
  split <;> rw [Bool.and_eq_true, decide_eq_true_iff, decide_eq_true_iff]
  · rw [habove, hbelow]
  · rw [lt_iff_lt_of_le_iff_le (habove _), lt_iff_lt_of_le_iff_le (hbelow _)]

/-- The units below the value, and the next one is above it. -/
theorem floorUnits_spec (n d : Nat) (p : ℤ) :
    ((floorUnits n d p).1 : ℚ) * 10 ^ p ≤ n / d ∧
      (n / d : ℚ) < ((floorUnits n d p).1 + 1) * 10 ^ p := by
  have hfloor (a b : ℕ) : ((a / b : ℕ) : ℚ) ≤ a / b ∧ (a / b : ℚ) < (a / b : ℕ) + 1 := by
    rw [← Nat.floor_div_eq_div (K := ℚ)]
    exact ⟨Nat.floor_le (by positivity), Nat.lt_floor_add_one _⟩
  have hunit : (0 : ℚ) < 10 ^ p := by positivity
  rw [← le_div_iff₀ hunit, ← div_lt_iff₀ hunit, floorUnits]
  obtain hp | hp := le_or_gt 0 p
  · simp only [if_pos hp]
    have := hfloor n (d * Nat.pow 10 p.toNat)
    rwa [Nat.cast_mul, ten_zpow_eq_natCast hp, ← div_div] at this
  · simp only [if_neg (not_le.mpr hp)]
    have := hfloor (n * Nat.pow 10 (-p).toNat) d
    rwa [Nat.cast_mul, ten_zpow_eq_inv hp, ← div_eq_mul_inv, div_right_comm] at this

theorem onGrid?_holds (h : i.onGrid? p = some c) : i.holds c p = true := by
  rw [onGrid?] at h
  generalize floorUnits i.value i.den p = units at h
  obtain ⟨below, rest, whole⟩ := units
  simp only at h
  split at h
  next hboth =>
    obtain ⟨hdown, hup⟩ := Bool.and_eq_true_iff.mp hboth
    obtain rfl := Option.some_inj.mp h
    split
    · exact hdown
    · exact hup
  split at h
  next hdown =>
    obtain rfl := Option.some_inj.mp h
    exact hdown
  split at h
  next hup =>
    obtain rfl := Option.some_inj.mp h
    exact hup
  · cases h

theorem holds_of_lt (hden : 0 < i.den) (hlow : (i.low / i.den : ℚ) < c * 10 ^ p)
    (hhigh : (c * 10 ^ p : ℚ) < i.high / i.den) : i.holds c p = true := by
  rw [holds_iff hden]
  split
  · exact ⟨hlow.le, hhigh.le⟩
  · exact ⟨hlow, hhigh⟩

/-- A grid finer than the interval has a point in it. -/
theorem onGrid?_ne_none (hden : 0 < i.den) (hlow : (i.low : ℚ) / i.den < i.value / i.den)
    (hhigh : (i.value : ℚ) / i.den < i.high / i.den)
    (hfine : (10 : ℚ) ^ p < i.high / i.den - i.low / i.den) : i.onGrid? p ≠ none := by
  obtain ⟨hbelow, habove⟩ := floorUnits_spec i.value i.den p
  rw [onGrid?]
  generalize floorUnits i.value i.den p = units at hbelow habove ⊢
  obtain ⟨below, rest, whole⟩ := units
  simp only at hbelow habove ⊢
  -- When the last point up to the value is below the interval, the next one is inside.
  have hholds : i.holds below p = true ∨ i.holds (below + 1) p = true := by
    obtain hdown | hdown := lt_or_ge (i.low / i.den : ℚ) (below * 10 ^ p)
    · exact .inl (holds_of_lt hden hdown (hbelow.trans_lt hhigh))
    · refine .inr (holds_of_lt hden ?_ ?_) <;> push_cast <;> linarith
  obtain hdown | hup := hholds
  · rw [hdown]
    split <;> nofun
  · rw [hup]
    split
    · nofun
    split <;> nofun

/-- A search that comes to a fine enough grid ends with a point in the interval. -/
theorem search_holds {fuel digits : Nat} (hfine : i.onGrid? (k - (digits + fuel : ℕ)) ≠ none) :
    i.holds (i.search k (fuel + 1) digits).1 (i.search k (fuel + 1) digits).2 = true := by
  induction fuel generalizing digits with
  | zero =>
    rw [search]
    split
    next hsome => exact onGrid?_holds hsome
    next hnone => exact absurd hnone hfine
  | succ fuel ih =>
    rw [search]
    split
    next hsome => exact onGrid?_holds hsome
    next hnone => exact ih (by rwa [Nat.add_right_comm, Nat.add_assoc])

end Interval

theorem dropZeros_spec (fuel c : Nat) (p : ℤ) :
    ((dropZeros fuel c p).1 : ℚ) * 10 ^ (dropZeros fuel c p).2 = c * 10 ^ p := by
  induction fuel generalizing c p with
  | zero => rfl
  | succ fuel ih =>
    rw [dropZeros]
    split
    next h =>
      have hzero : c % 10 = 0 := by simp at h; exact h.2
      have hc : c = c / 10 * 10 := by omega
      rw [ih, zpow_add_one₀ (by norm_num)]
      conv_rhs => rw [hc]
      push_cast
      ring
    · rfl

namespace Binary

variable {b : Binary}

theorem interval_spec (hmant : 0 < b.mant) : 0 < b.interval.den ∧
    (b.interval.low / b.interval.den : ℚ) = (4 * b.mant - b.gap) * 2 ^ (b.exp - 2) ∧
    (b.interval.value / b.interval.den : ℚ) = 4 * b.mant * 2 ^ (b.exp - 2) ∧
    (b.interval.high / b.interval.den : ℚ) = (4 * b.mant + 2) * 2 ^ (b.exp - 2) := by
  have hunit : (2 : ℚ) ^ (b.exp - 2) =
      (Nat.pow 2 (b.exp - 2).toNat : ℕ) / (Nat.pow 2 (2 - b.exp).toNat : ℕ) := by
    have := zpow_eq_div Nat.two_pos (b.exp - 2)
    rwa [neg_sub] at this
  have hgap : b.gap ≤ 4 * b.mant := by
    obtain ⟨hg, -⟩ | ⟨hg, -⟩ := b.gap_eq <;> omega
  have hlow : (4 * b.mant - b.gap : ℚ) = (4 * b.mant - b.gap : ℕ) := by
    rw [Nat.cast_sub hgap]
    push_cast
    rfl
  refine ⟨Nat.pow_pos Nat.two_pos, ?_, ?_, ?_⟩
  all_goals rw [hunit, ← mul_div_assoc]
  · rw [hlow, ← Nat.cast_mul]
    rfl
  · rw [interval]
    push_cast
    rfl
  · rw [interval]
    push_cast
    rfl

theorem covers_of_holds {c : Nat} {p : ℤ} (hmant : 0 < b.mant)
    (h : b.interval.holds c p = true) : b.Covers (c * 10 ^ p) := by
  obtain ⟨hden, hlow, -, hhigh⟩ := interval_spec hmant
  rw [Interval.holds_iff hden, hlow, hhigh] at h
  have hclosed : b.interval.closed = (b.mant % 2 == 0) := rfl
  split at h
  next heven =>
    refine ⟨h.1, h.2, fun hodd => ?_⟩
    rw [hclosed, beq_iff_eq, hodd] at heven
    cases heven
  next => exact ⟨h.1.le, h.2.le, fun _ => h⟩

theorem Canonical.interval_bounds (hb : b.Canonical) (hmant : 0 < b.mant) :
    (2 : ℚ) ^ (-1076 : ℤ) ≤ (4 * b.mant - b.gap) * 2 ^ (b.exp - 2) ∧
      (4 * b.mant + 2 : ℚ) * 2 ^ (b.exp - 2) ≤ 2 ^ (1024 : ℤ) := by
  have hmant' : (1 : ℚ) ≤ b.mant := by exact_mod_cast hmant
  have hgap := b.gap_le
  have hexp := hb.le_exp
  have hexp' := hb.exp_le
  constructor
  · calc (2 : ℚ) ^ (-1076 : ℤ) ≤ 1 * 2 ^ (b.exp - 2) := by
          rw [one_mul]
          exact zpow_le_zpow_right₀ one_le_two (by omega)
      _ ≤ (4 * b.mant - b.gap) * 2 ^ (b.exp - 2) := by gcongr; linarith
  · have hlt : (4 * b.mant + 2 : ℚ) ≤ 2 ^ (55 : ℤ) := by
      have := hb.mant_lt
      exact_mod_cast (show 4 * b.mant + 2 ≤ 2 ^ 55 by omega)
    calc (4 * b.mant + 2 : ℚ) * 2 ^ (b.exp - 2) ≤ 2 ^ (55 : ℤ) * 2 ^ (969 : ℤ) := by
          gcongr
          · exact one_le_two
          · omega
      _ = 2 ^ (1024 : ℤ) := by rw [← zpow_add₀ two_ne_zero]; norm_num

/-- Seventeen digits make a grid finer than the interval. -/
theorem seventeen_digits (hb : b.Canonical) (hmant : 0 < b.mant) :
    (10 : ℚ) ^ (magnitude b.interval.value b.interval.den - 17) <
      b.interval.high / b.interval.den - b.interval.low / b.interval.den := by
  obtain ⟨hden, hlow, hvalue, hhigh⟩ := interval_spec hmant
  obtain ⟨hbelow, habove⟩ := hb.interval_bounds hmant
  have hunit : (0 : ℚ) < 2 ^ (b.exp - 2) := by positivity
  -- At a power of two the interval is narrower, but the mantissa is the least one.
  have hwide : (4 * b.mant : ℚ) < (b.gap + 2) * 10 ^ 16 := by
    have := hb.mant_lt
    obtain ⟨hg, hm, -⟩ | ⟨hg, -⟩ := b.gap_eq
    · rw [hg, hm]
      norm_num
    · rw [hg]
      exact_mod_cast (show 4 * b.mant < (2 + 2) * 10 ^ 16 by omega)
  have hpos : 0 < b.interval.value :=
    Nat.mul_pos (by omega) (Nat.pow_pos Nat.two_pos)
  have hmagnitude : (10 : ℚ) ^ (magnitude b.interval.value b.interval.den - 1) ≤
      4 * b.mant * 2 ^ (b.exp - 2) := by
    rw [← hvalue]
    refine magnitude_le hpos hden ?_ ?_
    · calc (2 : ℚ) ^ (-1098 : ℤ) ≤ 2 ^ (-1076 : ℤ) := zpow_le_zpow_right₀ one_le_two (by norm_num)
        _ ≤ (4 * b.mant - b.gap) * 2 ^ (b.exp - 2) := hbelow
        _ ≤ 4 * b.mant * 2 ^ (b.exp - 2) := by gcongr; exact sub_le_self _ (Nat.cast_nonneg _)
        _ = b.interval.value / b.interval.den := hvalue.symm
    · calc (b.interval.value / b.interval.den : ℚ) = 4 * b.mant * 2 ^ (b.exp - 2) := hvalue
        _ ≤ (4 * b.mant + 2) * 2 ^ (b.exp - 2) := by gcongr; linarith
        _ ≤ 2 ^ (1024 : ℤ) := habove
        _ ≤ 2 ^ (1098 : ℤ) := zpow_le_zpow_right₀ one_le_two (by norm_num)
  calc (10 : ℚ) ^ (magnitude b.interval.value b.interval.den - 17)
      = 10 ^ (magnitude b.interval.value b.interval.den - 1) / 10 ^ 16 := by
        rw [← zpow_natCast, ← zpow_sub₀ (by norm_num), sub_sub]
        norm_num
    _ ≤ 4 * b.mant * 2 ^ (b.exp - 2) / 10 ^ 16 := by gcongr
    _ < (b.gap + 2) * 2 ^ (b.exp - 2) := by
      rw [div_lt_iff₀ (by positivity)]
      linarith [mul_lt_mul_of_pos_right hwide hunit]
    _ = b.interval.high / b.interval.den - b.interval.low / b.interval.den := by
      rw [hhigh, hlow]
      ring

/-- The shortest digits of a double are rounded to it. -/
theorem covers_shortest (hb : b.Canonical) (hmant : 0 < b.mant) :
    b.Covers (b.shortest.1 * 10 ^ b.shortest.2) := by
  obtain ⟨hden, hlow, hvalue, hhigh⟩ := interval_spec hmant
  have hunit : (0 : ℚ) < 2 ^ (b.exp - 2) := by positivity
  have hgap : (1 : ℚ) ≤ b.gap := by
    obtain ⟨hg, -⟩ | ⟨hg, -⟩ := b.gap_eq <;> rw [hg] <;> norm_num
  rw [shortest, dropZeros_spec]
  refine covers_of_holds hmant (Interval.search_holds (Interval.onGrid?_ne_none hden ?_ ?_
    (seventeen_digits hb hmant)))
  · rw [hlow, hvalue]
    exact mul_lt_mul_of_pos_right (by linarith) hunit
  · rw [hvalue, hhigh]
    exact mul_lt_mul_of_pos_right (by linarith) hunit

end Binary

end Simultaneous.Decimal
