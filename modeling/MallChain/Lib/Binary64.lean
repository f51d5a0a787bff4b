import MallChain.Lib.Rounding

-- Numbers in the binary format with 53 digits, as the rational numbers that they stand for.
namespace Binary64

variable {x : ℚ} {n : ℤ}

-- The unit in the last place of the numbers around `x`.
def ulp (x : ℚ) : ℚ :=
  2 ^ max (Int.log 2 |x| - 52) (-1074)

-- Rounds to a nearest integer, and a tie to the even one.
def nearest (x : ℚ) : ℤ :=
  Rounding.halfEven x.den x.num

-- Rounds to a nearest number of the format without a bound on the exponent.
def round (x : ℚ) : ℚ :=
  nearest (x / ulp x) * ulp x

def maxValue : ℚ :=
  (2 ^ 53 - 1) * 2 ^ 971

def isFinite (x : ℚ) : Prop :=
  |round x| ≤ maxValue

instance : Decidable (isFinite x) :=
  inferInstanceAs (Decidable (_ ≤ _))

theorem ulp_pos : 0 < ulp x :=
  zpow_pos two_pos _

theorem nearest_error : |(nearest x : ℚ) - x| ≤ 1 / 2 := by
  have hd : (0 : ℤ) < x.den := by exact_mod_cast x.den_pos
  have hq : (0 : ℚ) < x.den := by exact_mod_cast hd
  obtain ⟨h₁, h₂⟩ := Rounding.halfEven_error (x := x.num) hd
  have hx : (x.den : ℚ) * x = x.num := by
    rw [mul_comm]
    exact Rat.mul_den_eq_num x
  have e₁ : 2 * (x.den * (nearest x : ℚ)) ≤ 2 * x.num + x.den := by exact_mod_cast h₁
  have e₂ : 2 * (x.num : ℚ) ≤ 2 * (x.den * (nearest x : ℚ)) + x.den := by exact_mod_cast h₂
  rw [← hx] at e₁ e₂
  rw [abs_le]
  constructor
  · have h : x.den * x ≤ x.den * ((nearest x : ℚ) + 1 / 2) := by linarith
    linarith [le_of_mul_le_mul_left h hq]
  · have h : x.den * (nearest x : ℚ) ≤ x.den * (x + 1 / 2) := by linarith
    linarith [le_of_mul_le_mul_left h hq]

theorem nearest_intCast : nearest (n : ℚ) = n := by
  have h := Rounding.halfEven_mul (x := n) (one_ne_zero : (1 : ℤ) ≠ 0)
  rw [mul_one] at h
  simpa [nearest] using h

theorem round_error : |round x - x| ≤ ulp x / 2 := by
  have hu : ulp x ≠ 0 := ulp_pos.ne'
  have he : round x - x = (nearest (x / ulp x) - x / ulp x) * ulp x := by
    rw [round, sub_mul, div_mul_cancel₀ _ hu]
  calc |round x - x| = |nearest (x / ulp x) - x / ulp x| * ulp x := by
        rw [he, abs_mul, abs_of_pos ulp_pos]
    _ ≤ 1 / 2 * ulp x := mul_le_mul_of_nonneg_right nearest_error ulp_pos.le
    _ = ulp x / 2 := by ring

-- A multiple of the unit is a number of the format.
theorem round_of_mul (h : x = n * ulp x) : round x = x := by
  have hu : ulp x ≠ 0 := ulp_pos.ne'
  have hx : x / ulp x = n := by
    rw [div_eq_iff hu]
    exact h
  rw [round, hx, nearest_intCast]
  exact h.symm

theorem round_of_grid {e : ℤ} (h : x = n * 2 ^ e) (he : max (Int.log 2 |x| - 52) (-1074) ≤ e) :
    round x = x := by
  obtain ⟨d, hd⟩ := Int.eq_ofNat_of_zero_le (sub_nonneg.mpr he)
  refine round_of_mul (n := n * 2 ^ d) ?_
  have hscale : (2 : ℚ) ^ e = 2 ^ d * ulp x := by
    rw [ulp, ← zpow_natCast, ← zpow_add₀ two_ne_zero, ← hd, sub_add_cancel]
  push_cast
  rw [mul_assoc, ← hscale]
  exact h

-- The numbers from here on have 53 digits.
def minNormal : ℚ :=
  2 ^ (-1022 : ℤ)

theorem one_normal : minNormal ≤ 1 :=
  zpow_le_one_of_nonpos₀ one_le_two (by norm_num)

theorem le_log (hx : minNormal ≤ |x|) : -1022 ≤ Int.log 2 |x| := by
  have hp : (0 : ℚ) < |x| := lt_of_lt_of_le (zpow_pos two_pos _) hx
  rw [← Int.zpow_le_iff_le_log Nat.one_lt_two hp]
  exact_mod_cast hx

theorem ulp_le (hx : minNormal ≤ |x|) : ulp x ≤ |x| / 2 ^ 52 := by
  have hl := le_log hx
  have hpos : (0 : ℚ) < |x| := lt_of_lt_of_le (zpow_pos two_pos _) hx
  have hmax : max (Int.log 2 |x| - 52) (-1074) = Int.log 2 |x| - 52 := max_eq_left (by omega)
  have hp : (2 : ℚ) ^ Int.log 2 |x| ≤ |x| := by
    have h := Int.zpow_log_le_self (b := 2) (r := |x|) Nat.one_lt_two hpos
    exact_mod_cast h
  rw [ulp, hmax, zpow_sub₀ two_ne_zero]
  gcongr
  norm_num

-- Rounding a number moves it by a small part of it.
theorem round_relative_error (hx : minNormal ≤ |x|) : |round x - x| ≤ |x| / 2 ^ 53 := by
  have h := ulp_le hx
  calc |round x - x| ≤ ulp x / 2 := round_error
    _ ≤ |x| / 2 ^ 52 / 2 := by gcongr
    _ = |x| / 2 ^ 53 := by ring

-- Rounding moves the numbers below a power of two by a part of that power.
theorem round_error_le {k : ℤ} (hk : -1022 ≤ k) (hx : |x| ≤ 2 ^ k) : |round x - x| ≤ 2 ^ (k - 53) := by
  by_cases hz : x = 0
  case pos =>
    have hzero : round 0 - 0 = 0 := by simp [round, nearest, Rounding.halfEven, Rounding.halfEvenNonneg]
    rw [hz, hzero, abs_zero]
    positivity
  case neg =>
    have hlog : Int.log 2 |x| ≤ k := by
      have hmono := Int.log_mono_right (b := 2) (abs_pos.mpr hz) hx
      have hpow : Int.log 2 ((2 : ℚ) ^ k) = k := by exact_mod_cast Int.log_zpow (R := ℚ) Nat.one_lt_two k
      exact hpow ▸ hmono
    calc |round x - x| ≤ ulp x / 2 := round_error
      _ ≤ 2 ^ (k - 52) / 2 := by
        rw [ulp]
        gcongr
        case ha  => exact one_le_two
        case hmn => omega
      _ = 2 ^ (k - 53) := by
        rw [show k - 52 = k - 53 + 1 by ring, zpow_add_one₀ two_ne_zero]
        ring

theorem le_round (hx : minNormal ≤ x) : x * (1 - 1 / 2 ^ 53) ≤ round x := by
  have h₀ : 0 ≤ x := le_trans (zpow_pos two_pos _).le hx
  have h := round_relative_error (x := x) (hx.trans (le_abs_self x))
  rw [abs_of_nonneg h₀] at h
  have h := (abs_le.mp h).1
  linarith

-- Integers with at most 53 digits are numbers of the format.
theorem round_intCast (hn : |n| < 2 ^ 53) : round n = n := by
  by_cases hz : n = 0
  case pos =>
    subst hz
    simp [round, nearest, Rounding.halfEven, Rounding.halfEvenNonneg]
  case neg =>
    have h₁ : (1 : ℚ) ≤ |(n : ℚ)| := by exact_mod_cast Int.one_le_abs hz
    have hl := le_log (one_normal.trans h₁)
    have hlt : Int.log 2 |(n : ℚ)| < 53 := by
      rw [← Int.lt_zpow_iff_log_lt Nat.one_lt_two (by linarith)]
      exact_mod_cast hn
    obtain ⟨e, he⟩ : ∃ e : ℕ, max (Int.log 2 |(n : ℚ)| - 52) (-1074) = -(e : ℤ) :=
      ⟨(52 - Int.log 2 |(n : ℚ)|).toNat, by omega⟩
    refine round_of_mul (n := n * 2 ^ e) ?_
    rw [ulp, he, zpow_neg, zpow_natCast]
    push_cast
    rw [mul_assoc, mul_inv_cancel₀ (by positivity), mul_one]

theorem le_maxValue : (2 : ℚ) ^ 53 ≤ maxValue := by
  have h : (2 : ℚ) ^ 1 ≤ 2 ^ 971 := pow_le_pow_right₀ one_le_two (by norm_num)
  calc (2 : ℚ) ^ 53 ≤ (2 ^ 53 - 1) * 2 ^ 1 := by norm_num
    _ ≤ (2 ^ 53 - 1) * 2 ^ 971 := mul_le_mul_of_nonneg_left h (by norm_num)

theorem isFinite_intCast (hn : |n| < 2 ^ 53) : isFinite n := by
  have h : (|n| : ℚ) < 2 ^ 53 := by exact_mod_cast hn
  rw [isFinite, round_intCast hn]
  exact h.le.trans le_maxValue

theorem round_zero : round 0 = 0 := by
  simpa using round_intCast (n := 0) (by norm_num)

-- The fraction of a number of the format is one too.
theorem round_fract (hx : 1 ≤ x) (h : round x = x) : round (x - ⌊x⌋) = x - ⌊x⌋ := by
  have hgrid : x = nearest (x / ulp x) * 2 ^ max (Int.log 2 |x| - 52) (-1074) := h.symm
  have hlog : 0 ≤ Int.log 2 |x| := by
    rw [abs_of_nonneg (by linarith), ← Int.zpow_le_iff_le_log Nat.one_lt_two (by linarith)]
    simpa using hx
  have hmax : max (Int.log 2 |x| - 52) (-1074) = Int.log 2 |x| - 52 := max_eq_left (by omega)
  rw [hmax] at hgrid
  obtain ⟨d, hd⟩ | ⟨d, hd⟩ : (∃ d : ℕ, Int.log 2 |x| - 52 = d) ∨ ∃ d : ℕ, Int.log 2 |x| - 52 = -d := by
    rcases le_total 0 (Int.log 2 |x| - 52) with hs | hs
    · exact .inl (Int.eq_ofNat_of_zero_le hs)
    · exact .inr ⟨(52 - Int.log 2 |x|).toNat, by omega⟩
  case inl =>
    -- From here on there are only integers.
    rw [hd, zpow_natCast] at hgrid
    have hint : x = ((nearest (x / ulp x) * 2 ^ d : ℤ) : ℚ) := by
      push_cast
      exact hgrid
    have hzero : x - ⌊x⌋ = 0 := by
      rw [sub_eq_zero]
      nth_rewrite 2 [hint]
      rw [Int.floor_intCast]
      exact hint
    rw [hzero, round_zero]
  case inr =>
    rw [hd] at hgrid
    have hpow : (2 : ℚ) ^ d * 2 ^ (-(d : ℤ)) = 1 := by
      rw [zpow_neg, zpow_natCast, mul_inv_cancel₀ (by positivity)]
    have hfract : x - ⌊x⌋ = (nearest (x / ulp x) - ⌊x⌋ * 2 ^ d : ℤ) * 2 ^ (-(d : ℤ)) := by
      push_cast
      rw [sub_mul, ← hgrid, mul_assoc, hpow, mul_one]
    refine round_of_grid hfract (max_le ?_ (by omega))
    have hlt : |x - ⌊x⌋| < 1 := by
      rw [abs_of_nonneg (sub_nonneg.mpr (Int.floor_le x))]
      linarith [Int.lt_floor_add_one x]
    by_cases hz : |x - ⌊x⌋| = 0
    case pos =>
      rw [hz, Int.log_zero_right]
      omega
    case neg =>
      have hpos : 0 < |x - ⌊x⌋| := lt_of_le_of_ne (abs_nonneg _) (Ne.symm hz)
      have hneg : Int.log 2 |x - ⌊x⌋| < 0 := by
        rw [← Int.lt_zpow_iff_log_lt Nat.one_lt_two hpos]
        simpa using hlt
      omega

-- The operations on numbers of the format. A result beyond the largest number is not cut off.
section Operations

def add (x y : ℚ) : ℚ := round (x + y)
def sub (x y : ℚ) : ℚ := round (x - y)
def mul (x y : ℚ) : ℚ := round (x * y)
def div (x y : ℚ) : ℚ := round (x / y)

-- An addition that does not lose anything.
def AddExact (x y : ℚ) : Prop :=
  add x y = x + y

instance {y : ℚ} : Decidable (AddExact x y) :=
  inferInstanceAs (Decidable (_ = _))

theorem sub_eq_add {y : ℚ} : sub x y = add x (-y) := by
  rw [sub, add, sub_eq_add_neg]

end Operations

end Binary64
