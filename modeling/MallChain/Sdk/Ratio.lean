import MallChain.Lib.Ratio
import MallChain.Sdk.Math

namespace Sdk

open Rounding

namespace MathInt

variable {a b : ℤ}

theorem inRange_nonneg (ha : 0 ≤ a) : inRange a =
    if a < 2 ^ maxBitLen then .ok a else .error (.panic "Int overflow") := by
  have he : a.natAbs < 2 ^ maxBitLen ↔ a < 2 ^ maxBitLen := by
    zify
    rw [abs_of_nonneg ha]
  simp only [inRange, he]

-- A sum that overflows before its last term overflows at the end as well.
theorem inRange_add (ha : 0 ≤ a) (hb : 0 ≤ b) :
    (inRange a >>= fun c => inRange (c + b)) = inRange (a + b) := by
  rw [inRange_nonneg ha]
  split_ifs with h
  · rfl
  · rw [inRange_nonneg (add_nonneg ha hb), if_neg (by omega)]
    rfl

end MathInt

namespace LegacyDec

variable {a b : ℤ} {c : LegacyDec}

theorem assertInValidRange_nonneg (ha : 0 ≤ a) (hlt : a < 2 ^ maxDecBitLen) :
    assertInValidRange a = .ok ⟨a⟩ := by
  refine assertInValidRange_ok ?_
  zify
  rw [abs_of_nonneg ha]
  exact hlt

-- A quotient of two integers is rounded once.
theorem ofInt_quo (ha : 0 ≤ a) (hb : b ≠ 0) :
    (ofInt a).quo (ofInt b) = assertInValidRange (ratio precisionReuse a b) := by
  have hp := precisionReuse_pos
  have hn : 0 ≤ a * precisionReuse * precisionReuse * precisionReuse :=
    mul_nonneg (mul_nonneg (mul_nonneg ha hp.le) hp.le) hp.le
  have hi : (ofInt b).i ≠ 0 := mul_ne_zero hb hp.ne'
  rw [quo, if_neg hi, ofInt, ofInt, Int.tdiv_eq_ediv_of_nonneg hn,
    Int.mul_ediv_mul_of_pos_left _ _ hp]
  rfl

theorem of_ofInt_quo (h : (ofInt a).quo (ofInt b) = .ok c) (ha : 0 ≤ a) :
    c.i = ratio precisionReuse a b := by
  have hb : b ≠ 0 := by
    rintro rfl
    simp [quo, ofInt] at h
  rw [ofInt_quo ha hb] at h
  exact of_assertInValidRange h

-- No quotient of integers that fit leaves the range of the decimals.
theorem ofInt_quo_ok (ha : 0 ≤ a) (hlt : a < 2 ^ MathInt.maxBitLen) (hb : 0 < b) :
    (ofInt a).quo (ofInt b) = .ok ⟨ratio precisionReuse a b⟩ := by
  have hp := precisionReuse_pos
  have hprec : precisionReuse ≤ 2 ^ 60 := by decide
  have hratio : ratio precisionReuse a b ≤ a * precisionReuse := by
    have hwhole : ratio precisionReuse a 1 = a * precisionReuse := by
      rw [ratio, Int.ediv_one, halfEven_mul hp.ne']
    rw [← hwhole]
    refine ratio_mono hp hb one_pos ?_
    rw [mul_one]
    exact le_mul_of_one_le_right ha hb
  have hbound : ratio precisionReuse a b < 2 ^ maxDecBitLen :=
    calc
      ratio precisionReuse a b ≤ a * precisionReuse := hratio
      _ ≤ a * 2 ^ 60 := mul_le_mul_of_nonneg_left hprec ha
      _ < 2 ^ MathInt.maxBitLen * 2 ^ 60 := mul_lt_mul_of_pos_right hlt (by norm_num)
      _ = 2 ^ maxDecBitLen := by rw [← pow_add]; rfl
  rw [ofInt_quo ha hb.ne']
  exact assertInValidRange_nonneg (ratio_nonneg hp ha hb.le) hbound

-- A percentage of an integer is cut down to an integer.
theorem percent_ok {percentage : ℤ} (hp : 0 ≤ percentage) (hle : percentage ≤ 100) :
    (ofInt percentage).quo (ofInt 100) = .ok ⟨percentage * 10 ^ 16⟩ := by
  have hratio : ratio precisionReuse percentage 100 = percentage * 10 ^ 16 := by
    have he : percentage * precisionReuse * precisionReuse / 100 =
        percentage * 10 ^ 16 * precisionReuse := by
      have hprec : precisionReuse = 100 * 10 ^ 16 := by decide
      rw [show percentage * precisionReuse * precisionReuse =
        percentage * 10 ^ 16 * precisionReuse * 100 by rw [hprec]; ring]
      exact Int.mul_ediv_cancel _ (by decide)
    rw [ratio, he, halfEven_mul precisionReuse_pos.ne']
  rw [ofInt_quo_ok hp (hle.trans_lt (by norm_num [MathInt.maxBitLen])) (by decide), hratio]

end LegacyDec

end Sdk
