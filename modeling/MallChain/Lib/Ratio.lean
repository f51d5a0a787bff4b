import MallChain.Lib.Rounding

namespace Rounding

variable {p x y n d n' d' : ℤ}

theorem halfEven_mono (hp : 0 < p) (h : x ≤ y) : halfEven p x ≤ halfEven p y := by
  by_contra hlt
  rw [not_le] at hlt
  have hx := (halfEven_error (x := x) hp).1
  have hy := (halfEven_error (x := y) hp).2
  -- the two would be a whole unit apart
  have hunit : p * (halfEven p y + 1) ≤ p * halfEven p x := mul_le_mul_of_nonneg_left hlt hp.le
  rw [mul_add, mul_one] at hunit
  have he : x = y := by linarith
  rw [he] at hlt
  exact lt_irrefl _ hlt

-- The fraction `n / d` in units of `1 / p`: it is cut to units of `1 / (p * p)` and then rounded.
def ratio (p n d : ℤ) : ℤ :=
  halfEven p (n * p * p / d)

theorem ratio_nonneg (hp : 0 < p) (hn : 0 ≤ n) (hd : 0 ≤ d) : 0 ≤ ratio p n d :=
  halfEven_nonneg hp <| Int.ediv_nonneg (mul_nonneg (mul_nonneg hn hp.le) hp.le) hd

-- A larger fraction has a larger ratio.
theorem ratio_mono (hp : 0 < p) (hd : 0 < d) (hd' : 0 < d') (h : n * d' ≤ n' * d) :
    ratio p n d ≤ ratio p n' d' := by
  refine halfEven_mono hp <| (Int.le_ediv_iff_mul_le hd').mpr ?_
  refine le_of_mul_le_mul_right ?_ hd
  have hcut : n * p * p / d * d ≤ n * p * p := Int.ediv_mul_le _ hd.ne'
  calc
    n * p * p / d * d' * d = n * p * p / d * d * d' := by ring
    _ ≤ n * p * p * d' := mul_le_mul_of_nonneg_right hcut hd'.le
    _ = n * d' * (p * p) := by ring
    _ ≤ n' * d * (p * p) := mul_le_mul_of_nonneg_right h (mul_pos hp hp).le
    _ = n' * p * p * d := by ring

end Rounding
