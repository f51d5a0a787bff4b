import Mathlib

namespace Rounding

-- Rounds `x / p` to a nearest integer for `x` not negative, and a tie to the even one.
def halfEvenNonneg (p x : ℤ) : ℤ :=
  let quo := x / p
  let rem := x % p
  if rem = 0 then quo
  else if 2 * rem < p then quo
  else if p < 2 * rem then quo + 1
  else if quo % 2 = 0 then quo
  else quo + 1

-- Negative values are rounded as their absolute value.
def halfEven (p x : ℤ) : ℤ :=
  if x < 0 then -halfEvenNonneg p (-x) else halfEvenNonneg p x

variable {p x : ℤ}

theorem halfEvenNonneg_cases : halfEvenNonneg p x = x / p ∧ 2 * (x % p) ≤ p ∨
    halfEvenNonneg p x = x / p + 1 ∧ p ≤ 2 * (x % p) ∨ halfEvenNonneg p x = x / p ∧ x % p = 0 := by
  simp only [halfEvenNonneg]
  split_ifs <;> omega

theorem halfEvenNonneg_error (hp : 0 < p) :
    2 * (p * halfEvenNonneg p x) ≤ 2 * x + p ∧ 2 * x ≤ 2 * (p * halfEvenNonneg p x) + p := by
  have hd : p * (x / p) + x % p = x := Int.mul_ediv_add_emod x p
  have hl : x % p < p := Int.emod_lt_of_pos x hp
  have hn : 0 ≤ x % p := Int.emod_nonneg x hp.ne'
  rcases halfEvenNonneg_cases (p := p) (x := x) with ⟨h, hr⟩ | ⟨h, hr⟩ | ⟨h, hr⟩ <;> rw [h]
  · constructor <;> linarith
  · rw [mul_add]
    constructor <;> linarith
  · constructor <;> linarith

-- Rounding moves a value by at most half a unit.
theorem halfEven_error (hp : 0 < p) :
    2 * (p * halfEven p x) ≤ 2 * x + p ∧ 2 * x ≤ 2 * (p * halfEven p x) + p := by
  simp only [halfEven]
  split_ifs with h
  · have ⟨h₁, h₂⟩ := halfEvenNonneg_error (x := -x) hp
    constructor <;> linarith
  · exact halfEvenNonneg_error hp

theorem halfEvenNonneg_mul (hp : p ≠ 0) : halfEvenNonneg p (x * p) = x := by
  simp [halfEvenNonneg, hp]

-- Multiples of the unit are not moved at all.
theorem halfEven_mul (hp : p ≠ 0) : halfEven p (x * p) = x := by
  simp only [halfEven]
  split_ifs
  · rw [← neg_mul, halfEvenNonneg_mul hp, neg_neg]
  · exact halfEvenNonneg_mul hp

theorem halfEven_nonneg (hp : 0 < p) (h : 0 ≤ x) : 0 ≤ halfEven p x := by
  have hq : 0 ≤ x / p := Int.ediv_nonneg h hp.le
  rw [halfEven, if_neg (not_lt.mpr h)]
  rcases halfEvenNonneg_cases (p := p) (x := x) with ⟨h, -⟩ | ⟨h, -⟩ | ⟨h, -⟩ <;> omega

theorem succ_ediv (hp : 0 < p) : (x + 1) / p = if x % p = p - 1 then x / p + 1 else x / p := by
  have hx := Int.mul_ediv_add_emod x p
  have hn := Int.emod_nonneg x hp.ne'
  have hl := Int.emod_lt_of_pos x hp
  split_ifs with h
  case pos =>
    have he : x + 1 = (x / p + 1) * p := by
      linear_combination h - hx
    rw [he, Int.mul_ediv_cancel _ hp.ne']
  case neg =>
    have he : x + 1 = (x % p + 1) + p * (x / p) := by
      linear_combination - hx
    rw [he, Int.add_mul_ediv_left _ _ hp.ne', Int.ediv_eq_zero_of_lt (by omega) (by omega), zero_add]

-- A value is cut to a multiple of `p` twice by a rounding in between: it is carried over a whole
-- unit exactly when it lies at most half of the smaller one below it.
theorem halfEven_ediv (hp : 0 < p) (heven : 2 ∣ p) (hx : 0 ≤ x) :
    halfEven p x / p =
      if 2 * (p * p) ≤ 2 * (x % (p * p)) + p then x / (p * p) + 1 else x / (p * p) := by
  have hk : x / (p * p) = x / p / p := (Int.ediv_ediv_of_nonneg hp.le).symm
  have hr : x % (p * p) = p * (x / p % p) + x % p := by
    have h₁ := Int.mul_ediv_add_emod x p
    have h₂ := Int.mul_ediv_add_emod (x / p) p
    have h₃ := Int.mul_ediv_add_emod x (p * p)
    rw [hk] at h₃
    linear_combination h₃ - h₁ - p * h₂
  have ht := Int.emod_lt_of_pos x hp
  have ht₀ := Int.emod_nonneg x hp.ne'
  have hs := Int.emod_lt_of_pos (x / p) hp
  -- the last digit before the rounding is the largest one, and is rounded up
  have hcarry : 2 * (p * p) ≤ 2 * (x % (p * p)) + p ↔ x / p % p = p - 1 ∧ p ≤ 2 * (x % p) := by
    rw [hr]
    constructor
    · intro h
      have hlast : x / p % p = p - 1 := by
        by_contra hne
        have hle : p * (x / p % p) ≤ p * (p - 2) := mul_le_mul_of_nonneg_left (by omega) hp.le
        linarith
      rw [hlast] at h ⊢
      exact ⟨rfl, by linarith⟩
    · rintro ⟨hlast, hup⟩
      rw [hlast]
      linarith
  have hodd : x / p % p = p - 1 → x / p % 2 = 1 := by
    intro hlast
    have hmod := Int.emod_emod_of_dvd (x / p) heven
    omega
  simp only [hcarry, hk]
  rw [halfEven, if_neg (not_lt.mpr hx), halfEvenNonneg]
  split_ifs <;> first | omega | (rw [succ_ediv hp]; split_ifs <;> omega)

-- A quotient that is computed with `p * p` as the unit, rounded to the unit `p` and cut down is
-- the quotient itself, unless it lies at most half of `1 / p` below the next integer.
theorem halfEven_quotient {n d : ℤ} (hp : 0 < p) (heven : 2 ∣ p) (hn : 0 ≤ n) (hd : 0 < d) :
    halfEven p (n * p * p / d) / p = if 2 * p * (d - n % d) ≤ d then n / d + 1 else n / d := by
  obtain ⟨q, r, y, hq, hr, hy⟩ : ∃ q r y, n / d = q ∧ n % d = r ∧ r * (p * p) / d = y :=
    ⟨_, _, _, rfl, rfl, rfl⟩
  have hpp : 0 < p * p := mul_pos hp hp
  have hr₀ : 0 ≤ r := hr ▸ Int.emod_nonneg n hd.ne'
  have hr₁ : r < d := hr ▸ Int.emod_lt_of_pos n hd
  have hx : n * p * p / d = y + p * p * q := by
    have hnum : n * p * p = r * (p * p) + d * (p * p * q) := by
      have h := Int.mul_ediv_add_emod n d
      rw [hq, hr] at h
      linear_combination -(p * p) * h
    rw [hnum, Int.add_mul_ediv_left _ _ hd.ne', hy]
  have hy₀ : 0 ≤ y := hy ▸ Int.ediv_nonneg (mul_nonneg hr₀ hpp.le) hd.le
  have hy₁ : y < p * p := hy ▸ Int.ediv_lt_of_lt_mul hd (by nlinarith)
  have hdiv : n * p * p / d / (p * p) = q := by
    rw [hx, Int.add_mul_ediv_left _ _ hpp.ne', Int.ediv_eq_zero_of_lt hy₀ hy₁, zero_add]
  have hmod : n * p * p / d % (p * p) = y := by
    rw [hx, Int.add_mul_emod_self_left, Int.emod_eq_of_lt hy₀ hy₁]
  have hcarry : 2 * (p * p) ≤ 2 * y + p ↔ 2 * p * (d - r) ≤ d := by
    obtain ⟨half, rfl⟩ := heven
    have hhalf : 0 < half := by omega
    have hle : 2 * (2 * half * (2 * half)) ≤ 2 * y + 2 * half ↔ 2 * half * (2 * half) - half ≤ y := by
      constructor <;> intro h <;> linarith
    have hmul : 2 * (2 * half) * (d - r) ≤ d ↔
        half * (2 * (2 * half) * (d - r)) ≤ half * d := (mul_le_mul_iff_of_pos_left hhalf).symm
    rw [hle, ← hy, Int.le_ediv_iff_mul_le hd, hmul]
    constructor <;> intro h <;> linarith
  have hx₀ : 0 ≤ n * p * p / d := Int.ediv_nonneg (by positivity) hd.le
  rw [halfEven_ediv hp heven hx₀, hdiv, hmod, hq, hr]
  simp only [hcarry]

-- Rounding every part of a sum down loses less than one for each of them.

variable {l : List ℤ}

theorem sum_ediv_le (hp : 0 < p) : (l.map (· / p)).sum * p ≤ l.sum := by
  induction l with
  | nil => simp
  | cons x l ih =>
    have hx := Int.ediv_mul_le x hp.ne'
    simp only [List.map_cons, List.sum_cons, add_mul]
    linarith

theorem sum_le_ediv_add_length (hp : 0 < p) :
    l.sum ≤ ((l.map (· / p)).sum + l.length) * p - l.length := by
  induction l with
  | nil => simp
  | cons x l ih =>
    have hx := Int.lt_ediv_add_one_mul_self x hp
    simp only [List.map_cons, List.sum_cons, List.length_cons, add_mul, Nat.cast_add, Nat.cast_one]
      at ih hx ⊢
    linarith

theorem sum_lt_ediv_add_length (hp : 0 < p) (hl : l ≠ []) :
    l.sum < ((l.map (· / p)).sum + l.length) * p := by
  have h := sum_le_ediv_add_length (l := l) hp
  have hpos : 0 < l.length := List.length_pos_of_ne_nil hl
  omega

end Rounding
