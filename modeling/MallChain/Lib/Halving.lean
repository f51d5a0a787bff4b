import Mathlib

-- An amount that is halved, rounded down, after every period.
namespace Halving

def rate (amount period n : ℕ) : ℕ :=
  amount >>> (n / period)

variable {amount period n m : ℕ}

theorem shiftRight_antitone {p q : ℕ} (h : p ≤ q) : amount >>> q ≤ amount >>> p := by
  rw [Nat.shiftRight_eq_div_pow, Nat.shiftRight_eq_div_pow]
  exact Nat.div_le_div_left (Nat.pow_le_pow_right (by decide) h) (by positivity)

theorem rate_antitone (h : n ≤ m) : rate amount period m ≤ rate amount period n :=
  shiftRight_antitone (Nat.div_le_div_right h)

theorem rate_add_period (h : 0 < period) :
    rate amount period (n + period) = rate amount period n / 2 := by
  rw [rate, Nat.add_div_right n h, Nat.shiftRight_succ, rate]

-- What is handed out before `n`, what the rest of the period brings and what a last period of ones
-- would add stay below the double of the first period.
theorem sum_rate_add_le (h : 0 < period) (n : ℕ) :
    ∑ i ∈ Finset.range n, rate amount period i + (2 * period - n % period) * rate amount period n +
      (if rate amount period n = 0 then period else 0) ≤
        2 * period * amount + if amount = 0 then period else 0 := by
  induction n with
  | zero => simp [rate]
  | succ n ih =>
    have hr := Nat.mod_lt n h
    have hn := Nat.mod_add_div n period
    rw [Finset.sum_range_succ]
    by_cases hlast : n % period + 1 = period
    case neg =>
      -- the period goes on
      obtain ⟨hq', hr'⟩ := (Nat.div_mod_unique (a := n + 1) (d := n / period) h).mpr
        ⟨by omega, (by omega : n % period + 1 < period)⟩
      have hsame : rate amount period (n + 1) = rate amount period n := by rw [rate, hq', rate]
      have hsplit : 2 * period - n % period = 2 * period - (n % period + 1) + 1 := by omega
      rw [hsplit, Nat.add_mul, Nat.one_mul] at ih
      rw [hsame, hr']
      omega
    case pos =>
      -- the next period starts
      obtain ⟨hq', hr'⟩ := (Nat.div_mod_unique (a := n + 1) (d := n / period + 1) h).mpr
        ⟨by rw [Nat.mul_add]; omega, h⟩
      have hhalf : rate amount period (n + 1) = rate amount period n / 2 := by
        rw [rate, hq', Nat.shiftRight_succ, rate]
      have hsplit : 2 * period - n % period = period + 1 := by omega
      rw [hsplit, Nat.add_mul, Nat.one_mul] at ih
      rw [hhalf, hr', Nat.sub_zero]
      generalize rate amount period n = x at *
      have hmul : 2 * period * (x / 2) + (if x / 2 = 0 then period else 0) ≤
          period * x + if x = 0 then period else 0 := by
        obtain rfl | rfl | hx : x = 0 ∨ x = 1 ∨ 2 ≤ x := by omega
        · simp
        · simp
        · rw [if_neg (by omega), if_neg (by omega), Nat.mul_comm 2 period, Nat.mul_assoc]
          exact Nat.mul_le_mul_left period (Nat.mul_div_le x 2)
      omega

-- All periods together hand out less than the first one would twice.
theorem sum_rate_lt (h : 0 < period) (ha : 0 < amount) (n : ℕ) :
    ∑ i ∈ Finset.range n, rate amount period i < 2 * period * amount := by
  have hle : ∑ i ∈ Finset.range n, rate amount period i + _ + _ ≤ _ := sum_rate_add_le h n
  have hr := Nat.mod_lt n h
  rw [if_neg ha.ne', Nat.add_zero] at hle
  split_ifs at hle with hz
  · omega
  · have hpos : 0 < (2 * period - n % period) * rate amount period n :=
      Nat.mul_pos (by omega) (Nat.pos_of_ne_zero hz)
    omega

end Halving
