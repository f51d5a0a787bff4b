import MallChain.Lib.ConstantProduct
import MallChain.Dex.WellFormed

namespace Dex

open Sdk LegacyDec

variable {k : Keeper} {s s' : State} {pool pool' : Pool}

def Pool.value (pool : Pool) : ConstantProduct ℤ where
  reserveA := pool.tokenAReserve.amount
  reserveB := pool.tokenBReserve.amount
  shares   := pool.totalLiquidity.amount

-- Quotients that round towards zero are at most the exact ones.
theorem mul_tdiv_le {x y : ℤ} (hx : 0 ≤ x) (hy : 0 ≤ y) : y * x.tdiv y ≤ x := by
  rw [Int.tdiv_eq_ediv_of_nonneg hx]
  have h := Int.ediv_mul_le x (b := y)
  rcases hy.eq_or_lt with rfl | hpos
  · simpa
  · rw [mul_comm]
    exact h hpos.ne'

theorem Deposited.keepsValue {a b : ℤ} (h : Deposited pool pool' a b) {id : ℕ}
    (hw : pool.WellFormed id) (hw' : pool'.WellFormed id) : pool.value.KeepsValue pool'.value := by
  obtain ⟨hA, hB⟩ := h.nonneg
  have hm := h.shares
  have hmA : pool.tokenAReserve.amount * (pool'.totalLiquidity.amount - pool.totalLiquidity.amount) ≤
      a * pool.totalLiquidity.amount := by
    refine le_trans ?_ (mul_tdiv_le (mul_nonneg hA hw.amtL) hw.amtA)
    exact mul_le_mul_of_nonneg_left (by omega) hw.amtA
  have hmB : pool.tokenBReserve.amount * (pool'.totalLiquidity.amount - pool.totalLiquidity.amount) ≤
      b * pool.totalLiquidity.amount := by
    refine le_trans ?_ (mul_tdiv_le (mul_nonneg hB hw.amtL) hw.amtB)
    exact mul_le_mul_of_nonneg_left (by omega) hw.amtB
  refine .of_sides ?_ ?_ (mul_nonneg hw.amtB hw'.amtL) (mul_nonneg hw'.amtA hw.amtL)
  · simpa [Pool.value, h.amountA] using ConstantProduct.side_of_deposit hmA
  · simpa [Pool.value, h.amountB] using ConstantProduct.side_of_deposit hmB

theorem Withdrawn.keepsValue {l : ℤ} (h : Withdrawn pool pool' l) {id : ℕ}
    (hw : pool.WellFormed id) (hw' : pool'.WellFormed id) : pool.value.KeepsValue pool'.value := by
  have hA := mul_tdiv_le (mul_nonneg h.nonneg hw.amtA) hw.amtL
  have hB := mul_tdiv_le (mul_nonneg h.nonneg hw.amtB) hw.amtL
  refine .of_sides ?_ ?_ (mul_nonneg hw.amtB hw'.amtL) (mul_nonneg hw'.amtA hw.amtL)
  · simpa [Pool.value, h.amountA, h.shares] using ConstantProduct.side_of_withdrawal hA
  · simpa [Pool.value, h.amountB, h.shares] using ConstantProduct.side_of_withdrawal hB

section

variable {a rIn rOut fee D F N E o : ℤ}

-- A payout that the drain limit keeps below three tenths of its reserve is fair as soon as the input
-- is not small.
theorem fair_of_drain (hIn : 0 ≤ rIn) (ha : 0 ≤ a) (hOut : 0 ≤ rOut) (ho : 10 * o ≤ 3 * rOut)
    (h : 3 * rIn ≤ 7 * a) : o * (rIn + a) ≤ a * rOut := by
  have h₁ := mul_le_mul_of_nonneg_right ho (add_nonneg hIn ha)
  have h₂ := mul_le_mul_of_nonneg_left h hOut
  linarith

-- The quote is at most half a unit of the last decimal above the exact one. For an input that is
-- small against its reserve the fee is worth more than that.
theorem fair_of_quote (hE : 1 < E) (hIn : 0 ≤ rIn) (ha : 0 ≤ a) (hfee : 1 ≤ fee) (hF : 1 ≤ F)
    (hEF : fee + F = E) (hN : N = a * F) (hD : D = rIn * E + N) (hD₀ : 0 < D) (ho : 1 ≤ o)
    (hq : 2 * E * (o * D) ≤ 2 * E * (N * rOut) + D) (h : 7 * N ≤ 3 * (rIn * E)) :
    o * (rIn + a) ≤ a * rOut := by
  have hsum : 0 ≤ rIn + a := add_nonneg hIn ha
  have hEpos : 0 < E := zero_lt_one.trans hE
  -- the payout is at least one, which bounds the exact quote from below
  have h₁ : (2 * E - 1) * D ≤ 2 * E * (N * rOut) := by
    have := mul_le_mul_of_nonneg_left ho (mul_nonneg hEpos.le hD₀.le)
    linarith
  have h₂ : (rIn + a) * F ≤ rIn * (2 * E - 1) * fee := by
    have hr : rIn * F ≤ rIn * (E - 1) := mul_le_mul_of_nonneg_left (by omega) hIn
    have hE₁ : 0 ≤ rIn * (2 * E - 1) := mul_nonneg hIn (by omega)
    have hm : rIn * (2 * E - 1) ≤ rIn * (2 * E - 1) * fee := le_mul_of_one_le_right hE₁ hfee
    have hrE : 0 ≤ rIn * E := mul_nonneg hIn hEpos.le
    linarith
  have h₃ : (rIn + a) * D ≤ 2 * E * (rIn * fee * (a * rOut)) := by
    refine le_of_mul_le_mul_left ?_ (zero_lt_one.trans_le hF)
    calc F * ((rIn + a) * D)
      _ = (rIn + a) * F * D := by ring
      _ ≤ rIn * (2 * E - 1) * fee * D := mul_le_mul_of_nonneg_right h₂ hD₀.le
      _ = rIn * fee * ((2 * E - 1) * D) := by ring
      _ ≤ rIn * fee * (2 * E * (N * rOut)) :=
        mul_le_mul_of_nonneg_left h₁ (mul_nonneg hIn (zero_le_one.trans hfee))
      _ = F * (2 * E * (rIn * fee * (a * rOut))) := by rw [hN]; ring
  have hpos : 0 < 2 * E * D := by positivity
  refine le_of_mul_le_mul_left ?_ hpos
  calc 2 * E * D * (o * (rIn + a))
    _ = 2 * E * (o * D) * (rIn + a) := by ring
    _ ≤ (2 * E * (N * rOut) + D) * (rIn + a) := mul_le_mul_of_nonneg_right hq hsum
    _ = 2 * E * (N * rOut) * (rIn + a) + (rIn + a) * D := by ring
    _ ≤ 2 * E * (N * rOut) * (rIn + a) + 2 * E * (rIn * fee * (a * rOut)) := by
      exact add_le_add_right h₃ _
    _ = 2 * E * (rIn * (fee + F) + a * F) * (a * rOut) := by rw [hN]; ring
    _ = 2 * E * D * (a * rOut) := by rw [hD, hN, hEF]

end

section

variable {a rIn rOut fee : ℤ} {percent : UInt32}

theorem swapOut_mul_le (percent : UInt32) (hq : 0 ≤ quoted a rIn rOut fee) (hOut : 0 ≤ rOut) :
    precisionReuse * swapOut a rIn rOut fee percent ≤ quoted a rIn rOut fee ∧
    precisionReuse * swapOut a rIn rOut fee percent ≤ maxDrain rOut percent := by
  have hm : 0 ≤ maxDrain rOut percent := by
    rw [maxDrain]
    positivity
  exact le_min_iff.mp <| mul_tdiv_le (le_min hq hm) precisionReuse_pos.le

-- Rounding the quote adds at most half a unit of the last decimal.
theorem quoted_bound (hN : 0 ≤ afterFee a fee) (hIn : 0 ≤ rIn) (hOut : 0 ≤ rOut) :
    0 ≤ quoted a rIn rOut fee ∧ 2 * (quoted a rIn rOut fee * (rIn * precisionReuse + afterFee a fee)) ≤
      2 * (afterFee a fee * rOut * precisionReuse) + (rIn * precisionReuse + afterFee a fee) := by
  have hE := precisionReuse_pos
  have hD : 0 ≤ rIn * precisionReuse + afterFee a fee :=
    add_nonneg (mul_nonneg hIn hE.le) hN
  have hX : 0 ≤ afterFee a fee * rOut * precisionReuse * precisionReuse := by positivity
  have hx := mul_tdiv_le hX hD
  have hx₀ := Int.tdiv_nonneg hX hD
  rw [quoted]
  generalize (afterFee a fee * rOut * precisionReuse * precisionReuse).tdiv _ = X at hx hx₀
  refine ⟨Rounding.halfEven_nonneg hE hx₀, le_of_mul_le_mul_left ?_ hE⟩
  have hr := mul_le_mul_of_nonneg_right (Rounding.halfEven_error (x := X) hE).1 hD
  rw [chopPrecisionAndRound]
  linarith

-- A swap never pays more than the part of the reserve that the whole input, fee included, stands for.
theorem swapOut_fair (ha : 0 ≤ a) (hIn : 0 ≤ rIn) (hOut : 0 ≤ rOut) (hfee : 0 < fee)
    (hfee₁ : fee < precisionReuse) (hp : percent.toNat ≤ 30)
    (hD : rIn * precisionReuse + afterFee a fee ≠ 0) :
    swapOut a rIn rOut fee percent * (rIn + a) ≤ a * rOut := by
  have hE := precisionReuse_pos
  have hN : 0 ≤ afterFee a fee := mul_nonneg ha (by omega)
  obtain ⟨hq₀, hq⟩ := quoted_bound hN hIn hOut
  obtain ⟨ho₁, ho₂⟩ := swapOut_mul_le percent hq₀ hOut
  generalize swapOut a rIn rOut fee percent = o at ho₁ ho₂
  have hdrain : 10 * o ≤ 3 * rOut := by
    have h := mul_le_mul_of_nonneg_left (Int.ofNat_le.mpr hp) hOut
    rw [maxDrain, ← mul_assoc] at ho₂
    simp only [precisionReuse, precision] at ho₂
    push_cast at h
    omega
  by_cases ho : o ≤ 0
  case pos =>
    have h := mul_nonpos_of_nonpos_of_nonneg ho (add_nonneg hIn ha)
    exact h.trans (mul_nonneg ha hOut)
  case neg =>
    by_cases hsmall : 7 * afterFee a fee ≤ 3 * (rIn * precisionReuse)
    case pos =>
      have hD₀ := lt_of_le_of_ne (add_nonneg (mul_nonneg hIn hE.le) hN) hD.symm
      have h := mul_le_mul_of_nonneg_right ho₁ hD₀.le
      exact fair_of_quote (N := afterFee a fee) (by decide) hIn ha hfee (by omega)
        (add_sub_cancel fee _) rfl rfl hD₀ (by omega) (by linarith) hsmall
    case neg =>
      refine fair_of_drain hIn ha hOut hdrain ?_
      have h : afterFee a fee ≤ a * precisionReuse := mul_le_mul_of_nonneg_left (by omega) ha
      refine le_of_mul_le_mul_right ?_ hE
      linarith

end

theorem TradedSide.fair {rIn rOut rIn' rOut' fee a : ℤ} {percent : UInt32}
    (h : TradedSide rIn rOut rIn' rOut' fee percent a) (hIn : 0 ≤ rIn) (hOut : 0 ≤ rOut)
    (hfee : 0 < fee) (hfee₁ : fee < precisionReuse) (hp : percent.toNat ≤ 30) :
    rIn * rOut ≤ rIn' * rOut' := by
  rw [h.amtIn, h.amtOut]
  exact ConstantProduct.product_of_trade <|
    swapOut_fair h.nonneg.1 hIn hOut hfee hfee₁ hp h.nonzero

theorem Traded.keepsValue {percent : UInt32} {a : ℤ} (h : Traded pool pool' percent a) {id : ℕ}
    (hw : pool.WellFormed id) (hfee : 0 < (parseFeeDec pool.fee).i) (hp : percent.toNat ≤ 30) :
    pool.value.KeepsValue pool'.value := by
  refine .of_product (congrArg Coin.amount h.shares) ?_
  simp only [ConstantProduct.product, Pool.value]
  rcases h.sides with hs | hs
  · exact hs.fair hw.amtA hw.amtB hfee hw.fee.2 hp
  · rw [mul_comm, mul_comm pool'.tokenAReserve.amount]
    exact hs.fair hw.amtB hw.amtA hfee hw.fee.2 hp

theorem Effect.keepsValue {u : Option AccAddress} (h : Effect k s s' u) (hw : s.WellFormed) {id : ℕ}
    (hg : s.pools.get id = some pool) (hg' : s'.pools.get id = some pool')
    (hfee : 0 < (parseFeeDec pool.fee).i) : pool.value.KeepsValue pool'.value := by
  cases h with
  | @created _ p h =>
    have hn : s.pools.get p.id = none := hw.fresh h.id.ge
    have hne : id ≠ p.id := fun he => by simp [he, hn] at hg
    rw [h.pools, KVStore.get_set_ne hne, hg] at hg'
    cases hg'
    exact .refl _
  | @replaced _ poolId p p' h hc =>
    by_cases hid : id = poolId
    case pos =>
      subst hid
      have hw' := h.wellFormed hc hw
      rw [h.get] at hg
      rw [h.pools, KVStore.get_set_self] at hg'
      cases hg
      cases hg'
      rcases hc with ⟨_, _, hd⟩ | ⟨_, hl⟩ | ⟨params, _, hp, ht⟩
      · exact hd.keepsValue (hw.pools h.get) hw'
      · exact hl.keepsValue (hw.pools h.get) hw'
      · exact ht.keepsValue (hw.pools h.get) hfee (hw.params hp).drain.2
    case neg =>
      rw [h.pools, KVStore.get_set_ne hid, hg] at hg'
      cases hg'
      exact .refl _
  | params _ h =>
    rw [h, hg] at hg'
    cases hg'
    exact .refl _
  | bank h =>
    rw [h, hg] at hg'
    cases hg'
    exact .refl _

end Dex
