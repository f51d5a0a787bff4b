import MallChain.Dex.WellFormed
import MallChain.Dex.Drain

namespace Dex

open Sdk

-- A pool without shares has no reserves, and one with shares has both.
def Pool.Even (pool : Pool) : Prop :=
  (pool.totalLiquidity.amount = 0 ∧ pool.tokenAReserve.amount = 0 ∧ pool.tokenBReserve.amount = 0) ∨
  (0 < pool.totalLiquidity.amount ∧ 0 < pool.tokenAReserve.amount ∧ 0 < pool.tokenBReserve.amount)

def State.Even (s : State) : Prop :=
  ∀ id pool, s.pools.get id = some pool → pool.Even

-- No pool passes the check of its initial liquidity with one side only, and nobody who can pay sells
-- to a pool without shares for nothing.
def Sensible (s : State) : Action → Prop
  | .deliver (.createPool _ tokenA tokenB _) =>
    ∀ params, s.params = some params →
      params.minLiquidity.toInt64.toInt ≤ tokenA.amount →
      params.minLiquidity.toInt64.toInt ≤ tokenB.amount → (tokenA.amount = 0 ↔ tokenB.amount = 0)
  | .deliver (.swap sender poolId tokenIn _ minTokenOut) =>
    ∀ pool, s.pools.get poolId = some pool → pool.totalLiquidity.amount = 0 →
      tokenIn.amount ≤ 0 ∨ 0 < minTokenOut.amount ∨
        s.bank.balances sender tokenIn.denom < tokenIn.amount
  | _ => True

variable {k : Keeper} {s s' : State} {pool pool' : Pool} {user creator : AccAddress} {poolId : ℕ}

theorem Pool.Even.iff (h : pool.Even) : pool.totalLiquidity.amount = 0 ↔
    pool.tokenAReserve.amount = 0 ∧ pool.tokenBReserve.amount = 0 := by
  rcases h with h | h <;> omega

theorem Deposited.even {a b : ℤ} (h : Deposited pool pool' a b) (hp : pool.Even) : pool'.Even := by
  have hn := h.nonneg
  have hz := h.nonzero
  have hA := h.amountA
  have hB := h.amountB
  have hL := h.grows
  rcases hp with hp | hp
  · exact absurd hp.2.1 hz.1
  · exact .inr (by omega)

-- What a part of the shares takes out leaves something of the reserve.
theorem tdiv_lt {l r total : ℤ} (hl : 0 ≤ l) (hlt : l < total) (hr : 0 < r) :
    (l * r).tdiv total < r := by
  rw [Int.tdiv_eq_ediv_of_nonneg (mul_nonneg hl hr.le)]
  apply Int.ediv_lt_of_lt_mul (hl.trans_lt hlt)
  rw [mul_comm r]
  exact mul_lt_mul_of_pos_right hlt hr

theorem Withdrawn.even {l : ℤ} (h : Withdrawn pool pool' l) (hp : pool.Even) : pool'.Even := by
  have hz := h.nonzero
  have hA := h.amountA
  have hB := h.amountB
  have hL := h.shares
  rcases hp with hp | ⟨_, hrA, hrB⟩
  · exact absurd hp.1 hz
  · by_cases hall : l = pool.totalLiquidity.amount
    case pos =>
      rw [hall, Int.mul_tdiv_cancel_left _ hz] at hA hB
      exact .inl (by omega)
    case neg =>
      have hlt : l < pool.totalLiquidity.amount := by
        have hleft := h.left.2.2
        omega
      have hoA := tdiv_lt h.nonneg hlt hrA
      have hoB := tdiv_lt h.nonneg hlt hrB
      exact .inr (by omega)

theorem swapOut_le (a rIn rOut fee : ℤ) (percent : UInt32) :
    swapOut a rIn rOut fee percent ≤ drainLimit rOut percent := by
  rw [swapOut, ← maxDrain_tdiv]
  exact Int.tdiv_le_tdiv LegacyDec.precisionReuse_pos (min_le_right ..)

theorem drainLimit_lt {rOut : ℤ} {percent : UInt32} (hp : percent.toNat ≤ 30) (hr : 0 < rOut) :
    drainLimit rOut percent < rOut := by
  rw [drainLimit, Int.tdiv_eq_ediv_of_nonneg (by positivity)]
  apply Int.ediv_lt_of_lt_mul (by decide)
  exact mul_lt_mul_of_pos_left (by omega) hr

theorem TradedSide.pos {rIn rOut rIn' rOut' fee a : ℤ} {percent : UInt32}
    (h : TradedSide rIn rOut rIn' rOut' fee percent a) (hp : percent.toNat ≤ 30) (hIn : 0 < rIn)
    (hOut : 0 < rOut) : 0 < rIn' ∧ 0 < rOut' := by
  have hle := swapOut_le a rIn rOut fee percent
  have hlt := drainLimit_lt hp hOut
  have hn := h.nonneg
  have hI := h.amtIn
  have hO := h.amtOut
  omega

theorem Traded.even {a : ℤ} {percent : UInt32} (h : Traded pool pool' percent a)
    (hp : percent.toNat ≤ 30) (hL : pool.totalLiquidity.amount ≠ 0) (he : pool.Even) :
    pool'.Even := by
  rcases he with he | ⟨hpos, hA, hB⟩
  · exact absurd he.1 hL
  · rw [← h.shares] at hpos
    rcases h.sides with hs | hs
    · exact .inr ⟨hpos, hs.pos hp hA hB⟩
    · exact .inr ⟨hpos, (hs.pos hp hB hA).symm⟩

theorem of_createPool_amounts {tokenA tokenB : Coin} {fee : String}
    (h : k.createPool creator tokenA tokenB fee s = .ok (s', poolId)) :
    (∃ params, s.params = some params ∧ params.minLiquidity.toInt64.toInt ≤ tokenA.amount ∧
      params.minLiquidity.toInt64.toInt ≤ tokenB.amount) ∧ 0 ≤ tokenA.amount ∧ 0 ≤ tokenB.amount ∧
    ∃ pool, s'.pools = s.pools.set poolId pool ∧ pool.tokenAReserve = tokenA ∧
      pool.tokenBReserve = tokenB ∧
      pool.totalLiquidity.amount = integerSqrt (tokenA.amount * tokenB.amount) := by
  simp only [Keeper.createPool, Result.bind_eq_ok, failIf_eq_ok, orFail_eq_ok,
    Result.pure_eq_ok, Prod.mk.injEq, not_or, not_lt] at h
  obtain ⟨_, _, params, hp, _, _, _, hmin, paid, hpaid, _, _, x, hx, liq, hliq, _, _, _, _, _, _, _, _,
    hs, hid⟩ := h
  subst hs hid
  obtain ⟨hA, hB⟩ := Coins.of_new_pair hpaid
  refine ⟨⟨params, hp, hmin⟩, hA, hB, _, rfl, rfl, rfl, ?_⟩
  rw [(Coin.of_new hliq).1, MathInt.of_mul hx]

theorem integerSqrt_pos {x : ℤ} (h : 0 < x) : 0 < integerSqrt x := by
  rw [integerSqrt, if_neg h.not_gt, Int.natCast_pos, Nat.sqrt_pos]
  omega

theorem created_even {tokenA tokenB : Coin} {fee : String}
    (h : k.createPool creator tokenA tokenB fee s = .ok (s', poolId))
    (hg : Sensible s (.deliver (.createPool creator tokenA tokenB fee))) (hs : s.Even) :
    s'.Even := by
  obtain ⟨⟨params, hp, hminA, hminB⟩, hnA, hnB, pool, hset, hA, hB, hL⟩ := of_createPool_amounts h
  have hz : tokenA.amount = 0 ↔ tokenB.amount = 0 := hg params hp hminA hminB
  intro id pool' hget
  rw [hset, KVStore.get_set] at hget
  split at hget
  case isFalse => exact hs id pool' hget
  case isTrue =>
    cases hget
    rw [Pool.Even, hL, hA, hB]
    by_cases ha : tokenA.amount = 0
    case pos => exact .inl ⟨by simp [ha, integerSqrt], ha, hz.mp ha⟩
    case neg =>
      have hpA : 0 < tokenA.amount := by omega
      have hpB : 0 < tokenB.amount := by omega
      exact .inr ⟨integerSqrt_pos (mul_pos hpA hpB), hpA, hpB⟩

theorem Replaced.even (h : Replaced k user poolId pool pool' s s') (hs : s.Even)
    (hp : pool.Even → pool'.Even) : s'.Even := by
  intro id p hget
  rw [h.pools, KVStore.get_set] at hget
  split at hget
  case isFalse => exact hs id p hget
  case isTrue =>
    cases hget
    exact hp (hs poolId pool h.get)

variable {sender : AccAddress} {tokenIn minTokenOut tokenOut : Coin} {tokenOutDenom : String}

theorem named_of_swap
    (h : k.swap sender poolId tokenIn tokenOutDenom minTokenOut s = .ok (s', tokenOut)) :
    ∃ pool params reserveIn reserveOut,
      Named s poolId tokenIn tokenOutDenom pool params reserveIn reserveOut := by
  simp only [Keeper.swap, quote_eq, Result.bind_eq_ok, orFail_eq_ok] at h
  obtain ⟨pool, hget, params, hp, _, ⟨⟨rIn, rOut⟩, hs, _⟩, _⟩ := h
  exact ⟨pool, params, rIn, rOut, hget, hp, hs⟩

theorem Pool.of_sides {tokenInDenom : String} {reserveIn reserveOut : Coin}
    (h : pool.sides tokenInDenom tokenOutDenom = some (reserveIn, reserveOut)) :
    reserveIn = pool.tokenAReserve ∧ reserveOut = pool.tokenBReserve ∨
    reserveIn = pool.tokenBReserve ∧ reserveOut = pool.tokenAReserve := by
  simp only [Pool.sides] at h
  split_ifs at h <;> simp_all

-- Who pays a coin has it.
theorem of_settle (h : (k.settle sender pool tokenIn tokenOut s).isOk = true) :
    0 ≤ tokenIn.amount ∧
    (0 < tokenIn.amount → tokenIn.amount ≤ s.bank.balances sender tokenIn.denom) := by
  simp only [Keeper.settle, Result.isOk_iff, Result.bind_eq_ok] at h
  obtain ⟨_, paid, hpaid, _, hsend, _⟩ := h
  refine ⟨(Coins.of_new hpaid).2.2 tokenIn (by simp), fun hpos => ?_⟩
  have hone : paid = [tokenIn] := by
    simp only [Coins.new, Result.bind_eq_ok, Result.pure_eq_ok] at hpaid
    obtain ⟨_, _, rfl⟩ := hpaid
    simp [hpos.ne']
  rw [hone] at hsend
  simp only [Bank.sendCoins, Bank.subUnlockedCoins, Result.bind_eq_ok, failIf_eq_ok, not_lt] at hsend
  obtain ⟨_, ⟨_, hle, _⟩, _⟩ := hsend
  exact hle

-- A pool without reserves sells nothing, so a trade with it is a gift.
theorem swap_drained
    (h : k.swap sender poolId tokenIn tokenOutDenom minTokenOut s = .ok (s', tokenOut))
    (hget : s.pools.get poolId = some pool) (hA : pool.tokenAReserve.amount = 0)
    (hB : pool.tokenBReserve.amount = 0) : 0 < tokenIn.amount ∧ minTokenOut.amount ≤ 0 ∧
      tokenIn.amount ≤ s.bank.balances sender tokenIn.denom := by
  obtain ⟨pool', params, rIn, rOut, hn⟩ := named_of_swap h
  cases hget.symm.trans hn.get
  have hzero : rIn.amount = 0 ∧ rOut.amount = 0 := by
    rcases Pool.of_sides hn.sides with ⟨rfl, rfl⟩ | ⟨rfl, rfl⟩
    · exact ⟨hA, hB⟩
    · exact ⟨hB, hA⟩
  obtain ⟨out, hc, hmin, _, hlimit, hsettle⟩ := (swap_isOk_iff hn).mp (Result.isOk_iff.mpr ⟨_, h⟩)
  have hne := (of_calculateSwap hc).1
  obtain ⟨hnonneg, hpays⟩ := of_settle hsettle
  have hin : tokenIn.amount ≠ 0 := fun h₀ => hne (by simp [hzero.1, h₀, afterFee])
  have hpos : 0 < tokenIn.amount := by omega
  rw [hzero.2, drainLimit, zero_mul, Int.zero_tdiv] at hlimit
  exact ⟨hpos, hmin.trans hlimit, hpays hpos⟩

theorem deliver_even {m : Msg} (h : k.deliver s m = .ok s') (hg : Sensible s (.deliver m))
    (hw : s.WellFormed) (hs : s.Even) : s'.Even := by
  cases m with
  | createPool creator tokenA tokenB fee =>
    simp only [Keeper.deliver, Result.bind_eq_ok, Result.pure_eq_ok] at h
    obtain ⟨⟨s₁, id⟩, h, rfl⟩ := h
    exact created_even h hg hs
  | addLiquidity provider poolId tokenA tokenB =>
    obtain ⟨_, _, hr, hd⟩ := of_addLiquidity h
    exact hr.even hs hd.even
  | removeLiquidity provider poolId tokens =>
    simp only [Keeper.deliver, Result.bind_eq_ok, Result.pure_eq_ok] at h
    obtain ⟨⟨s₁, outs⟩, h, rfl⟩ := h
    obtain ⟨_, _, hr, hwd⟩ := of_removeLiquidity h
    exact hr.even hs hwd.even
  | swap sender poolId tokenIn tokenOutDenom minTokenOut =>
    simp only [Keeper.deliver, Result.bind_eq_ok, Result.pure_eq_ok] at h
    obtain ⟨⟨s₁, out⟩, h, rfl⟩ := h
    obtain ⟨pool, _, params, hp, hr, ht⟩ := of_swap h
    have hne : pool.totalLiquidity.amount ≠ 0 := by
      intro hL
      obtain ⟨hA, hB⟩ := (hs poolId pool hr.get).iff.mp hL
      have hgift := swap_drained h hr.get hA hB
      have hsane := hg pool hr.get hL
      omega
    exact hr.even hs (ht.even (hw.params hp).drain.2 hne)
  | updateParams authority params =>
    simp only [Keeper.deliver, Keeper.updateParams, Result.bind_eq_ok, Result.pure_eq_ok] at h
    obtain ⟨_, _, _, _, rfl⟩ := h
    exact hs

theorem next_even {a : Action} (hg : Sensible s a) (hw : s.WellFormed) (hs : s.Even) :
    (k.next s a).Even := by
  rw [Keeper.next]
  split
  case h_2 => exact hs
  case h_1 s' h =>
    cases a with
    | deliver m => exact deliver_even h hg hw hs
    | send | mint | burn =>
      simp only [Keeper.act, Result.bind_eq_ok, Result.pure_eq_ok] at h
      obtain ⟨_, _, rfl⟩ := h
      exact hs

theorem even_invariant (k : Keeper) :
    (system k).Invariant Sensible fun s => s.WellFormed ∧ s.Even :=
  wellFormed_invariant.strengthen (fun h id pool hget => by simp [h.pools] at hget)
    fun hw hs hg ht => ht.2 ▸ next_even hg hw hs

-- While nobody opens a pool with one side or sells to a drained one for nothing, a pool has no
-- shares exactly when it has no reserves.
theorem drained_iff_empty (k : Keeper) {s : State} (h : (system k).Run Sensible s) :
    ∀ id pool, s.pools.get id = some pool → (pool.totalLiquidity.amount = 0 ↔
      pool.tokenAReserve.amount = 0 ∧ pool.tokenBReserve.amount = 0) :=
  fun id pool hget => (((even_invariant k).holds h).2 id pool hget).iff

namespace Sample

def redeem : Msg :=
  .removeLiquidity alice 1 ⟨"liquidity-1", 6324⟩

def gift : Msg :=
  .swap alice 1 ⟨"uatom", 1000⟩ "umlcn" ⟨"umlcn", 0⟩

def redeemed : State :=
  keeper.next listed (.deliver redeem)

def stranded : State :=
  keeper.next redeemed (.deliver gift)

theorem redeemed_run : (system keeper).Run Sensible redeemed :=
  .step (a := .deliver redeem)
    (.step (a := .deliver list) (.init genesis_empty) (fun _ _ _ _ => by decide) ⟨trivial, rfl⟩)
    trivial ⟨trivial, rfl⟩

end Sample

-- The pool is drained by its only provider.
theorem redeemed_drained :
    (∃ pool, Sample.redeemed.pools.get 1 = some pool ∧ pool.totalLiquidity.amount = 0) ∧
    ∀ id pool, Sample.redeemed.pools.get id = some pool → (pool.totalLiquidity.amount = 0 ↔
      pool.tokenAReserve.amount = 0 ∧ pool.tokenBReserve.amount = 0) :=
  ⟨⟨⟨1, "uatom", "umlcn", ⟨"uatom", 0⟩, ⟨"umlcn", 0⟩, ⟨"liquidity-1", 0⟩, "0.003", Sample.alice⟩,
    by decide +kernel, rfl⟩, drained_iff_empty Sample.keeper Sample.redeemed_run⟩

-- A trade with the drained pool leaves coins in it that no share stands for.
theorem gift_stranded :
    ¬∀ (k : Keeper) (s : State), (system k).Reachable s → ∀ id pool, s.pools.get id = some pool →
      (pool.totalLiquidity.amount = 0 ↔
        pool.tokenAReserve.amount = 0 ∧ pool.tokenBReserve.amount = 0) := by
  intro h
  have hreachable : (system Sample.keeper).Reachable Sample.stranded :=
    .step (a := .deliver Sample.gift) Sample.redeemed_run.reachable trivial ⟨trivial, rfl⟩
  have hget : Sample.stranded.pools.get 1 =
      some ⟨1, "uatom", "umlcn", ⟨"uatom", 1000⟩, ⟨"umlcn", 0⟩, ⟨"liquidity-1", 0⟩, "0.003",
        Sample.alice⟩ := by
    decide +kernel
  have hiff := h Sample.keeper Sample.stranded hreachable 1 _ hget
  simp at hiff

end Dex
