import MallChain.Dex.Keeper

-- What the operations of the keeper do when they succeed. The later modules only use these facts.

namespace Dex

open Sdk

namespace State

-- What the records of one pool add up to.
def shareSum (s : State) (poolId : ℕ) : ℤ :=
  s.poolLiquidity.sum fun key c => if (ofLex key).1 = poolId then c.amount else 0

def record (s : State) (poolId : ℕ) (provider : AccAddress) : Option Coin :=
  s.poolLiquidity.get (liquidityKey poolId provider)

end State

def Pool.reserves (pool : Pool) : Coins :=
  [pool.tokenAReserve, pool.tokenBReserve]

-- The coins in which the second pool exceeds the first.
def Pool.gain (pool pool' : Pool) : Coins := [
  ⟨pool.tokenAReserve.denom, pool'.tokenAReserve.amount - pool.tokenAReserve.amount⟩,
  ⟨pool.tokenBReserve.denom, pool'.tokenBReserve.amount - pool.tokenBReserve.amount⟩
]

def Pool.minted (pool pool' : Pool) : Coins :=
  [⟨pool.totalLiquidity.denom, pool'.totalLiquidity.amount - pool.totalLiquidity.amount⟩]

-- The pool that `CreatePool` adds.
structure Created (k : Keeper) (creator : AccAddress) (pool : Pool) (s s' : State) : Prop where
  id        : pool.id = s.getNextPoolId
  denomA    : pool.tokenAReserve.denom = pool.tokenADenom
  denomB    : pool.tokenBReserve.denom = pool.tokenBDenom
  denoms    : pool.tokenADenom ≠ pool.tokenBDenom
  denomL    : pool.totalLiquidity.denom = liquidityDenom pool.id
  nonneg    : 0 ≤ pool.tokenAReserve.amount ∧ 0 ≤ pool.tokenBReserve.amount ∧
    0 ≤ pool.totalLiquidity.amount
  fee       : ∃ params, s.params = some params ∧ validateFee pool.fee params = .ok ()
  pools     : s'.pools = s.pools.set pool.id pool
  records   : s'.poolLiquidity = s.poolLiquidity.set (liquidityKey pool.id creator) pool.totalLiquidity
  params    : s'.params = s.params
  next      : s'.nextPoolId = some (pool.id + 1)
  bank      : Bank.Changed s.bank s'.bank
    (Bank.held k.moduleAddr pool.reserves - Bank.held creator pool.reserves +
      Bank.held creator [pool.totalLiquidity])
    (Coins.amountOf [pool.totalLiquidity])

-- The pool that `AddLiquidity`, `RemoveLiquidity` and `Swap` replace, with everything they leave
-- alone.
structure Replaced (k : Keeper) (user : AccAddress) (poolId : ℕ) (pool pool' : Pool)
    (s s' : State) : Prop where
  get       : s.pools.get poolId = some pool
  id        : pool'.id = pool.id
  fee       : pool'.fee = pool.fee
  denomA    : pool'.tokenADenom = pool.tokenADenom ∧
    pool'.tokenAReserve.denom = pool.tokenAReserve.denom
  denomB    : pool'.tokenBDenom = pool.tokenBDenom ∧
    pool'.tokenBReserve.denom = pool.tokenBReserve.denom
  denomL    : pool'.totalLiquidity.denom = pool.totalLiquidity.denom
  pools     : s'.pools = s.pools.set poolId pool'
  shareSum  : ∀ id, s'.shareSum id = s.shareSum id +
    if poolId = id then pool'.totalLiquidity.amount - pool.totalLiquidity.amount else 0
  records   : ∀ id provider, s'.record id provider ≠ none →
    id = poolId ∨ s.record id provider ≠ none
  params    : s'.params = s.params
  next      : s'.nextPoolId = s.nextPoolId
  bank      : Bank.Changed s.bank s'.bank
    (Bank.held k.moduleAddr (pool.gain pool') - Bank.held user (pool.gain pool') +
      Bank.held user (pool.minted pool'))
    (Coins.amountOf (pool.minted pool'))

variable {k : Keeper} {s s' : State} {pool : Pool} {creator provider : AccAddress} {poolId : ℕ}
variable {tokenA tokenB : Coin} {fee : String}

theorem held_congr {addr : AccAddress} {cs cs' : Coins} (h : ∀ d, cs.amountOf d = cs'.amountOf d) :
    Bank.held addr cs = Bank.held addr cs' := by
  funext a d
  simp [Bank.held, h d]

@[simp]
theorem ofLex_key : ofLex (liquidityKey poolId provider) = (poolId, provider) :=
  rfl

theorem key_eq_iff {id id' : ℕ} {provider' : AccAddress} :
    liquidityKey id provider = liquidityKey id' provider' ↔ id = id' ∧ provider = provider' := by
  simp [liquidityKey]

-- Paying coins that `NewCoins` accepted moves the amounts it was given.
theorem of_pay {b b' : Bank} {addr addr' : AccAddress} {cs paid : Coins}
    (hp : Coins.new cs = .ok paid) (hb : b.sendCoins addr addr' paid = .ok b') :
    Bank.Changed b b' (Bank.held addr' cs - Bank.held addr cs) 0 := by
  have h := Bank.of_sendCoins hb
  rwa [held_congr (Coins.of_new hp).1, held_congr (Coins.of_new hp).1] at h

theorem of_payOut {b b' : Bank} {addr addr' : AccAddress} {cs paid : Coins}
    (hp : Coins.new cs = .ok paid) (hb : b.sendCoinsFromModuleToAccount addr addr' paid = .ok b') :
    Bank.Changed b b' (Bank.held addr' cs - Bank.held addr cs) 0 := by
  have h := Bank.of_sendCoinsFromModuleToAccount hb
  rwa [held_congr (Coins.of_new hp).1, held_congr (Coins.of_new hp).1] at h

theorem of_mint {b b' : Bank} {addr : AccAddress} {cs minted : Coins}
    (hm : Coins.new cs = .ok minted) (hb : b.mintCoins addr minted = .ok b') :
    Bank.Changed b b' (Bank.held addr cs) (Coins.amountOf cs) := by
  have h := Bank.of_mintCoins hb
  rwa [held_congr (Coins.of_new hm).1, funext (Coins.of_new hm).1] at h

theorem of_burn {b b' : Bank} {addr : AccAddress} {cs burned : Coins}
    (hm : Coins.new cs = .ok burned) (hb : b.burnCoins addr burned = .ok b') :
    Bank.Changed b b' (-Bank.held addr cs) (-Coins.amountOf cs) := by
  have h := Bank.of_burnCoins hb
  rwa [held_congr (Coins.of_new hm).1, funext (Coins.of_new hm).1] at h

theorem of_createPool (h : k.createPool creator tokenA tokenB fee s = .ok (s', poolId)) :
    ∃ pool, poolId = pool.id ∧ Created k creator pool s s' := by
  simp only [Keeper.createPool, Result.bind_eq_ok, failIf_eq_ok, orFail_eq_ok,
    Result.pure_eq_ok, Prod.mk.injEq] at h
  obtain ⟨_, hne, params, hp, _, hv, _, _, paid, hpaid, b₁, hb₁, _, _, liq, hliq,
    m, hm, b₂, hb₂, m', hm', b₃, hb₃, hs, hid⟩ := h
  subst hs
  refine ⟨⟨s.getNextPoolId, tokenA.denom, tokenB.denom, tokenA, tokenB, liq,
    if fee = "" then params.defaultFee else fee, creator⟩, hid.symm, ?_⟩
  obtain ⟨hA, hB⟩ := Coins.of_new_pair hpaid
  obtain ⟨hl, hln⟩ := Coin.of_new hliq
  constructor
  case fee    => exact ⟨params, hp, hv⟩
  case nonneg => exact ⟨hA, hB, hl ▸ hln⟩
  case denoms => exact hne
  case denomL => exact hl ▸ rfl
  case bank   =>
    have hb := (of_pay hpaid hb₁).trans <| (of_mint hm hb₂).trans (of_payOut hm' hb₃)
    refine hb.congr (fun a d => ?_) (by simp)
    simp only [Pool.reserves, Pi.add_apply, Pi.sub_apply]
    ring
  all_goals rfl

variable {tokenAAmount tokenBAmount liquidityTokens : Coin}

theorem shareSum_set (s : State) (poolId : ℕ) (provider : AccAddress) (c : Coin) (id : ℕ) :
    (s.poolLiquidity.set (liquidityKey poolId provider) c).sum
        (fun key c => if (ofLex key).1 = id then c.amount else 0) =
      s.shareSum id + if poolId = id then c.amount - ((s.record poolId provider).elim 0 (·.amount))
        else 0 := by
  rw [KVStore.sum_set, State.shareSum, State.record]
  by_cases hid : poolId = id
  case neg => cases s.poolLiquidity.get (liquidityKey poolId provider) <;> simp [KVStore.part, hid]
  case pos =>
    cases s.poolLiquidity.get (liquidityKey poolId provider) with
    | none => simp [KVStore.part, hid]
    | some c' =>
      simp only [KVStore.part, ofLex_key, hid, if_true, Option.elim]
      ring

theorem shareSum_remove (s : State) (poolId : ℕ) (provider : AccAddress) (id : ℕ) :
    (s.poolLiquidity.remove (liquidityKey poolId provider)).sum
        (fun key c => if (ofLex key).1 = id then c.amount else 0) =
      s.shareSum id - if poolId = id then (s.record poolId provider).elim 0 (·.amount) else 0 := by
  rw [KVStore.sum_remove, State.shareSum, State.record]
  by_cases hid : poolId = id <;>
    cases s.poolLiquidity.get (liquidityKey poolId provider) <;> simp [KVStore.part, hid]

-- The amounts of a successful deposit and the shares that were minted for it.
structure Deposited (pool pool' : Pool) (a b : ℤ) : Prop where
  nonneg  : 0 ≤ a ∧ 0 ≤ b
  nonzero : pool.tokenAReserve.amount ≠ 0 ∧ pool.tokenBReserve.amount ≠ 0
  amountA : pool'.tokenAReserve.amount = pool.tokenAReserve.amount + a
  amountB : pool'.tokenBReserve.amount = pool.tokenBReserve.amount + b
  shares  : pool'.totalLiquidity.amount = pool.totalLiquidity.amount +
    min ((a * pool.totalLiquidity.amount).tdiv pool.tokenAReserve.amount)
      ((b * pool.totalLiquidity.amount).tdiv pool.tokenBReserve.amount)
  grows   : pool.totalLiquidity.amount ≤ pool'.totalLiquidity.amount

theorem of_addLiquidity (h : k.addLiquidity provider poolId tokenA tokenB s = .ok s') :
    ∃ pool pool', Replaced k provider poolId pool pool' s s' ∧
      Deposited pool pool' tokenA.amount tokenB.amount := by
  simp only [Keeper.addLiquidity, Result.bind_eq_ok, failIf_eq_ok, orFail_eq_ok,
    Result.pure_eq_ok, not_or, not_not] at h
  obtain ⟨pool, hget, _, hd, _, hz, _, hmA, _, hqA, _, hmB, _, hqB, _, hl₀, liq, hliq,
    paid, hpaid, b₁, hb₁, m, hm, b₂, hb₂, m', hm', b₃, hb₃, resA, hA, resB, hB, total, hL,
    newLiq, hnew, hs⟩ := h
  subst hs
  obtain ⟨hnA, hnB⟩ := Coins.of_new_pair hpaid
  obtain ⟨hl, hln⟩ := Coin.of_new hliq
  obtain ⟨heA, hA⟩ := Coin.of_add hA
  obtain ⟨heB, hB⟩ := Coin.of_add hB
  obtain ⟨_, hL⟩ := Coin.of_add hL
  obtain ⟨_, hnew⟩ := Coin.of_add hnew
  obtain ⟨_, hqA⟩ := MathInt.of_mul_quo hmA hqA
  obtain ⟨_, hqB⟩ := MathInt.of_mul_quo hmB hqB
  let pool' := { pool with tokenAReserve := resA, tokenBReserve := resB, totalLiquidity := total }
  have hg : pool.gain pool' = [tokenA, tokenB] := by simp [Pool.gain, pool', hA, hB, heA, heB]
  have hm₁ : pool.minted pool' = [liq] := by simp [Pool.minted, pool', hL, hl]
  refine ⟨pool, pool', ?_, ?_⟩
  case refine_1 =>
    constructor
    case get      => exact hget
    case denomA   => exact ⟨rfl, by simp [pool', hA]⟩
    case denomB   => exact ⟨rfl, by simp [pool', hB]⟩
    case denomL   => simp [pool', hL]
    case shareSum =>
      intro id
      have hrec : newLiq.amount - (s.record poolId provider).elim 0 (·.amount) =
          total.amount - pool.totalLiquidity.amount := by
        rw [hnew, hL, State.record]
        cases s.poolLiquidity.get (liquidityKey poolId provider) <;> simp
      exact hrec ▸ shareSum_set s poolId provider newLiq id
    case records  =>
      intro id prov hr
      by_cases heq : liquidityKey id prov = liquidityKey poolId provider
      case pos => exact .inl (key_eq_iff.mp heq).1
      case neg => exact .inr fun hn => hr ((KVStore.get_set_ne heq).trans hn)
    case bank     =>
      rw [hg, hm₁]
      have hb := (of_pay hpaid hb₁).trans <| (of_mint hm hb₂).trans (of_payOut hm' hb₃)
      refine hb.congr (fun a d => ?_) (by simp)
      simp only [Pi.add_apply, Pi.sub_apply]
      ring
    all_goals rfl
  case refine_2 =>
    constructor
    case nonneg  => exact ⟨hnA, hnB⟩
    case nonzero => exact hz
    case amountA => simp [pool', hA]
    case amountB => simp [pool', hB]
    case shares  => simp only [pool', hL, hl, hqA, hqB, min_def]; split_ifs <;> omega
    case grows   => simpa [pool', hL, hl] using hln

-- The amounts of a successful withdrawal of `l` shares.
structure Withdrawn (pool pool' : Pool) (l : ℤ) : Prop where
  nonneg  : 0 ≤ l
  nonzero : pool.totalLiquidity.amount ≠ 0
  amountA : pool'.tokenAReserve.amount = pool.tokenAReserve.amount -
    (l * pool.tokenAReserve.amount).tdiv pool.totalLiquidity.amount
  amountB : pool'.tokenBReserve.amount = pool.tokenBReserve.amount -
    (l * pool.tokenBReserve.amount).tdiv pool.totalLiquidity.amount
  shares  : pool'.totalLiquidity.amount = pool.totalLiquidity.amount - l
  left    : 0 ≤ pool'.tokenAReserve.amount ∧ 0 ≤ pool'.tokenBReserve.amount ∧
    0 ≤ pool'.totalLiquidity.amount

theorem of_removeLiquidity {outs : Coin × Coin}
    (h : k.removeLiquidity provider poolId liquidityTokens s = .ok (s', outs)) :
    ∃ pool pool', Replaced k provider poolId pool pool' s s' ∧
      Withdrawn pool pool' liquidityTokens.amount := by
  simp only [Keeper.removeLiquidity, Result.bind_eq_ok, failIf_eq_ok, orFail_eq_ok,
    Result.pure_eq_ok, Prod.mk.injEq] at h
  obtain ⟨pool, hget, rec, hrec, _, _, _, hmA, _, hqA, _, hmB, _, hqB, outA, houtA, outB, houtB,
    paid, hpaid, b₁, hb₁, burned, hburned, b₂, hb₂, m, hm, b₃, hb₃, resA, hA, resB, hB,
    total, hL, newLiq, hnew, hs, _⟩ := h
  subst hs
  obtain ⟨_, _, hn⟩ := Coins.of_new hpaid
  obtain ⟨houtA, _⟩ := Coin.of_new houtA
  obtain ⟨houtB, _⟩ := Coin.of_new houtB
  obtain ⟨heA, hA, hleA⟩ := Coin.of_sub hA
  obtain ⟨heB, hB, hleB⟩ := Coin.of_sub hB
  obtain ⟨heL, hL, hleL⟩ := Coin.of_sub hL
  obtain ⟨_, hnew, _⟩ := Coin.of_sub hnew
  obtain ⟨_, hqA⟩ := MathInt.of_mul_quo hmA hqA
  obtain ⟨hz, hqB⟩ := MathInt.of_mul_quo hmB hqB
  let pool' := { pool with tokenAReserve := resA, tokenBReserve := resB, totalLiquidity := total }
  have hg : ∀ d, Coins.amountOf (pool.gain pool') d = -Coins.amountOf [outA, outB] d := by
    intro d
    simp only [Pool.gain, pool', hA, hB, heA, heB, Coins.amountOf_cons, Coins.amountOf_nil]
    split_ifs <;> ring
  have hm₁ : ∀ d, Coins.amountOf (pool.minted pool') d = -Coins.amountOf [liquidityTokens] d := by
    intro d
    simp only [Pool.minted, pool', hL, heL, Coins.amountOf_cons, Coins.amountOf_nil]
    split_ifs <;> ring
  refine ⟨pool, pool', ?_, ?_⟩
  case refine_1 =>
    constructor
    case get      => exact hget
    case denomA   => exact ⟨rfl, by simp [pool', hA]⟩
    case denomB   => exact ⟨rfl, by simp [pool', hB]⟩
    case denomL   => simp [pool', hL]
    case shareSum =>
      intro id
      have hr : (s.record poolId provider).elim 0 (·.amount) = rec.amount := by
        rw [State.record, hrec, Option.elim]
      have hd : newLiq.amount - rec.amount = total.amount - pool.totalLiquidity.amount := by
        rw [hnew, hL]
        ring
      by_cases hz : newLiq.amount = 0
      case pos =>
        simp only [State.shareSum, hz, if_true]
        refine (shareSum_remove s poolId provider id).trans ?_
        rw [hr, ← hd, hz, sub_eq_add_neg, zero_sub, apply_ite Neg.neg, neg_zero]
        rfl
      case neg =>
        simp only [State.shareSum, hz, if_false]
        exact hd ▸ hr ▸ shareSum_set s poolId provider newLiq id
    case records  =>
      intro id prov hr
      by_cases heq : liquidityKey id prov = liquidityKey poolId provider
      case pos => exact .inl (key_eq_iff.mp heq).1
      case neg =>
        refine .inr fun hn => hr ?_
        simp only [State.record]
        split_ifs
        · exact (KVStore.get_remove_ne heq).trans hn
        · exact (KVStore.get_set_ne heq).trans hn
    case bank     =>
      have hb := (of_pay hpaid hb₁).trans <| (of_burn hburned hb₂).trans (of_payOut hm hb₃)
      refine hb.congr (fun a d => ?_) fun d => ?_
      · simp only [Pi.add_apply, Pi.sub_apply, Pi.neg_apply, Bank.held, hg, hm₁]
        split_ifs <;> ring
      · simp [hm₁]
    all_goals rfl
  case refine_2 =>
    constructor
    case nonneg  => exact hn liquidityTokens (by simp)
    case nonzero => exact hz
    case amountA => simp [pool', hA, houtA, hqA]
    case amountB => simp [pool', hB, houtB, hqB]
    case shares  => simp [pool', hL]
    case left    =>
      simp only [pool', hA, hB, hL]
      omega

-- The numbers of `calculateSwap`: the input after the fee and the quote are scaled by `10 ^ 18`.
section

variable (a rIn rOut fee : ℤ) (percent : UInt32)

def afterFee : ℤ :=
  a * (LegacyDec.precisionReuse - fee)

def quoted : ℤ :=
  LegacyDec.chopPrecisionAndRound <|
    (afterFee a fee * rOut * LegacyDec.precisionReuse * LegacyDec.precisionReuse).tdiv
      (rIn * LegacyDec.precisionReuse + afterFee a fee)

def maxDrain : ℤ :=
  rOut * (percent.toNat * 10 ^ 16)

def swapOut : ℤ :=
  (min (quoted a rIn rOut fee) (maxDrain rOut percent)).tdiv LegacyDec.precisionReuse

end

theorem percent_eq (n : ℕ) :
    (LegacyDec.ofInt n).quo (LegacyDec.ofInt 100) = LegacyDec.assertInValidRange (n * 10 ^ 16) := by
  have hq : ((n : ℤ) * 10 ^ 18 * 10 ^ 18 * 10 ^ 18).tdiv (100 * 10 ^ 18) =
      (n : ℤ) * 10 ^ 16 * 10 ^ 18 := by
    rw [Int.tdiv_eq_ediv_of_nonneg (by positivity)]
    omega
  rw [LegacyDec.quo, if_neg (by decide)]
  simp only [LegacyDec.ofInt, LegacyDec.precisionReuse, LegacyDec.precision, hq]
  exact congrArg LegacyDec.assertInValidRange (Rounding.halfEven_mul (by decide))

theorem of_percent {n : ℕ} {dec : LegacyDec}
    (h : (LegacyDec.ofInt n).quo (LegacyDec.ofInt 100) = .ok dec) : dec.i = n * 10 ^ 16 :=
  LegacyDec.of_assertInValidRange (percent_eq n ▸ h)

theorem of_calculateSwap {tokenIn reserveIn reserveOut out : Coin} {percent : UInt32}
    (h : calculateSwap tokenIn reserveIn reserveOut fee percent = .ok out) :
    reserveIn.amount * LegacyDec.precisionReuse + afterFee tokenIn.amount (parseFeeDec fee).i ≠ 0 ∧
    0 ≤ out.amount ∧ out.denom = reserveOut.denom ∧ out.amount =
      swapOut tokenIn.amount reserveIn.amount reserveOut.amount (parseFeeDec fee).i percent := by
  simp only [calculateSwap, Result.bind_eq_ok] at h
  obtain ⟨f, hf, x, hx, n, hn, d, hd, q, hq, p, hp, m, hm, out', hout', hout⟩ := h
  have hf : f.i = LegacyDec.precisionReuse - (parseFeeDec fee).i := by
    simpa [LegacyDec.ofInt] using LegacyDec.of_sub hf
  have hx : x.i = afterFee tokenIn.amount (parseFeeDec fee).i := by
    rw [LegacyDec.of_ofInt_mul hx, hf, afterFee]
  have hn : n.i = x.i * reserveOut.amount := LegacyDec.of_mul_ofInt hn
  have hd : d.i = reserveIn.amount * LegacyDec.precisionReuse + x.i := LegacyDec.of_add hd
  obtain ⟨hd₀, hq⟩ := LegacyDec.of_quo hq
  have hm : m.i = maxDrain reserveOut.amount percent := by
    rw [LegacyDec.of_ofInt_mul hm, of_percent hp, maxDrain]
  have hout' := LegacyDec.of_truncateInt hout'
  obtain ⟨hout, hpos⟩ := Coin.of_new hout
  rw [hd, hx] at hd₀
  rw [hn, hd, hx, ← quoted] at hq
  have hmin : (if q.i > m.i then m else q).i = min q.i m.i := by
    rw [min_def]
    split_ifs <;> omega
  rw [hmin, hq, hm, ← swapOut] at hout'
  subst hout
  exact ⟨hd₀, hpos, rfl, hout'⟩

-- The amounts of a trade that takes `a` in on the side of `rIn` and pays out of `rOut`.
structure TradedSide (rIn rOut rIn' rOut' fee : ℤ) (percent : UInt32) (a : ℤ) : Prop where
  nonneg  : 0 ≤ a ∧ 0 ≤ swapOut a rIn rOut fee percent
  nonzero : rIn * LegacyDec.precisionReuse + afterFee a fee ≠ 0
  amtIn   : rIn' = rIn + a
  amtOut  : rOut' = rOut - swapOut a rIn rOut fee percent
  left    : 0 ≤ rOut'

structure Traded (pool pool' : Pool) (percent : UInt32) (a : ℤ) : Prop where
  shares : pool'.totalLiquidity = pool.totalLiquidity
  sides  :
    TradedSide pool.tokenAReserve.amount pool.tokenBReserve.amount pool'.tokenAReserve.amount
      pool'.tokenBReserve.amount (parseFeeDec pool.fee).i percent a ∨
    TradedSide pool.tokenBReserve.amount pool.tokenAReserve.amount pool'.tokenBReserve.amount
      pool'.tokenAReserve.amount (parseFeeDec pool.fee).i percent a

variable {pool' : Pool} {tokenIn tokenOut reserveOut minTokenOut : Coin} {tokenOutDenom : String}
variable {percent : UInt32}

-- The two directions of `Swap`. A trade never pays out on the side it takes in.
theorem of_quote (h : pool.quote tokenIn tokenOutDenom percent = .ok (tokenOut, reserveOut)) :
    tokenIn.denom = pool.tokenADenom ∧
      calculateSwap tokenIn pool.tokenAReserve pool.tokenBReserve pool.fee percent = .ok tokenOut ∨
    tokenIn.denom ≠ pool.tokenADenom ∧
      calculateSwap tokenIn pool.tokenBReserve pool.tokenAReserve pool.fee percent = .ok tokenOut := by
  simp only [Pool.quote] at h
  split_ifs at h with hA hB <;>
    simp only [Result.bind_eq_ok, Result.pure_eq_ok, Prod.mk.injEq] at h
  case pos =>
    obtain ⟨_, hc, he, _⟩ := h
    exact .inl ⟨hA.1, he ▸ hc⟩
  case pos =>
    obtain ⟨_, hc, he, _⟩ := h
    refine .inr ⟨fun heq => hA ⟨heq, ?_⟩, he ▸ hc⟩
    exact hB.2.trans <| heq.symm.trans hB.1

-- What `Swap` does to the pool.
structure Settled (pool pool' : Pool) (tokenIn tokenOut : Coin) (percent : UInt32) : Prop where
  id     : pool'.id = pool.id
  fee    : pool'.fee = pool.fee
  denomA : pool'.tokenADenom = pool.tokenADenom ∧
    pool'.tokenAReserve.denom = pool.tokenAReserve.denom
  denomB : pool'.tokenBDenom = pool.tokenBDenom ∧
    pool'.tokenBReserve.denom = pool.tokenBReserve.denom
  traded : Traded pool pool' percent tokenIn.amount
  gain   : ∀ d, Coins.amountOf (pool.gain pool') d =
    Coins.amountOf [tokenIn] d - Coins.amountOf [tokenOut] d

theorem of_trade (hq : pool.quote tokenIn tokenOutDenom percent = .ok (tokenOut, reserveOut))
    (ht : pool.trade tokenIn tokenOut = .ok pool') (hn : 0 ≤ tokenIn.amount) :
    Settled pool pool' tokenIn tokenOut percent := by
  simp only [Pool.trade] at ht
  rcases of_quote hq with ⟨hin, hc⟩ | ⟨hin, hc⟩
  all_goals
    simp only [hin, if_true, if_false, Result.bind_eq_ok, Result.pure_eq_ok] at ht
    obtain ⟨hz, ho, _, ha⟩ := of_calculateSwap hc
    obtain ⟨resIn, hrIn, resOut, hrOut, he⟩ := ht
    obtain ⟨hdIn, hrIn⟩ := Coin.of_add hrIn
    obtain ⟨hdOut, hrOut, hle⟩ := Coin.of_sub hrOut
    subst he hrIn hrOut
  case inl =>
    refine ⟨rfl, rfl, ⟨rfl, rfl⟩, ⟨rfl, rfl⟩, ⟨rfl, .inl ?_⟩, fun d => ?_⟩
    · exact ⟨⟨hn, ha ▸ ho⟩, hz, rfl, by rw [← ha], by simpa using hle⟩
    · simp only [Pool.gain, hdIn, hdOut, Coins.amountOf_cons, Coins.amountOf_nil]
      split_ifs <;> ring
  case inr =>
    refine ⟨rfl, rfl, ⟨rfl, rfl⟩, ⟨rfl, rfl⟩, ⟨rfl, .inr ?_⟩, fun d => ?_⟩
    · exact ⟨⟨hn, ha ▸ ho⟩, hz, rfl, by rw [← ha], by simpa using hle⟩
    · simp only [Pool.gain, hdIn, hdOut, Coins.amountOf_cons, Coins.amountOf_nil]
      split_ifs <;> ring

theorem of_swap
    (h : k.swap provider poolId tokenIn tokenOutDenom minTokenOut s = .ok (s', tokenOut)) :
    ∃ pool pool' params, s.params = some params ∧ Replaced k provider poolId pool pool' s s' ∧
      Traded pool pool' params.maxPoolDrainPercent tokenIn.amount := by
  simp only [Keeper.swap, Result.bind_eq_ok, failIf_eq_ok, orFail_eq_ok,
    Result.pure_eq_ok, Prod.mk.injEq] at h
  obtain ⟨pool, hget, params, hp, ⟨out, rOut⟩, hq, _, _, _, _, _, _, _, _, paid, hpaid, b₁, hb₁,
    m, hm, b₂, hb₂, pool', ht, hs, _⟩ := h
  subst hs
  have hn := (Coins.of_new hpaid).2.2 tokenIn (by simp)
  obtain ⟨hid, hfee, hA, hB, htr, hg⟩ := of_trade hq ht hn
  have hmint : ∀ d, Coins.amountOf (pool.minted pool') d = 0 := by
    intro d
    simp [Pool.minted, htr.shares]
  refine ⟨pool, pool', params, hp, ?_, htr⟩
  constructor
  case get      => exact hget
  case id       => exact hid
  case fee      => exact hfee
  case denomA   => exact hA
  case denomB   => exact hB
  case denomL   => rw [htr.shares]
  case shareSum => intro id; simp [State.shareSum, htr.shares]
  case records  => exact fun _ _ => .inr
  case bank     =>
    refine ((of_pay hpaid hb₁).trans (of_payOut hm hb₂)).congr (fun a d => ?_) fun d => ?_
    · simp only [Pi.add_apply, Pi.sub_apply, Bank.held, hg, hmint]
      split_ifs <;> ring
    · simp [hmint]
  all_goals rfl

end Dex
