import MallChain.Dex.System

namespace Dex

open Sdk

-- The reserves that a trade takes in and pays out of.
def Pool.sides (pool : Pool) (tokenInDenom tokenOutDenom : String) : Option (Coin × Coin) :=
  if tokenInDenom = pool.tokenADenom ∧ tokenOutDenom = pool.tokenBDenom then
    some (pool.tokenAReserve, pool.tokenBReserve)
  else if tokenInDenom = pool.tokenBDenom ∧ tokenOutDenom = pool.tokenADenom then
    some (pool.tokenBReserve, pool.tokenAReserve)
  else none

-- The quote of `calculateSwap` before it is cut down.
def constantProductQuote (tokenIn reserveIn reserveOut : Coin) (fee : String) :
    Result LegacyDec := do
  let feeDec := parseFeeDec fee
  let amountInDec := LegacyDec.ofInt tokenIn.amount
  let reserveInDec := LegacyDec.ofInt reserveIn.amount
  let reserveOutDec := LegacyDec.ofInt reserveOut.amount
  let amountInAfterFee ← amountInDec.mul (← (LegacyDec.ofInt 1).sub feeDec)
  let numerator ← amountInAfterFee.mul reserveOutDec
  let denominator ← reserveInDec.add amountInAfterFee
  numerator.quo denominator

def maxDrainDec (reserveOut : Coin) (maxPoolDrainPercent : UInt32) : Result LegacyDec := do
  (LegacyDec.ofInt reserveOut.amount).mul
    (← (LegacyDec.ofInt maxPoolDrainPercent.toNat).quo (LegacyDec.ofInt 100))

-- The largest amount that the percentage leaves to a trade.
def drainLimit (rOut : ℤ) (percent : UInt32) : ℤ :=
  (rOut * percent.toNat).tdiv 100

-- The part of `Swap` that moves the coins.
def Keeper.settle (k : Keeper) (sender : AccAddress) (pool : Pool) (tokenIn tokenOut : Coin)
    (s : State) : Result (Bank × Pool) := do
  let bank ← s.bank.sendCoins sender k.moduleAddr (← Coins.new [tokenIn])
  let bank ← bank.sendCoinsFromModuleToAccount k.moduleAddr sender (← Coins.new [tokenOut])
  return (bank, ← pool.trade tokenIn tokenOut)

-- The pool, the parameters and the sides that the arguments of `Swap` name.
structure Named (s : State) (poolId : ℕ) (tokenIn : Coin) (tokenOutDenom : String) (pool : Pool)
    (params : Params) (reserveIn reserveOut : Coin) : Prop where
  get   : s.pools.get poolId = some pool
  param : s.params = some params
  sides : pool.sides tokenIn.denom tokenOutDenom = some (reserveIn, reserveOut)

section

variable (k : Keeper) (s : State) (sender : AccAddress) (poolId : ℕ) (tokenIn : Coin)
variable (tokenOutDenom : String) (minTokenOut : Coin)

-- The quote exceeds the percentage of the reserve it is paid from.
def Overdrains : Prop :=
  ∃ pool params reserveIn reserveOut,
    Named s poolId tokenIn tokenOutDenom pool params reserveIn reserveOut ∧
    maxDrain reserveOut.amount params.maxPoolDrainPercent <
      quoted tokenIn.amount reserveIn.amount reserveOut.amount (parseFeeDec pool.fee).i

-- A trade that exceeds the limit is refused and changes nothing.
def RefusesOverdraining : Prop :=
  Overdrains s poolId tokenIn tokenOutDenom →
    (∃ e, k.swap sender poolId tokenIn tokenOutDenom minTokenOut s = .error e) ∧
    k.next s (.deliver (.swap sender poolId tokenIn tokenOutDenom minTokenOut)) = s

-- The trade at the limit: all numbers can be represented, the sender asks for no more than the
-- limit, and both sides can pay.
structure SettlesAtLimit (pool : Pool) (params : Params) (reserveIn reserveOut : Coin) : Prop where
  quote  : (constantProductQuote tokenIn reserveIn reserveOut pool.fee).isOk = true
  drain  : (maxDrainDec reserveOut params.maxPoolDrainPercent).isOk = true
  limit  : (MathInt.mul reserveOut.amount params.maxPoolDrainPercent.toNat).isOk = true
  enough : minTokenOut.amount ≤ drainLimit reserveOut.amount params.maxPoolDrainPercent
  coin   : (Coin.new reserveOut.denom
    (drainLimit reserveOut.amount params.maxPoolDrainPercent)).isOk = true
  paid   : (k.settle sender pool tokenIn
    ⟨reserveOut.denom, drainLimit reserveOut.amount params.maxPoolDrainPercent⟩ s).isOk = true

-- Nothing but the limit itself stands against a trade that exceeds it.
def CutDown : Prop :=
  ∃ pool params reserveIn reserveOut,
    Named s poolId tokenIn tokenOutDenom pool params reserveIn reserveOut ∧
    maxDrain reserveOut.amount params.maxPoolDrainPercent <
      quoted tokenIn.amount reserveIn.amount reserveOut.amount (parseFeeDec pool.fee).i ∧
    SettlesAtLimit k s sender tokenIn minTokenOut pool params reserveIn reserveOut

end

variable {k : Keeper} {s : State} {sender : AccAddress} {poolId : ℕ} {tokenIn minTokenOut : Coin}
variable {tokenOutDenom fee : String} {pool : Pool} {params : Params} {reserveIn reserveOut : Coin}
variable {percent : UInt32} {out : Coin}

theorem calculateSwap_eq :
    calculateSwap tokenIn reserveIn reserveOut fee percent = (do
      let amountOut ← constantProductQuote tokenIn reserveIn reserveOut fee
      let limit ← maxDrainDec reserveOut percent
      let amountOut := if amountOut.i > limit.i then limit else amountOut
      Coin.new reserveOut.denom (← amountOut.truncateInt)) := by
  simp only [calculateSwap, constantProductQuote, maxDrainDec, bind_assoc]

theorem quote_eq :
    pool.quote tokenIn tokenOutDenom percent = (do
      let (reserveIn, reserveOut) ←
        orFail (pool.sides tokenIn.denom tokenOutDenom) (.error "invalid token pair for swap")
      return (← calculateSwap tokenIn reserveIn reserveOut pool.fee percent, reserveOut)) := by
  simp only [Pool.quote, Pool.sides]
  split_ifs <;> rfl

-- A quote that is computed, and the product and the sum that have fit for it.
theorem of_constantProductQuote {q : LegacyDec}
    (h : constantProductQuote tokenIn reserveIn reserveOut fee = .ok q) :
    q.i = quoted tokenIn.amount reserveIn.amount reserveOut.amount (parseFeeDec fee).i ∧
    (afterFee tokenIn.amount (parseFeeDec fee).i * reserveOut.amount).natAbs <
      2 ^ LegacyDec.maxDecBitLen ∧
    (reserveIn.amount * LegacyDec.precisionReuse +
      afterFee tokenIn.amount (parseFeeDec fee).i).natAbs < 2 ^ LegacyDec.maxDecBitLen := by
  simp only [constantProductQuote, Result.bind_eq_ok] at h
  obtain ⟨f, hf, x, hx, n, hn, d, hd, hq⟩ := h
  have hf : f.i = LegacyDec.precisionReuse - (parseFeeDec fee).i := by
    simpa [LegacyDec.ofInt] using LegacyDec.of_sub hf
  have hx : x.i = afterFee tokenIn.amount (parseFeeDec fee).i := by
    rw [LegacyDec.of_ofInt_mul hx, hf, afterFee]
  have hnumerator := LegacyDec.natAbs_of_assertInValidRange (LegacyDec.mul_ofInt ▸ hn)
  have hdenominator := LegacyDec.natAbs_of_assertInValidRange hd
  have hn : n.i = x.i * reserveOut.amount := LegacyDec.of_mul_ofInt hn
  have hd : d.i = reserveIn.amount * LegacyDec.precisionReuse + x.i := LegacyDec.of_add hd
  rw [hx] at hnumerator hn hd
  rw [LegacyDec.ofInt, hx] at hdenominator
  refine ⟨?_, hnumerator, hdenominator⟩
  rw [(LegacyDec.of_quo hq).2, hn, hd, quoted]

theorem of_maxDrainDec {m : LegacyDec} (h : maxDrainDec reserveOut percent = .ok m) :
    m.i = maxDrain reserveOut.amount percent := by
  simp only [maxDrainDec, Result.bind_eq_ok] at h
  obtain ⟨p, hp, hm⟩ := h
  rw [LegacyDec.of_ofInt_mul hm, of_percent hp, maxDrain]

-- The limit of the quote in whole coins is the limit of the check that follows it.
theorem maxDrain_tdiv (rOut : ℤ) (percent : UInt32) :
    (maxDrain rOut percent).tdiv LegacyDec.precisionReuse = drainLimit rOut percent := by
  have hscale : maxDrain rOut percent = rOut * percent.toNat * 10 ^ 16 := by
    rw [maxDrain, mul_assoc]
  have hone : LegacyDec.precisionReuse = 100 * 10 ^ 16 := by
    decide
  rw [hscale, hone, Int.mul_tdiv_mul_of_pos_left _ _ (by decide), drainLimit]

theorem natAbs_drainLimit_le (rOut : ℤ) (percent : UInt32) :
    (drainLimit rOut percent).natAbs ≤ (rOut * percent.toNat).natAbs := by
  rw [drainLimit, Int.natAbs_tdiv]
  exact Nat.div_le_self _ _

theorem inRange_ok {x : ℤ} (h : x.natAbs < 2 ^ MathInt.maxBitLen) : MathInt.inRange x = .ok x := by
  simp only [MathInt.inRange, h, if_true]

theorem natAbs_of_inRange {x y : ℤ} (h : MathInt.inRange x = .ok y) :
    x.natAbs < 2 ^ MathInt.maxBitLen := by
  simp only [MathInt.inRange] at h
  split at h
  case isTrue hlt => exact hlt
  case isFalse => cases h

-- What `Swap` asks for once its pool and sides are known.
theorem swap_isOk_iff (hn : Named s poolId tokenIn tokenOutDenom pool params reserveIn reserveOut) :
    (k.swap sender poolId tokenIn tokenOutDenom minTokenOut s).isOk = true ↔
      ∃ out, calculateSwap tokenIn reserveIn reserveOut pool.fee params.maxPoolDrainPercent = .ok out ∧
        minTokenOut.amount ≤ out.amount ∧
        (MathInt.mul reserveOut.amount params.maxPoolDrainPercent.toNat).isOk = true ∧
        out.amount ≤ drainLimit reserveOut.amount params.maxPoolDrainPercent ∧
        (k.settle sender pool tokenIn out s).isOk = true := by
  simp only [Result.isOk_iff, Keeper.swap, Keeper.settle, quote_eq, Result.bind_eq_ok, orFail_eq_ok,
    failIf_eq_ok, Result.pure_eq_ok, not_lt, Prod.exists, Prod.mk.injEq, hn.get, hn.param,
    Option.some.injEq, exists_eq_left', exists_and_left, exists_const]
  constructor
  case mp =>
    rintro ⟨_, _, _, _, ⟨_, _, hsides, out, hc, rfl, rfl⟩, hmin, m, hm, _, hx, hlim, paid, hp, b₁, hb₁,
      paid', hp', b₂, hb₂, pool', ht, _⟩
    cases hn.sides.symm.trans hsides
    rw [(MathInt.of_mul_quo hm hx).2] at hlim
    exact ⟨out, hc, hmin, ⟨m, hm⟩, hlim, b₂, pool', paid, hp, b₁, hb₁, paid', hp', b₂, hb₂, pool', ht,
      rfl, rfl⟩
  case mpr =>
    rintro ⟨out, hc, hmin, ⟨m, hm⟩, hlim, _, _, paid, hp, b₁, hb₁, paid', hp', b₂, hb₂, pool', ht, _⟩
    have hx : MathInt.quo m 100 = .ok (drainLimit reserveOut.amount params.maxPoolDrainPercent) := by
      rw [MathInt.of_mul hm]
      rfl
    exact ⟨_, out, out, reserveOut, ⟨_, _, hn.sides, out, hc, rfl, rfl⟩, hmin, m, hm, _, hx, hlim, paid,
      hp, b₁, hb₁, paid', hp', b₂, hb₂, pool', ht, rfl, rfl⟩

-- A quote above the limit comes out as the limit.
theorem calculateSwap_cut (h : maxDrain reserveOut.amount percent <
      quoted tokenIn.amount reserveIn.amount reserveOut.amount (parseFeeDec fee).i)
    (hm : (MathInt.mul reserveOut.amount percent.toNat).isOk = true) :
    calculateSwap tokenIn reserveIn reserveOut fee percent = .ok out ↔
      (constantProductQuote tokenIn reserveIn reserveOut fee).isOk = true ∧
      (maxDrainDec reserveOut percent).isOk = true ∧
      Coin.new reserveOut.denom (drainLimit reserveOut.amount percent) = .ok out := by
  have hr : MathInt.inRange (drainLimit reserveOut.amount percent) =
      .ok (drainLimit reserveOut.amount percent) := by
    obtain ⟨m, hm⟩ := Result.isOk_iff.mp hm
    exact inRange_ok <| (natAbs_drainLimit_le ..).trans_lt (natAbs_of_inRange hm)
  have ht : ∀ {q l : LegacyDec}, constantProductQuote tokenIn reserveIn reserveOut fee = .ok q →
      maxDrainDec reserveOut percent = .ok l → (if q.i > l.i then l else q).truncateInt =
        .ok (drainLimit reserveOut.amount percent) := by
    intro q l hq hl
    rw [(of_constantProductQuote hq).1, of_maxDrainDec hl, if_pos h, LegacyDec.truncateInt,
      of_maxDrainDec hl, maxDrain_tdiv, hr]
  simp only [calculateSwap_eq, Result.isOk_iff, Result.bind_eq_ok]
  constructor
  case mp =>
    rintro ⟨q, hq, l, hl, x, hx, hc⟩
    rw [ht hq hl] at hx
    cases hx
    exact ⟨⟨q, hq⟩, ⟨l, hl⟩, hc⟩
  case mpr =>
    rintro ⟨⟨q, hq⟩, ⟨l, hl⟩, hc⟩
    exact ⟨q, hq, l, hl, _, ht hq hl, hc⟩

theorem swap_isOk_of_overdraining
    (hn : Named s poolId tokenIn tokenOutDenom pool params reserveIn reserveOut)
    (h : maxDrain reserveOut.amount params.maxPoolDrainPercent <
      quoted tokenIn.amount reserveIn.amount reserveOut.amount (parseFeeDec pool.fee).i) :
    (k.swap sender poolId tokenIn tokenOutDenom minTokenOut s).isOk = true ↔
      SettlesAtLimit k s sender tokenIn minTokenOut pool params reserveIn reserveOut := by
  rw [swap_isOk_iff hn]
  constructor
  case mp =>
    rintro ⟨out, hc, hmin, hm, _, hs⟩
    obtain ⟨hq, hd, hc⟩ := (calculateSwap_cut h hm).mp hc
    have he := (Coin.of_new hc).1
    subst he
    exact ⟨hq, hd, hm, hmin, Result.isOk_iff.mpr ⟨_, hc⟩, hs⟩
  case mpr =>
    intro hs
    obtain ⟨out, hc⟩ := Result.isOk_iff.mp hs.coin
    have he := (Coin.of_new hc).1
    subst he
    exact ⟨_, (calculateSwap_cut h hs.limit).mpr ⟨hs.quote, hs.drain, hc⟩, hs.enough, hs.limit,
      le_refl _, hs.paid⟩

theorem refused_iff :
    ((∃ e, k.swap sender poolId tokenIn tokenOutDenom minTokenOut s = .error e) ∧
      k.next s (.deliver (.swap sender poolId tokenIn tokenOutDenom minTokenOut)) = s) ↔
    ¬(k.swap sender poolId tokenIn tokenOutDenom minTokenOut s).isOk = true := by
  simp only [Keeper.next, Keeper.act, Keeper.deliver]
  cases h : k.swap sender poolId tokenIn tokenOutDenom minTokenOut s with
  | error e =>
    refine iff_of_true ⟨⟨e, rfl⟩, rfl⟩ ?_
    simp [Except.isOk, Except.toBool]
  | ok r =>
    refine iff_of_false (fun hr => ?_) ?_
    · obtain ⟨_, hr⟩ := hr.1
      cases hr
    · simp [Except.isOk, Except.toBool]

-- The check of `Swap` only sees quotes that were cut down already: a trade above the limit is
-- refused exactly when something else stands against it.
theorem refusesOverdraining_iff (k : Keeper) (s : State) (sender : AccAddress) (poolId : ℕ)
    (tokenIn : Coin) (tokenOutDenom : String) (minTokenOut : Coin) :
    RefusesOverdraining k s sender poolId tokenIn tokenOutDenom minTokenOut ↔
      ¬CutDown k s sender poolId tokenIn tokenOutDenom minTokenOut := by
  rw [RefusesOverdraining, refused_iff]
  constructor
  case mp =>
    rintro h ⟨pool, params, rIn, rOut, hn, hq, hs⟩
    exact h ⟨pool, params, rIn, rOut, hn, hq⟩ ((swap_isOk_of_overdraining hn hq).mpr hs)
  case mpr =>
    rintro h ⟨pool, params, rIn, rOut, hn, hq⟩ hok
    exact h ⟨pool, params, rIn, rOut, hn, hq, (swap_isOk_of_overdraining hn hq).mp hok⟩

-- A trade of twenty times the reserve is taken in full for a fifth of the other reserve.
theorem overdraining_accepted :
    defaultParams.validate = .ok () ∧
    ¬RefusesOverdraining Sample.keeper Sample.listed Sample.alice 1 ⟨"uatom", 100000⟩ "umlcn"
      ⟨"umlcn", 1⟩ := by
  refine ⟨by decide +kernel, fun h => ?_⟩
  have hover : Overdrains Sample.listed 1 ⟨"uatom", 100000⟩ "umlcn" :=
    ⟨⟨1, "uatom", "umlcn", ⟨"uatom", 5000⟩, ⟨"umlcn", 8000⟩, ⟨"liquidity-1", 6324⟩, "0.003",
      Sample.alice⟩, defaultParams, ⟨"uatom", 5000⟩, ⟨"umlcn", 8000⟩,
      ⟨by decide +kernel, by decide +kernel, by decide +kernel⟩, by decide +kernel⟩
  have hok : (Sample.keeper.swap Sample.alice 1 ⟨"uatom", 100000⟩ "umlcn" ⟨"umlcn", 1⟩
      Sample.listed).isOk = true := by
    decide +kernel
  exact refused_iff.mp (h hover) hok

end Dex
