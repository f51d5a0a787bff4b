import MallChain.Lib.Fold
import MallChain.Mlcoin.Mint

namespace Mlcoin

open Sdk

def safeMul (a b : UInt64) : Result UInt64 := do
  if b = 0 then
    return 0
  failIf (a > (2 ^ 64 - 1) / b) (wrap errInvalidRequest "arithmetic overflow")
  return a * b

theorem of_safeMul {a b c : UInt64} (h : safeMul a b = .ok c) :
    c = a * b ∧ c.toNat = a.toNat * b.toNat := by
  by_cases hb : b = 0
  case pos =>
    simp only [safeMul, hb, if_true, Result.pure_eq_ok] at h
    simp [← h, hb]
  case neg =>
    simp only [safeMul, hb, if_false, Result.bind_eq_ok, failIf_eq_ok, Result.pure_eq_ok] at h
    obtain ⟨_, hle, rfl⟩ := h
    have hp : 0 < b.toNat := Nat.pos_of_ne_zero fun h₀ => hb (UInt64.toNat_inj.mp h₀)
    rw [UInt64.not_lt, UInt64.le_iff_toNat_le, UInt64.toNat_div, Nat.le_div_iff_mul_le hp] at hle
    rw [UInt64.toNat_mul, Nat.mod_eq_of_lt (Nat.lt_of_le_of_lt hle (UInt64.toNat_lt _))]
    exact ⟨rfl, rfl⟩

-- 570,000 KES
def maxBuyKesLiquidity : UInt64 := 570000 * 100

-- `errorsmod.Wrap` around the error that was returned.
def wrapErr {α : Type} (text : String) : Result α → Result α
  | .error (.error err) => .error (wrap err text)
  | r => r

@[simp]
theorem wrapErr_eq_ok {α : Type} {text : String} {r : Result α} {a : α} :
    wrapErr text r = .ok a ↔ r = .ok a := by
  rcases r with ⟨_ | _⟩ | _ <;> simp [wrapErr]

-- What a buy or a sell answers, with the KES that were paid or received.
structure TradeResponse where
  tradeId : String
  kes     : UInt64
  price   : UInt64
  deriving DecidableEq, Repr

namespace State

-- The prices start at 0.62 KES and 0.58 KES.
def market (s : State) : MarketPrice :=
  s.marketPrice.getD { buyPrice := 62, sellPrice := 58 }

-- The KES of an address, or none.
def kesOf (s : State) (addr : String) : KesBalance :=
  (s.kesBalance.get addr).getD { address := addr, balance := 0 }

end State

-- One cent for 1000 MLCN, and at least one.
def priceChange (mlcn : UInt64) : UInt64 :=
  if mlcn / 1000 = 0 then 1 else mlcn / 1000

def lowered (price change : UInt64) : UInt64 :=
  if price > change then price - change else 1

namespace Keeper

-- Only buys are added up.
def iterateTotalBuyKes (s : State) : Result UInt64 :=
  s.tradeHistory.entries.foldlM (fun total e =>
    if e.2.tradeType = "buy" then
      orWrap (safeAdd total e.2.kesAmount)
        (wrap errInvalidRequest "total buy KES overflow during migration")
    else
      return total) 0

def getCachedTotalBuyKes (s : State) : Result (UInt64 × State) :=
  match s.totalBuyKesCache with
  | none => do
    let total ← iterateTotalBuyKes s
    return (total, { s with totalBuyKesCache := some total })
  | some total => return (total, s)

def addCachedTotalBuyKes (delta : UInt64) (s : State) : Result State := do
  let (current, s) ← getCachedTotalBuyKes s
  let newTotal ← safeAdd current delta
  return { s with totalBuyKesCache := some newTotal }

-- The caller goes on after an error, and keeps a total that was cached on the way.
def subtractCachedTotalBuyKes (delta : UInt64) (s : State) : State × Option Failure :=
  match getCachedTotalBuyKes s with
  | .error e => (s, some e)
  | .ok (current, s) => orKeep s do
    let newTotal ← safeSub current delta
    return { s with totalBuyKesCache := some newTotal }

def recordTrade (ctx : Context) (trader tradeType : String) (mlcn kes price : UInt64) (s : State) :
    State × String :=
  let tradeId := s!"TR-{s.transactionCount}"
  let trade : Trade := {
    txId        := tradeId
    trader      := trader
    tradeType   := tradeType
    mlcnAmount  := mlcn
    kesAmount   := kes
    price       := price
    timestamp   := ctx.blockTime
    blockHeight := ctx.blockHeight
  }
  ({ s with
    transactionCount := s.transactionCount + 1
    tradeHistory     := s.tradeHistory.set tradeId trade
  }, tradeId)

-- One percent, which is not taken from anybody.
def accumulateFees (txType : String) (amount : UInt64) (s : State) : State :=
  let fees := s.feesAccumulated.getD {}
  let feeAmount := amount / 100
  let fees := if txType = "transfer" ∨ txType = "mint" then
    { fees with transactionFees := fees.transactionFees + feeAmount }
  else if txType = "buy" ∨ txType = "sell" then
    { fees with tradingFees := fees.tradingFees + feeAmount }
  else if txType = "conversion" then
    { fees with conversionFees := fees.conversionFees + feeAmount }
  else fees
  { s with feesAccumulated := some fees }

def buyMallcoin (ctx : Context) (buyer : String) (mlcn : UInt64) (s : State) :
    Result (State × TradeResponse) := do
  let market := s.market
  failIf (mlcn = 0) (wrap errInvalidRequest "amount must be > 0")
  let kesRequired ← orWrap (safeMul mlcn market.buyPrice)
    (wrap errInvalidRequest "kes required overflow")
  let (currentKesBought, s) ← wrapErr "failed to compute buy-side liquidity" (getCachedTotalBuyKes s)
  let newTotalKes ← orWrap (safeAdd currentKesBought kesRequired)
    (wrap errLiquidityCapExceeded "buy would overflow KES total")
  failIf (newTotalKes > maxBuyKesLiquidity) <| wrap errLiquidityCapExceeded
    s!"buy would exceed KES liquidity cap of {maxBuyKesLiquidity} (scaled by 100)"
  let kesBal ← orFail (s.kesBalance.get buyer)
    (wrap errInvalidRequest "buyer KES balance not found")
  failIf (kesBal.balance < kesRequired)
    (wrap errInsufficientBalance "insufficient KES to buy MLCN")
  let newKesBal ← orWrap (safeSub kesBal.balance kesRequired)
    (wrap errInvalidRequest "KES balance underflow")
  let s := { s with kesBalance := s.kesBalance.set buyer { kesBal with balance := newKesBal } }
  let s ← withMintingEnabled fun enabled => mintToWallet enabled ctx buyer mlcn s
  let newBuyVolume ← orWrap (safeAdd market.totalBuyVolume mlcn)
    (wrap errInvalidRequest "buy volume overflow")
  let newBuyPrice ← orWrap (safeAdd market.buyPrice (priceChange mlcn))
    (wrap errInvalidRequest "buy price overflow")
  let newSellPrice ← orWrap (safeAdd market.sellPrice (priceChange mlcn))
    (wrap errInvalidRequest "sell price overflow")
  let market := { market with
    totalBuyVolume   := newBuyVolume
    buyPrice         := newBuyPrice
    sellPrice        := newSellPrice
    lastUpdateHeight := ctx.blockHeight
  }
  let s := { s with marketPrice := some market }
  let s ← addCachedTotalBuyKes kesRequired s
  let (s, tradeId) := recordTrade ctx buyer "buy" mlcn kesRequired market.buyPrice s
  let s := recordActivity mlcn [buyer] s
  let s := accumulateFees "buy" mlcn s
  return (s, ⟨tradeId, kesRequired, market.buyPrice⟩)

-- A sell goes on when there is nothing to reduce.
def reduceCirculating (mlcn : UInt64) (s : State) : State :=
  match s.emissionState with
  | none => s
  | some e => (orKeep s do
    let newCirc ← safeSub e.circulating mlcn
    return { s with emissionState := some { e with circulating := newCirc } }).1

def sellMallcoin (ctx : Context) (seller : String) (mlcn : UInt64) (s : State) :
    Result (State × TradeResponse) := do
  let market := s.market
  failIf (mlcn = 0) (wrap errInvalidRequest "amount must be > 0")
  let wallet ← orFail (s.walletBalance.get seller) (wrap errWalletNotFound "seller wallet not found")
  failIf (wallet.balance < mlcn) (wrap errInsufficientBalance "insufficient MLCN to sell")
  let kesToCredit ← orWrap (safeMul mlcn market.sellPrice)
    (wrap errInvalidRequest "KES to credit overflow")
  let newBalance ← orWrap (safeSub wallet.balance mlcn)
    (wrap errInvalidRequest "seller MLCN balance underflow")
  let s := s.setWallet seller { wallet with balance := newBalance }
  let s := reduceCirculating mlcn s
  let kesBal := s.kesOf seller
  let newKesBal ← orWrap (safeAdd kesBal.balance kesToCredit)
    (wrap errInvalidRequest "KES balance overflow on credit")
  let s := { s with kesBalance := s.kesBalance.set seller { kesBal with balance := newKesBal } }
  let newSellVolume ← orWrap (safeAdd market.totalSellVolume mlcn)
    (wrap errInvalidRequest "sell volume overflow")
  let market := { market with
    totalSellVolume  := newSellVolume
    buyPrice         := lowered market.buyPrice (priceChange mlcn)
    sellPrice        := lowered market.sellPrice (priceChange mlcn)
    lastUpdateHeight := ctx.blockHeight
  }
  let s := { s with marketPrice := some market }
  let s := (subtractCachedTotalBuyKes kesToCredit s).1
  let (s, tradeId) := recordTrade ctx seller "sell" mlcn kesToCredit market.sellPrice s
  let s := recordActivity mlcn [seller] s
  let s := accumulateFees "sell" mlcn s
  let s := (recordTransaction ctx seller "system" mlcn "sell" "Sold to marketplace" s).1
  return (s, ⟨tradeId, kesToCredit, market.sellPrice⟩)

def engagementScore (metrics : ActivityMetrics) : UInt64 :=
  let volumeScore := metrics.totalVolume / 1000000
  let volumeScore := if volumeScore > 500 then 500 else volumeScore
  let transactionScore := metrics.totalTransactions / 100
  let transactionScore := if transactionScore > 300 then 300 else transactionScore
  let userScore := metrics.activeUsers / 10
  let userScore := if userScore > 200 then 200 else userScore
  volumeScore + transactionScore + userScore

-- Between -50 and 50.
def priceImpactMultiplier (score : UInt64) : ℤ :=
  if score > 500 then ((score - 500) / 10).toNat
  else if score < 300 then -((300 - score) / 6).toNat
  else 0

def adjustPrices (multiplier : ℤ) (market : MarketPrice) : MarketPrice :=
  if multiplier > 0 then
    let adjustment := UInt64.ofInt multiplier
    { market with
      buyPrice  := market.buyPrice + adjustment
      sellPrice := market.sellPrice + adjustment
    }
  else if multiplier < 0 then
    let adjustment := UInt64.ofInt (-multiplier)
    { market with
      buyPrice  := if market.buyPrice > adjustment then market.buyPrice - adjustment else market.buyPrice
      sellPrice :=
        if market.sellPrice > adjustment then market.sellPrice - adjustment else market.sellPrice
    }
  else market

def updateDynamicPricing (ctx : Context) (s : State) : State :=
  let metrics := s.activityMetrics.getD
    { lastResetHeight := ctx.blockHeight, currentPeriod := "daily" }
  let score := engagementScore metrics
  let multiplier := priceImpactMultiplier score
  let market := { adjustPrices multiplier s.market with lastUpdateHeight := ctx.blockHeight }
  { s with
    marketPrice     := some market
    activityMetrics := some { metrics with
      engagementScore       := score
      priceImpactMultiplier := multiplier
      lastResetHeight       := ctx.blockHeight
    }
  }

end Keeper

namespace State

-- The total as it would be read.
def totalBuyKes (s : State) : Result UInt64 :=
  match s.totalBuyKesCache with
  | none => Keeper.iterateTotalBuyKes s
  | some total => .ok total

-- The cached total after a sell. The sell does not fail if the total is too small.
def soldKes (s : State) (kes : UInt64) : Option UInt64 :=
  match s.totalBuyKes with
  | .error _ => s.totalBuyKesCache
  | .ok total => some (if kes ≤ total then total - kes else total)

end State

namespace MarketPrice

def bought (m : MarketPrice) (height mlcn : UInt64) : MarketPrice := { m with
  totalBuyVolume   := m.totalBuyVolume + mlcn
  buyPrice         := m.buyPrice + priceChange mlcn
  sellPrice        := m.sellPrice + priceChange mlcn
  lastUpdateHeight := height
}

def sold (m : MarketPrice) (height mlcn : UInt64) : MarketPrice := { m with
  totalSellVolume  := m.totalSellVolume + mlcn
  buyPrice         := lowered m.buyPrice (priceChange mlcn)
  sellPrice        := lowered m.sellPrice (priceChange mlcn)
  lastUpdateHeight := height
}

end MarketPrice

def EmissionState.reduced (e : EmissionState) (mlcn : UInt64) : EmissionState :=
  if mlcn ≤ e.circulating then { e with circulating := e.circulating - mlcn } else e

variable {ctx : Context} {s s' : State} {addr : String} {mlcn total kes : UInt64}
variable {r : TradeResponse}

theorem getCachedTotalBuyKes_eq : Keeper.getCachedTotalBuyKes s = do
    let total ← s.totalBuyKes
    return (total, { s with totalBuyKesCache := some total }) := by
  cases h : s.totalBuyKesCache with
  | none => simp only [Keeper.getCachedTotalBuyKes, State.totalBuyKes, h]
  | some total =>
    simp only [Keeper.getCachedTotalBuyKes, State.totalBuyKes, h, Result.ok_bind]
    rw [← h]

theorem orKeep_safeSub {a b : UInt64} {f : UInt64 → State} :
    (orKeep s (do return f (← safeSub a b))).1 = if b ≤ a then f (a - b) else s := by
  by_cases hle : b ≤ a
  case pos => simp [safeSub, failIf, UInt64.not_lt.mpr hle, hle, orKeep, Result.ok_bind, pure, Except.pure]
  case neg => simp [safeSub, failIf, UInt64.not_le.mp hle, hle, orKeep, bind, Except.bind]

theorem subtractCachedTotalBuyKes_eq :
    (Keeper.subtractCachedTotalBuyKes kes s).1 = { s with totalBuyKesCache := s.soldKes kes } := by
  simp only [Keeper.subtractCachedTotalBuyKes, getCachedTotalBuyKes_eq, State.soldKes]
  cases s.totalBuyKes with
  | error e => rfl
  | ok total =>
    simp only [Result.ok_bind, pure, Except.pure]
    refine orKeep_safeSub.trans ?_
    split_ifs <;> rfl

theorem reduceCirculating_eq : Keeper.reduceCirculating mlcn s =
    { s with emissionState := s.emissionState.map (·.reduced mlcn) } := by
  simp only [Keeper.reduceCirculating]
  cases h : s.emissionState with
  | none =>
    simp only [Option.map_none]
    rw [← h]
  | some e =>
    refine orKeep_safeSub.trans ?_
    simp only [Option.map_some, EmissionState.reduced]
    split_ifs
    · rfl
    · rw [← h]

-- What a successful buy did.
structure Bought (ctx : Context) (buyer : String) (mlcn : UInt64) (e : EmissionState)
    (kesBal : KesBalance) (current : UInt64) (r : TradeResponse) (s s' : State) : Prop where
  amount   : mlcn ≠ 0
  kes      : r.kes.toNat = mlcn.toNat * s.market.buyPrice.toNat
  total    : s.totalBuyKes = .ok current
  cap      : current.toNat + r.kes.toNat ≤ 57000000
  payer    : s.kesBalance.get buyer = some kesBal
  pays     : r.kes.toNat ≤ kesBal.balance.toNat
  emission : s.emissionState = some e
  supply   : e.circulating.toNat + mlcn.toNat ≤ e.totalSupply.toNat
  limit    : mlcn.toNat ≤ e.dailyLimit.toNat
  balance  : (s.wallet buyer).balance.toNat + (e.netAmount mlcn).toNat < 2 ^ 64
  buy      : s.market.buyPrice.toNat + (priceChange mlcn).toNat < 2 ^ 64
  sell     : s.market.sellPrice.toNat + (priceChange mlcn).toNat < 2 ^ 64
  tradeId  : r.tradeId = s!"TR-{s.transactionCount + e.records mlcn}"
  state    : s' = { s with
    walletBalance := s.walletBalance.set buyer
      { s.wallet buyer with balance := (s.wallet buyer).balance + e.netAmount mlcn }
    emissionState    := some (e.minted mlcn)
    marketPrice      := some (s.market.bought ctx.blockHeight mlcn)
    kesBalance       := s.kesBalance.set buyer { kesBal with balance := kesBal.balance - r.kes }
    totalBuyKesCache := some (current + r.kes)
    tradeHistory     := s.tradeHistory.set r.tradeId
      ⟨r.tradeId, buyer, "buy", mlcn, r.kes, r.price, ctx.blockTime, ctx.blockHeight⟩
    transactions     := s'.transactions
    transactionCount := s.transactionCount + e.records mlcn + 1
    activityMetrics  := (Keeper.recordActivity mlcn [buyer] s).activityMetrics
    feesAccumulated  := (Keeper.accumulateFees "buy" mlcn s).feesAccumulated
  }

theorem of_buyMallcoin (h : Keeper.buyMallcoin ctx addr mlcn s = .ok (s', r)) :
    ∃ e kesBal current, Bought ctx addr mlcn e kesBal current r s s' := by
  simp only [Keeper.buyMallcoin, Keeper.addCachedTotalBuyKes, Keeper.withMintingEnabled,
    getCachedTotalBuyKes_eq, Result.bind_eq_ok, failIf_eq_ok, orFail_eq_ok, orWrap_eq_ok,
    wrapErr_eq_ok, Result.pure_eq_ok, Prod.mk.injEq, Prod.exists] at h
  obtain ⟨_, hz, kes, hkes, _, _, ⟨current, htotal, rfl, hs₁⟩, newTotal, hnew, _, hcap, kesBal, hpayer,
    _, hpays, newKes, hsub, s₂, hmint, _, hvolume, _, hbuy, _, hsell, s₃, hcache, hs', hr⟩ := h
  obtain ⟨e, he, hsupply, hlimit, hbalance, hs₂⟩ := of_mintToWallet hmint
  obtain ⟨_, _, ⟨current', hcurrent, rfl, rfl⟩, cached, hcached, rfl⟩ := hcache
  obtain ⟨hkes, hkes'⟩ := of_safeMul hkes
  obtain ⟨hnew, hnew'⟩ := of_safeAdd hnew
  obtain ⟨hvolume, _⟩ := of_safeAdd hvolume
  obtain ⟨hbuy, hbuy'⟩ := of_safeAdd hbuy
  obtain ⟨hsell, hsell'⟩ := of_safeAdd hsell
  obtain ⟨hsub, _⟩ := of_safeSub hsub
  obtain ⟨hcached, _⟩ := of_safeAdd hcached
  have htotal' := toNat_add (a := current) (b := kes)
  have hmax : maxBuyKesLiquidity.toNat = 57000000 := by decide
  rw [UInt64.not_lt, UInt64.le_iff_toNat_le] at hcap hpays
  rw [hnew] at hcap
  have hcap : current.toNat + kes.toNat ≤ 57000000 := by omega
  subst hs₁
  generalize s₂.transactions = txs at hs₂
  subst hs₂
  cases hcurrent
  subst hvolume hbuy hsell hsub hcached hs' hr
  exact ⟨e, kesBal, current, {
    amount   := hz
    kes      := hkes'
    total    := htotal
    cap      := hcap
    payer    := hpayer
    pays     := hpays
    emission := he
    supply   := hsupply
    limit    := hlimit
    balance  := hbalance
    buy      := dropped_eq_zero_iff.mp hbuy'
    sell     := dropped_eq_zero_iff.mp hsell'
    tradeId  := rfl
    state    := rfl
  }⟩

-- What a successful sell did.
structure Sold (ctx : Context) (seller : String) (mlcn : UInt64) (w : WalletBalance)
    (r : TradeResponse) (s s' : State) : Prop where
  amount   : mlcn ≠ 0
  wallet   : s.walletBalance.get seller = some w
  balance  : mlcn.toNat ≤ w.balance.toNat
  kes      : r.kes.toNat = mlcn.toNat * s.market.sellPrice.toNat
  receives : (s.kesOf seller).balance.toNat + r.kes.toNat < 2 ^ 64
  tradeId  : r.tradeId = s!"TR-{s.transactionCount}"
  state    : s' = { s with
    walletBalance    := s.walletBalance.set seller { w with balance := w.balance - mlcn }
    emissionState    := s.emissionState.map (·.reduced mlcn)
    marketPrice      := some (s.market.sold ctx.blockHeight mlcn)
    kesBalance       := s.kesBalance.set seller
      { s.kesOf seller with balance := (s.kesOf seller).balance + r.kes }
    totalBuyKesCache := s.soldKes r.kes
    tradeHistory     := s.tradeHistory.set r.tradeId
      ⟨r.tradeId, seller, "sell", mlcn, r.kes, r.price, ctx.blockTime, ctx.blockHeight⟩
    transactions     := s'.transactions
    transactionCount := s.transactionCount + 2
    activityMetrics  := (Keeper.recordActivity mlcn [seller] s).activityMetrics
    feesAccumulated  := (Keeper.accumulateFees "sell" mlcn s).feesAccumulated
  }

theorem of_sellMallcoin (h : Keeper.sellMallcoin ctx addr mlcn s = .ok (s', r)) :
    ∃ w, Sold ctx addr mlcn w r s s' := by
  simp only [Keeper.sellMallcoin, Result.bind_eq_ok, failIf_eq_ok, orFail_eq_ok, orWrap_eq_ok,
    Result.pure_eq_ok, Prod.mk.injEq, reduceCirculating_eq, subtractCachedTotalBuyKes_eq] at h
  obtain ⟨_, hz, w, hwallet, _, _, kes, hkes, balance, hsub, newKes, hadd, volume, hvolume, hs', hr⟩ := h
  obtain ⟨hkes, hkes'⟩ := of_safeMul hkes
  obtain ⟨hsub, hle⟩ := of_safeSub hsub
  obtain ⟨hadd, hadd'⟩ := of_safeAdd hadd
  obtain ⟨hvolume, _⟩ := of_safeAdd hvolume
  have hcount : s.transactionCount + 2 = s.transactionCount + 1 + 1 := by rw [add_assoc]; rfl
  subst hsub hadd hvolume hr
  rw [← hs']
  exact ⟨w, {
    amount   := hz
    wallet   := hwallet
    balance  := hle
    kes      := hkes'
    receives := dropped_eq_zero_iff.mp hadd'
    tradeId  := rfl
    state    := by rw [hcount]; rfl
  }⟩

end Mlcoin
