import MallChain.Mlcoin.System

namespace Mlcoin

open Sdk

-- Nobody sells for more than others buy, and nothing is free.
@[mk_iff]
structure MarketPrice.Ordered (m : MarketPrice) : Prop where
  positive : 0 < m.sellPrice.toNat
  le       : m.sellPrice.toNat ≤ m.buyPrice.toNat

instance decidableOrdered : DecidablePred MarketPrice.Ordered :=
  fun m => decidable_of_iff _ (MarketPrice.ordered_iff m).symm

-- When a change of the prices keeps their order. Prices that rise must not wrap around, unless both
-- do. Prices that fall must not stop at the selling price while the buying price falls below it.
def KeepsOrder (multiplier : ℤ) (m : MarketPrice) : Prop :=
  (0 < multiplier → m.buyPrice.toNat + multiplier < 2 ^ 64 ∨ 2 ^ 64 < m.sellPrice.toNat + multiplier) ∧
  (multiplier < 0 → ¬(m.sellPrice.toNat ≤ -multiplier ∧ -multiplier < m.buyPrice.toNat ∧
    m.buyPrice.toNat < m.sellPrice.toNat + -multiplier))

instance decidableKeepsOrder {multiplier : ℤ} {m : MarketPrice} :
    Decidable (KeepsOrder multiplier m) :=
  inferInstanceAs (Decidable (_ ∧ _))

namespace State

-- The score of the activity that was counted, and its multiplier.
def score (s : State) : UInt64 :=
  Keeper.engagementScore (s.activityMetrics.getD {})

def multiplier (s : State) : ℤ :=
  Keeper.priceImpactMultiplier s.score

end State

variable {ctx : Context} {m : MarketPrice} {s s' : State} {mlcn height : UInt64}

theorem multiplier_lt {score : UInt64} :
    -2 ^ 64 < Keeper.priceImpactMultiplier score ∧ Keeper.priceImpactMultiplier score < 2 ^ 64 := by
  have h₁ := ((score - 500) / 10).toNat_lt
  have h₂ := ((300 - score) / 6).toNat_lt
  simp only [Keeper.priceImpactMultiplier]
  split_ifs <;> omega

-- A price falls by less than itself, or not at all.
theorem toNat_fall {price a : UInt64} : (if price > a then price - a else price).toNat =
    if a.toNat < price.toNat then price.toNat - a.toNat else price.toNat := by
  simp only [gt_iff_lt, UInt64.lt_iff_toNat_lt]
  split_ifs with h
  · rw [UInt64.toNat_sub_of_le _ _ (UInt64.le_iff_toNat_le.mpr h.le)]
  · rfl

theorem adjustPrices_ordered_iff {x : ℤ} (hm : m.Ordered) (h : -2 ^ 64 < x ∧ x < 2 ^ 64) :
    (Keeper.adjustPrices x m).Ordered ↔ KeepsOrder x m := by
  have hp := hm.positive
  have hle := hm.le
  have hbuy := m.buyPrice.toNat_lt
  have hsell := m.sellPrice.toNat_lt
  rcases lt_trichotomy x 0 with hx | rfl | hx
  · have ha := toNat_ofInt (x := -x) (by omega) (by omega)
    simp only [Keeper.adjustPrices, gt_iff_lt, not_lt.mpr hx.le, if_false, hx, if_true, KeepsOrder,
      MarketPrice.ordered_iff, toNat_fall, false_implies, true_implies, true_and]
    generalize (UInt64.ofInt (-x)).toNat = a at *
    split_ifs <;> omega
  · simp [Keeper.adjustPrices, KeepsOrder, hm]
  · have ha := toNat_ofInt hx.le h.2
    simp only [Keeper.adjustPrices, gt_iff_lt, not_lt.mpr hx.le, hx, if_true, KeepsOrder,
      MarketPrice.ordered_iff, UInt64.toNat_add, false_implies, true_implies, and_true]
    generalize (UInt64.ofInt x).toNat = a at *
    omega

theorem toNat_lowered {price change : UInt64} : (lowered price change).toNat =
    if change.toNat < price.toNat then price.toNat - change.toNat else 1 := by
  simp only [lowered, gt_iff_lt, UInt64.lt_iff_toNat_lt]
  split_ifs with h
  · rw [UInt64.toNat_sub_of_le _ _ (UInt64.le_iff_toNat_le.mpr h.le)]
  · rfl

theorem sold_ordered (hm : m.Ordered) : (m.sold height mlcn).Ordered := by
  have hp := hm.positive
  have hle := hm.le
  simp only [MarketPrice.sold, MarketPrice.ordered_iff, toNat_lowered]
  split_ifs <;> omega

theorem bought_ordered (hm : m.Ordered)
    (h₁ : m.buyPrice.toNat + (priceChange mlcn).toNat < 2 ^ 64) : (m.bought height mlcn).Ordered := by
  have hp := hm.positive
  have hle := hm.le
  simp only [MarketPrice.bought, MarketPrice.ordered_iff, UInt64.toNat_add]
  omega

-- When a step keeps the order: a tick of the dynamic pricing must.
def PricesKept (p : Chain) : Option Action → Prop
  | some (.endBlock _) =>
    Keeper.ticks p.ctx p.state.getModuleIntervals.dynamicPricingBlocks = true →
      KeepsOrder p.state.multiplier p.state.market
  | _ => True

-- The rest of the chain, the activity included, may change between the steps in any way that
-- leaves the prices alone.
def market (k : Keeper) : TransitionSystem Chain (Option Action) :=
  (chain k fun p => p.state.market.Ordered).within fun p p' => p'.state.market = p.state.market

theorem market_updateDynamicPricing : (Keeper.updateDynamicPricing ctx s).market =
    { Keeper.adjustPrices s.multiplier s.market with lastUpdateHeight := ctx.blockHeight } := by
  simp only [Keeper.updateDynamicPricing, State.multiplier, State.score]
  cases s.activityMetrics <;> rfl

theorem dynamicPricingTick_ordered_iff (hm : s.market.Ordered) :
    (Keeper.dynamicPricingTick ctx s).market.Ordered ↔
      (Keeper.ticks ctx s.getModuleIntervals.dynamicPricingBlocks = true →
        KeepsOrder s.multiplier s.market) := by
  by_cases ht : Keeper.ticks ctx s.getModuleIntervals.dynamicPricingBlocks = true
  case pos =>
    have hx : -2 ^ 64 < s.multiplier ∧ s.multiplier < 2 ^ 64 := multiplier_lt
    have ha := adjustPrices_ordered_iff hm hx
    simp only [MarketPrice.ordered_iff] at ha ⊢
    simpa only [Keeper.dynamicPricingTick, ht, if_true, market_updateDynamicPricing, true_implies]
      using ha
  case neg => simp [Keeper.dynamicPricingTick, ht, hm]

theorem market_congr (h : s'.marketPrice = s.marketPrice) : s'.market = s.market := by
  rw [State.market, h, State.market]

-- Only trades move the prices within a block.
theorem Called.ordered {c : Call} (h : Called ctx s s' c) (hm : s.market.Ordered) :
    s'.market.Ordered := by
  cases h with
  | framed plain h =>
    rwa [market_congr ((congrArg State.marketPrice h).trans rfl)]
  | bought h =>
    have hm' : s'.market = _ := congrArg State.market h.state
    rw [hm']
    exact bought_ordered hm h.buy
  | sold h =>
    have hm' : s'.market = _ := congrArg State.market h.state
    rw [hm']
    exact sold_ordered hm
  | staked h => rwa [market_congr ((congrArg State.marketPrice h.state).trans rfl)]
  | unstaked h => rwa [market_congr ((congrArg State.marketPrice h.framed).trans rfl)]
  | minted h => rwa [market_congr ((congrArg State.marketPrice h.state).trans rfl)]

-- A step keeps the order exactly if its tick does.
theorem Stepped.ordered_iff {p p' : Chain} {a : Action} (h : Stepped p p' a)
    (hm : p.state.market.Ordered) : p'.state.market.Ordered ↔ PricesKept p (some a) := by
  cases h with
  | called h => exact iff_of_true (h.ordered hm) trivial
  | ended h =>
    rw [market_congr h.market]
    exact dynamicPricingTick_ordered_iff hm
  | rest h =>
    subst h
    exact iff_of_true hm trivial

theorem prices_ordered (k : Keeper) (p : Chain) (h : (market k).Run PricesKept p) :
    p.state.market.Ordered ∧ ∀ a p', (market k).step p a p' →
      (p'.state.market.Ordered ↔ PricesKept p a) := by
  have hstep : ∀ {p p' : Chain} {a : Option Action}, p.state.market.Ordered →
      (market k).step p a p' → (p'.state.market.Ordered ↔ PricesKept p a) := by
    intro p p' a hm hs
    cases a with
    | none =>
      have hs : p'.state.market = p.state.market := hs
      rw [hs]
      exact iff_of_true hm trivial
    | some a => exact (of_act hs.2).ordered_iff hm
  have hinv : (market k).Invariant PricesKept fun p => p.state.market.Ordered := {
    init := fun hi => hi
    step := fun hm hg hs => (hstep hm hs).mpr hg
  }
  exact ⟨hinv.holds h, fun a p' => hstep (hinv.holds h)⟩

-- A market on which nobody is active.
namespace Sample

def quiet : Chain where
  ctx   := { blockTime := 0, blockHeight := 100 }
  state := { marketPrice := some { buyPrice := 60, sellPrice := 50 } }

def busy : Chain where
  ctx   := { blockTime := 0, blockHeight := 100 }
  state := { quiet.state with activityMetrics := some { totalVolume := 1000000000, activeUsers := 1000 } }

end Sample

-- The buying price falls by 50 and the selling price stays.
theorem quiet_market_inverts :
    ¬∀ p, (market Sample.keeper).Reachable p → p.state.market.Ordered := by
  intro h
  have h₀ : (market Sample.keeper).Reachable Sample.quiet :=
    .init (show Sample.quiet.state.market.Ordered by decide +kernel)
  have h₁ := h _ (h₀.step (a := some (.endBlock Sample.block)) trivial
    ⟨by decide, Keeper.act_next (by decide +kernel)⟩)
  revert h₁
  decide +kernel

theorem busy_prices_ordered :
    (Sample.keeper.next Sample.busy (.endBlock Sample.block)).state.market.Ordered := by
  have h₀ : (market Sample.keeper).Run PricesKept Sample.busy :=
    .init (show Sample.busy.state.market.Ordered by decide +kernel)
  have h₁ := h₀.step (a := some (.endBlock Sample.block)) (fun _ => by decide +kernel)
    ⟨by decide, Keeper.act_next (by decide +kernel)⟩
  exact (prices_ordered Sample.keeper _ h₁).1

-- What a buyer gets.
def received (s s₁ : State) (user : String) : UInt64 :=
  (s₁.wallet user).balance - (s.wallet user).balance

-- What is left after the burn, at the selling price that the buy has raised, is not worth more than
-- the price that was paid.
def NoGain (s : State) (mlcn : UInt64) : Prop :=
  ∀ e, s.emissionState = some e →
    (e.netAmount mlcn).toNat * (s.market.sellPrice.toNat + (priceChange mlcn).toNat) ≤
      mlcn.toNat * s.market.buyPrice.toNat

theorem round_trip_no_gain_iff (ctx ctx' : Context) (s s₁ s₂ : State) (user : String)
    (mlcn : UInt64) (r₁ r₂ : TradeResponse)
    (h₁ : Keeper.buyMallcoin ctx user mlcn s = .ok (s₁, r₁))
    (h₂ : Keeper.sellMallcoin ctx' user (received s s₁ user) s₁ = .ok (s₂, r₂)) :
    (s₂.kesOf user).balance.toNat ≤ (s.kesOf user).balance.toNat ↔ NoGain s mlcn := by
  obtain ⟨e, kesBal, current, hb⟩ := of_buyMallcoin h₁
  obtain ⟨w, hs⟩ := of_sellMallcoin h₂
  have hnet : received s s₁ user = e.netAmount mlcn := by
    rw [received, hb.state]
    simp [State.wallet]
  have hsell : s₁.market.sellPrice.toNat = s.market.sellPrice.toNat + (priceChange mlcn).toNat := by
    have hb' := hb.sell
    rw [hb.state]
    simp only [State.market, Option.getD_some, MarketPrice.bought, UInt64.toNat_add]
    exact Nat.mod_eq_of_lt hb'
  have hkes : s.kesOf user = kesBal := by
    rw [State.kesOf, hb.payer, Option.getD_some]
  have hkes₁ : (s₁.kesOf user).balance = kesBal.balance - r₁.kes := by
    rw [hb.state]
    simp [State.kesOf]
  have hkes₂ : (s₂.kesOf user).balance = (s₁.kesOf user).balance + r₂.kes := by
    rw [hs.state]
    simp [State.kesOf]
  have hpaid := toNat_sub hb.pays
  have hgot := toNat_add (a := (s₁.kesOf user).balance) (b := r₂.kes)
  rw [dropped_eq_zero_iff.mpr hs.receives] at hgot
  rw [hkes₁] at hgot
  have hprice := hs.kes
  rw [hnet, hsell] at hprice
  simp only [NoGain, hb.emission, Option.some.injEq, forall_eq', ← hprice, ← hb.kes]
  rw [hkes₂, hkes, hkes₁]
  have hpays := hb.pays
  omega

namespace Sample

def trader : State where
  kesBalance    := KVStore.empty.set "trader" { address := "trader", balance := 1000000 }
  emissionState := some {
    totalSupply := 670000000000000
    circulating := 160000000000000
    dailyLimit  := 100000
    burnRateBps := 100
  }

def roundTrip (mlcn : UInt64) : Result State := do
  let (s₁, _) ← Keeper.buyMallcoin block "trader" mlcn trader
  let (s₂, _) ← Keeper.sellMallcoin block "trader" (received trader s₁ "trader") s₁
  return s₂

end Sample

-- A buyer of 10000 MLCN who loses one percent of them to the burn gains 532 KES.
theorem round_trip_gains : ¬∀ (ctx : Context) (s s₁ s₂ : State) (user : String) (mlcn : UInt64)
    (r₁ r₂ : TradeResponse), s.market.Ordered →
    Keeper.buyMallcoin ctx user mlcn s = .ok (s₁, r₁) →
    Keeper.sellMallcoin ctx user (received s s₁ user) s₁ = .ok (s₂, r₂) →
    (s₂.kesOf user).balance.toNat ≤ (s.kesOf user).balance.toNat := by
  intro h
  obtain ⟨s₂, hs⟩ := Result.isOk_iff.mp
    (by decide +kernel : (Sample.roundTrip 10000).isOk = true)
  have hk : (Sample.roundTrip 10000).toOption.map (fun s => (s.kesOf "trader").balance.toNat) =
      some 1053200 := by decide +kernel
  rw [hs] at hk
  simp only [Sample.roundTrip, Result.bind_eq_ok, Result.pure_eq_ok, Prod.exists] at hs
  obtain ⟨s₁, r₁, h₁, _, r₂, h₂, rfl⟩ := hs
  have hle := h _ _ _ _ _ _ _ _ (by decide +kernel) h₁ h₂
  have hk : (State.kesOf _ "trader").balance.toNat = 1053200 := Option.some.inj hk
  rw [hk] at hle
  revert hle
  decide +kernel

-- 100 MLCN are too few for that.
theorem small_round_trip : ∃ s₂, Sample.roundTrip 100 = .ok s₂ ∧
    (s₂.kesOf "trader").balance.toNat ≤ (Sample.trader.kesOf "trader").balance.toNat := by
  obtain ⟨s₂, hs⟩ := Result.isOk_iff.mp (by decide +kernel : (Sample.roundTrip 100).isOk = true)
  refine ⟨s₂, hs, ?_⟩
  simp only [Sample.roundTrip, Result.bind_eq_ok, Result.pure_eq_ok, Prod.exists] at hs
  obtain ⟨s₁, r₁, h₁, _, r₂, h₂, rfl⟩ := hs
  refine (round_trip_no_gain_iff _ _ _ _ _ _ _ _ _ h₁ h₂).mpr fun e he => ?_
  cases he
  decide +kernel

end Mlcoin
