import MallChain.Mlcoin.Market
import MallChain.Mlcoin.Staking

namespace Mlcoin

open Sdk

def FeesAccumulated.total (fees : FeesAccumulated) : UInt64 :=
  fees.transactionFees + fees.tradingFees + fees.conversionFees

namespace State

def fees (s : State) : FeesAccumulated :=
  s.feesAccumulated.getD {}

def activeStakers (s : State) : List (String × StakingInfo) :=
  s.stakingRecords.entries.filter (·.2.isActive)

def totalStaked (s : State) : UInt64 :=
  s.activeStakers.foldl (fun total staker => total + staker.2.stakedAmount) 0

end State

def maxTreasurySnapshotsToKeep : ℕ := 600

namespace Keeper

-- Whether the coins were sent. A payment that fails is logged.
def sendFees (k : Keeper) (recipient : AccAddress) (amount : UInt64) (s : State) :
    Result (State × Bool) :=
  match s.bank.sendCoinsFromModuleToAccount k.moduleAddr recipient [⟨"mlcoin", amount.toNat⟩] with
  | .ok bank => .ok ({ s with bank }, true)
  | .error (.error _) => .ok (s, false)
  | .error (.panic text) => .error (.panic text)

def payStaker (k : Keeper) (stakersShareAmount totalStaked : UInt64) (s : State)
    (staker : String × StakingInfo) : Result State :=
  let stakerShare := stakersShareAmount * staker.2.stakedAmount / totalStaked
  match if stakerShare > 0 then k.stringToBytes staker.2.address else none with
  | none => .ok s
  | some stakerAddr => do
    let (s, sent) ← k.sendFees stakerAddr stakerShare s
    let record := { staker.2 with rewardsEarned := staker.2.rewardsEarned + stakerShare }
    return if sent then { s with stakingRecords := s.stakingRecords.set staker.1 record } else s

def payStakers (k : Keeper) (stakersShareAmount : UInt64) (s : State) : Result State :=
  if stakersShareAmount > 0 ∧ s.totalStaked > 0 then
    s.activeStakers.foldlM (k.payStaker stakersShareAmount s.totalStaked) s
  else .ok s

def payTreasury (k : Keeper) (treasuryShareAmount : UInt64) (s : State) : Result State :=
  if treasuryShareAmount > 0 then
    return (← k.sendFees k.treasuryAddr treasuryShareAmount s).1
  else .ok s

-- The fees are minted when they are distributed, half of them for the stakers.
def distributeFees (k : Keeper) (ctx : Context) (s : State) : Result State := do
  let fees := s.fees
  if fees.total = 0 then
    return s
  let bank ← s.bank.mintCoins k.moduleAddr [⟨"mlcoin", fees.total.toNat⟩]
  let stakersShareAmount := fees.total / 2
  let treasuryShareAmount := fees.total - stakersShareAmount
  let s ← k.payStakers stakersShareAmount { s with bank }
  let s ← k.payTreasury treasuryShareAmount s
  return { s with feesAccumulated := some { fees with
    transactionFees      := 0
    tradingFees          := 0
    conversionFees       := 0
    lastDistributionTime := ctx.blockTime
  } }

def updateConversionWindows (ctx : Context) (s : State) : State :=
  let dayOfMonth := Calendar.dayOfMonth ctx.blockTime
  let badgeWindowOpen := dayOfMonth = 15
  let nonBadgeWindowOpen := Calendar.month ctx.blockTime = 12 ∧ dayOfMonth = 27
  let currentPeriod :=
    if badgeWindowOpen then "badge_conversion_15th"
    else if nonBadgeWindowOpen then "all_users_conversion_27th_dec"
    else "daily"
  { s with activityMetrics := some { s.activityMetrics.getD {} with currentPeriod } }

def storeTreasurySnapshot (snapshot : TreasurySnapshot) (s : State) : State :=
  let snapshots := s.treasurySnapshots.set snapshot.blockHeight snapshot
  let heights := snapshots.entries.map (·.1)
  let toPrune := heights.take (heights.length - maxTreasurySnapshotsToKeep)
  { s with treasurySnapshots := toPrune.foldl KVStore.remove snapshots }

def recordTreasurySnapshot (k : Keeper) (ctx : Context) (s : State) : Result State := do
  let emission := s.emissionState
  let treasuryBalance ← toUint64 (s.bank.balances k.treasuryAddr "mlcoin")
  return storeTreasurySnapshot {
    blockHeight       := ctx.blockHeight.toInt64.toInt
    totalSupply       := (emission.map (·.totalSupply)).getD 0
    circulatingSupply := (emission.map (·.circulating)).getD 0
    burnedSupply      := (emission.map (·.burnedTotal)).getD 0
    stakedSupply      := s.totalStaked
    treasuryBalance   := treasuryBalance
    timestamp         := ctx.blockTime
  } s

-- Whether the block is one of those at an interval.
def ticks (ctx : Context) (interval : UInt64) : Bool :=
  interval > 0 && ctx.blockHeight.toInt64 % interval.toInt64 = 0

def dynamicPricingTick (ctx : Context) (s : State) : State :=
  if ticks ctx s.getModuleIntervals.dynamicPricingBlocks then updateDynamicPricing ctx s else s

def emissionTick (s : State) : UInt64 :=
  if s.getModuleIntervals.emissionTickBlocks = 0 then s.getModuleIntervals.conversionTickBlocks
  else s.getModuleIntervals.emissionTickBlocks

def emissionScheduleTick (ctx : Context) (s : State) : State :=
  if ticks ctx (emissionTick s) then (orKeep s (updateEmissionSchedule ctx s)).1 else s

def conversionTick (ctx : Context) (s : State) : State :=
  if ticks ctx s.getModuleIntervals.conversionTickBlocks then updateConversionWindows ctx s else s

def distributionTick (k : Keeper) (ctx : Context) (s : State) : Result State :=
  if ticks ctx (emissionTick s) then skipError s (k.distributeFees ctx s) else .ok s

def snapshotTick (k : Keeper) (ctx : Context) (s : State) : Result State :=
  if ticks ctx s.getModuleIntervals.blocksPerDay then
    skipError s (k.recordTreasurySnapshot ctx s)
  else .ok s

def endBlocker (k : Keeper) (ctx : Context) (s : State) : Result State := do
  let s := dynamicPricingTick ctx s
  let s := emissionScheduleTick ctx s
  let s := conversionTick ctx s
  let s ← k.distributionTick ctx s
  k.snapshotTick ctx s

end Keeper

-- A record without what it earned.
def StakingInfo.principal (r : StakingInfo) : StakingInfo :=
  { r with rewardsEarned := 0 }

theorem principal_eq {info info' : StakingInfo} (h : info'.principal = info.principal) :
    info'.address = info.address ∧ info'.stakedAmount = info.stakedAmount ∧
      info'.unlockHeight = info.unlockHeight ∧ info'.isActive = info.isActive := by
  simp only [StakingInfo.principal, StakingInfo.mk.injEq] at h
  exact ⟨h.1, h.2.1, h.2.2.2.2.2, h.2.2.2.2.1⟩

-- The distribution pays from the bank and only touches what stakers earned.
structure PaidOut (s s' : State) : Prop where
  supply  : s'.bank.supply = s.bank.supply
  records : ∀ id, (s'.stakingRecords.get id).map StakingInfo.principal =
    (s.stakingRecords.get id).map StakingInfo.principal
  state   : s' = { s with bank := s'.bank, stakingRecords := s'.stakingRecords }

namespace PaidOut

variable {s s' s'' : State}

theorem refl (s : State) : PaidOut s s where
  supply     := rfl
  records _  := rfl
  state      := rfl

theorem trans (h : PaidOut s s') (h' : PaidOut s' s'') : PaidOut s s'' where
  supply     := h'.supply.trans h.supply
  records id := (h'.records id).trans (h.records id)
  state      := by
    rw [h'.state, h.state]

end PaidOut

variable {k : Keeper} {ctx : Context} {s s' : State} {amount total : UInt64} {sent : Bool}

theorem of_sendFees {recipient : AccAddress} (h : k.sendFees recipient amount s = .ok (s', sent)) :
    ∃ bank : Bank, bank.supply = s.bank.supply ∧ s' = { s with bank } := by
  simp only [Keeper.sendFees] at h
  split at h
  case h_1 bank hb =>
    cases h
    refine ⟨bank, funext fun d => ?_, rfl⟩
    have hc := (Bank.of_sendCoinsFromModuleToAccount hb).supply d
    simpa using hc
  case h_2 =>
    cases h
    exact ⟨s.bank, rfl, rfl⟩
  case h_3 => cases h

theorem of_payStaker {staker : String × StakingInfo} (h : k.payStaker amount total s staker = .ok s')
    (hs : (s.stakingRecords.get staker.1).map StakingInfo.principal = some staker.2.principal) :
    PaidOut s s' := by
  simp only [Keeper.payStaker] at h
  split at h
  case h_1 =>
    cases h
    exact .refl s
  case h_2 stakerAddr _ =>
    simp only [Result.bind_eq_ok, Result.pure_eq_ok, Prod.exists] at h
    obtain ⟨s₁, sent, hsend, rfl⟩ := h
    obtain ⟨bank, hsupply, rfl⟩ := of_sendFees hsend
    cases sent with
    | false => exact ⟨hsupply, fun _ => rfl, rfl⟩
    | true =>
      refine ⟨hsupply, fun id => ?_, rfl⟩
      simp only [if_true, KVStore.get_set]
      split_ifs with hid
      · rw [hid, hs]
        rfl
      · rfl

theorem of_payStakers (h : k.payStakers amount s = .ok s') : PaidOut s s' := by
  simp only [Keeper.payStakers] at h
  split_ifs at h
  · have hall : Fold.Along (k.payStaker amount s.totalStaked)
        (fun _ e => (s.stakingRecords.get e.1).map StakingInfo.principal = some e.2.principal)
        s.activeStakers s := by
      refine .of_forall fun e he _ => ?_
      rw [KVStore.mem_entries_iff.mp (List.mem_of_mem_filter he)]
      rfl
    refine hall.holds (I := fun _ s' => PaidOut s s') (fun hp he hs => ?_) (.refl s) h
    exact hp.trans (of_payStaker hs ((hp.records _).trans he))
  · cases h
    exact .refl s

theorem of_payTreasury (h : k.payTreasury amount s = .ok s') : PaidOut s s' := by
  simp only [Keeper.payTreasury] at h
  split_ifs at h
  · simp only [Result.bind_eq_ok, Result.pure_eq_ok, Prod.exists] at h
    obtain ⟨s₁, sent, hsend, rfl⟩ := h
    obtain ⟨bank, hsupply, rfl⟩ := of_sendFees hsend
    exact ⟨hsupply, fun _ => rfl, rfl⟩
  · cases h
    exact .refl s

-- What a distribution did.
structure Distributed (ctx : Context) (s s' : State) : Prop where
  minted  : s'.bank.supply "mlcoin" = s.bank.supply "mlcoin" + s.fees.total.toNat
  records : ∀ id, (s'.stakingRecords.get id).map StakingInfo.principal =
    (s.stakingRecords.get id).map StakingInfo.principal
  reset   : s.fees.total = 0 ∧ s' = s ∨
    s'.feesAccumulated = some { lastDistributionTime := ctx.blockTime }
  state   : s' = { s with
    bank            := s'.bank
    stakingRecords  := s'.stakingRecords
    feesAccumulated := s'.feesAccumulated
  }

theorem of_distributeFees (h : k.distributeFees ctx s = .ok s') : Distributed ctx s s' := by
  by_cases hz : s.fees.total = 0
  case pos =>
    simp only [Keeper.distributeFees, hz, if_true] at h
    cases h
    exact ⟨by simp [hz], fun _ => rfl, .inl ⟨hz, rfl⟩, rfl⟩
  case neg =>
    simp only [Keeper.distributeFees, hz, if_false, Result.bind_eq_ok, Result.pure_eq_ok] at h
    obtain ⟨bank, hmint, s₁, hstakers, s₂, htreasury, rfl⟩ := h
    have hp := (of_payStakers hstakers).trans (of_payTreasury htreasury)
    refine ⟨?_, hp.records, .inr rfl, ?_⟩
    · have hm := (Bank.of_mintCoins hmint).supply "mlcoin"
      simpa [hp.supply] using hm
    · rw [hp.state]

-- The end of a block leaves the rest alone.
def EndFramed (s s' : State) : Prop :=
  s' = { s with
    emissionState       := s'.emissionState
    emissionMonthAnchor := s'.emissionMonthAnchor
    marketPrice         := s'.marketPrice
    activityMetrics     := s'.activityMetrics
    stakingRecords      := s'.stakingRecords
    feesAccumulated     := s'.feesAccumulated
    bank                := s'.bank
    treasurySnapshots   := s'.treasurySnapshots
  }

-- What the end of a block did.
structure Ended (ctx : Context) (s s' : State) : Prop where
  schedule : s'.emissionState = s.emissionState ∧ s'.emissionMonthAnchor = s.emissionMonthAnchor ∨
    ∃ e, Scheduled ctx e s s'
  market   : s'.marketPrice = (Keeper.dynamicPricingTick ctx s).marketPrice
  records  : ∀ id, (s'.stakingRecords.get id).map StakingInfo.principal =
    (s.stakingRecords.get id).map StakingInfo.principal
  fees     : s'.bank.supply "mlcoin" = s.bank.supply "mlcoin" ∧ s'.feesAccumulated = s.feesAccumulated ∨
    s'.bank.supply "mlcoin" = s.bank.supply "mlcoin" + s.fees.total.toNat ∧
      s'.feesAccumulated = some { lastDistributionTime := ctx.blockTime }
  state    : EndFramed s s'

theorem dynamicPricingTick_eq (ctx : Context) (s : State) : Keeper.dynamicPricingTick ctx s = { s with
    marketPrice     := (Keeper.dynamicPricingTick ctx s).marketPrice
    activityMetrics := (Keeper.dynamicPricingTick ctx s).activityMetrics
  } := by
  simp only [Keeper.dynamicPricingTick]
  split_ifs <;> rfl

theorem conversionTick_eq (ctx : Context) (s : State) : Keeper.conversionTick ctx s = { s with
    activityMetrics := (Keeper.conversionTick ctx s).activityMetrics
  } := by
  simp only [Keeper.conversionTick]
  split_ifs <;> rfl

theorem emissionScheduleTick_cases (ctx : Context) (s : State) : Keeper.emissionScheduleTick ctx s = s ∨
    ∃ e, Scheduled ctx e s (Keeper.emissionScheduleTick ctx s) := by
  simp only [Keeper.emissionScheduleTick]
  split_ifs
  · exact (orKeep_eq rfl).imp_right fun h => (of_updateEmissionSchedule h).1
  · exact .inl rfl

theorem emissionScheduleTick_eq (ctx : Context) (s : State) : Keeper.emissionScheduleTick ctx s = { s with
    emissionMonthAnchor := (Keeper.emissionScheduleTick ctx s).emissionMonthAnchor
    emissionState       := (Keeper.emissionScheduleTick ctx s).emissionState
  } := by
  simp only [Keeper.emissionScheduleTick]
  split_ifs
  · cases h : Keeper.updateEmissionSchedule ctx s with
    | error _ => rfl
    | ok s₁ => exact (of_updateEmissionSchedule h).2
  · rfl

theorem of_distributionTick (h : k.distributionTick ctx s = .ok s') :
    s' = s ∨ Distributed ctx s s' := by
  simp only [Keeper.distributionTick] at h
  split_ifs at h
  · exact (of_skipError h).imp_right of_distributeFees
  · cases h
    exact .inl rfl

theorem storeTreasurySnapshot_eq {snapshot : TreasurySnapshot} :
    Keeper.storeTreasurySnapshot snapshot s = { s with
      treasurySnapshots := (Keeper.storeTreasurySnapshot snapshot s).treasurySnapshots
    } := by
  simp only [Keeper.storeTreasurySnapshot]

theorem of_snapshotTick (h : k.snapshotTick ctx s = .ok s') :
    s' = { s with treasurySnapshots := s'.treasurySnapshots } := by
  simp only [Keeper.snapshotTick] at h
  split_ifs at h
  · rcases of_skipError h with rfl | h
    · rfl
    · simp only [Keeper.recordTreasurySnapshot, Result.bind_eq_ok, Result.pure_eq_ok] at h
      obtain ⟨_, _, rfl⟩ := h
      exact storeTreasurySnapshot_eq
  · cases h
    rfl

theorem of_endBlocker (h : k.endBlocker ctx s = .ok s') : Ended ctx s s' := by
  simp only [Keeper.endBlocker, Result.bind_eq_ok] at h
  obtain ⟨s₄, hdist, hsnap⟩ := h
  have hpricing := dynamicPricingTick_eq ctx s
  have hcases := emissionScheduleTick_cases ctx (Keeper.dynamicPricingTick ctx s)
  have hschedule := emissionScheduleTick_eq ctx (Keeper.dynamicPricingTick ctx s)
  have hwindow := conversionTick_eq ctx
    (Keeper.emissionScheduleTick ctx (Keeper.dynamicPricingTick ctx s))
  have hdist := of_distributionTick hdist
  have hsnap := of_snapshotTick hsnap
  generalize hp : Keeper.dynamicPricingTick ctx s = s₁ at *
  generalize Keeper.emissionScheduleTick ctx s₁ = s₂ at *
  generalize Keeper.conversionTick ctx s₂ = s₃ at *
  have hrest : s₄ = { s₃ with
      bank            := s₄.bank
      stakingRecords  := s₄.stakingRecords
      feesAccumulated := s₄.feesAccumulated
    } := by
    rcases hdist with rfl | h
    · rfl
    · exact h.state
  have hs₃ : s₃ = { s with
      emissionState       := s₂.emissionState
      emissionMonthAnchor := s₂.emissionMonthAnchor
      marketPrice         := s₁.marketPrice
      activityMetrics     := s₃.activityMetrics
    } := by
    rw [hwindow, hschedule, hpricing]
  have hs : s' = { s₃ with
      bank                := s₄.bank
      stakingRecords      := s₄.stakingRecords
      feesAccumulated     := s₄.feesAccumulated
      treasurySnapshots   := s'.treasurySnapshots
    } := by
    rw [hsnap, hrest]
  have h₁ : s₁.emissionState = s.emissionState ∧
      s₁.emissionMonthAnchor = s.emissionMonthAnchor := by
    rw [hpricing]
    exact ⟨rfl, rfl⟩
  have h₂ : s'.emissionState = s₂.emissionState ∧
      s'.emissionMonthAnchor = s₂.emissionMonthAnchor := by
    rw [hs, hs₃]
    exact ⟨rfl, rfl⟩
  have h₃ : s₃.bank = s.bank ∧ s₃.stakingRecords = s.stakingRecords ∧
      s₃.feesAccumulated = s.feesAccumulated := by
    rw [hs₃]
    exact ⟨rfl, rfl, rfl⟩
  have h₄ : s'.bank = s₄.bank ∧ s'.stakingRecords = s₄.stakingRecords ∧
      s'.feesAccumulated = s₄.feesAccumulated := by
    rw [hs]
    exact ⟨rfl, rfl, rfl⟩
  refine ⟨?schedule, ?market, ?records, ?fees, ?state⟩
  case schedule =>
    rcases hcases with rfl | ⟨e, h⟩
    · exact .inl ⟨h₂.1.trans h₁.1, h₂.2.trans h₁.2⟩
    · have ha : Keeper.monthAnchor ctx.blockTime s₁ = Keeper.monthAnchor ctx.blockTime s := by
        rw [Keeper.monthAnchor, h₁.2, Keeper.monthAnchor]
      refine .inr ⟨e, h₁.1 ▸ h.emission, ?_, ?_⟩
      · rw [h₂.2, h.anchor, ha]
      · rw [h₂.1, h.scheduled, Keeper.monthsSinceGenesis, ha, Keeper.monthsSinceGenesis]
  case market => rw [hs, hs₃, hp]
  case records =>
    intro id
    rw [h₄.2.1, ← h₃.2.1]
    rcases hdist with rfl | h
    · rfl
    · exact h.records id
  case fees =>
    rw [h₄.1, h₄.2.2, ← h₃.1, ← h₃.2.2]
    have hfees : s.fees = s₃.fees := by rw [State.fees, ← h₃.2.2, State.fees]
    rw [hfees]
    rcases hdist with rfl | h
    · exact .inl ⟨rfl, rfl⟩
    · rcases h.reset with ⟨_, rfl⟩ | hr
      · exact .inl ⟨rfl, rfl⟩
      · exact .inr ⟨h.minted, hr⟩
  case state =>
    unfold EndFramed
    rw [hs, hs₃]

end Mlcoin
