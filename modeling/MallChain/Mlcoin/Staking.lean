import MallChain.Lib.Decimal
import MallChain.Mlcoin.Mint

namespace Mlcoin

open Sdk

def defaultMinStakeAmount : UInt64 := 18250

namespace State

def getModuleIntervals (s : State) : ModuleIntervals :=
  s.intervals.getD {}

-- The smallest stake that earns rewards, unless a parameter sets another bound.
def effectiveMinStakeAmount (s : State) : UInt64 :=
  let minStakeAmount := (s.params.map (·.minStakeAmount)).getD 0
  if minStakeAmount > 0 then minStakeAmount
  else if s.getModuleIntervals.rewardDivisor > 0 then s.getModuleIntervals.rewardDivisor
  else defaultMinStakeAmount

def stakingLockBlocks (s : State) : UInt64 :=
  if s.getModuleIntervals.stakingLockBlocks = 0 then ({} : ModuleIntervals).stakingLockBlocks
  else s.getModuleIntervals.stakingLockBlocks

-- The wallet of an address that gets its principal back.
def returned (s : State) (addr : String) (stakedAmount : UInt64) : State :=
  s.setWallet addr { s.wallet addr with balance := (s.wallet addr).balance + stakedAmount }

end State

def stakeID (seq : ℕ) (address : String) : String :=
  s!"stake-{seq}-{address}"

theorem stakeID_toList {seq : ℕ} {address : String} : (stakeID seq address).toList =
    "stake-".toList ++ (Decimal.digits seq ++ '-' :: address.toList) := by
  have h : stakeID seq address = "stake-" ++ toString seq ++ "-" ++ address := rfl
  rw [h, String.toList_append, String.toList_append, String.toList_append, Decimal.toList_toString]
  simp

-- Different stakes have different ids, whatever the addresses look like.
theorem stakeID_inj {seq seq' : ℕ} {address address' : String}
    (h : stakeID seq address = stakeID seq' address') : seq = seq' ∧ address = address' := by
  have hl := congrArg String.toList h
  rw [stakeID_toList, stakeID_toList] at hl
  obtain ⟨hs, ha⟩ := Decimal.digits_append_inj (by decide) (List.append_cancel_left hl)
  exact ⟨hs, String.toList_inj.mp ha⟩

namespace Keeper

def stake (ctx : Context) (address : String) (amount : UInt64) (s : State) :
    Result (State × String) := do
  failIf (amount = 0) (wrap errInvalidRequest "stake amount must be > 0")
  let minStake := s.effectiveMinStakeAmount
  failIf (amount < minStake) <| wrap errStakeBelowMinimum
    (s!"stake amount {amount} < MinStakeAmount {minStake} " ++
      "(raise stake or query /mlcoin/v1/params for the current threshold)")
  let wallet ← orFail (s.walletBalance.get address) (wrap errWalletNotFound "wallet not found")
  failIf (wallet.balance < amount) (wrap errInsufficientBalance "insufficient balance to stake")
  let id := stakeID s.stakingSequence address
  let stakeInfo : StakingInfo := {
    address      := address
    stakedAmount := amount
    stakeDate    := ctx.blockHeight.toInt64
    isActive     := true
    unlockHeight := ctx.blockHeight + s.stakingLockBlocks
  }
  let s := s.setWallet address { wallet with balance := wallet.balance - amount }
  let s := { s with
    stakingSequence := s.stakingSequence + 1
    stakingRecords  := s.stakingRecords.set id stakeInfo
  }
  let (s, _) := recordTransaction ctx address "staking" amount "stake" "Staked for rewards" s
  return (recordActivity amount [address] s, id)

def calculateRewardsForStaking (stakedAmount stakeDurationBlocks : UInt64) (s : State) : UInt64 :=
  let intervals := s.getModuleIntervals
  let metrics := s.activityMetrics.getD { engagementScore := 500 }
  let rewardDivisor :=
    if intervals.rewardDivisor = 0 then ({} : ModuleIntervals).rewardDivisor
    else intervals.rewardDivisor
  if stakedAmount < rewardDivisor ∧ stakeDurationBlocks > 0 then 0
  else
    let blockRewards := stakedAmount / rewardDivisor
    let engagementMultiplier :=
      if metrics.engagementScore / 1000 = 0 then 1 else metrics.engagementScore / 1000
    let blocksPerMonth :=
      if intervals.blocksPerMonth = 0 then ({} : ModuleIntervals).blocksPerMonth
      else intervals.blocksPerMonth
    let durationMonths := stakeDurationBlocks / blocksPerMonth
    let durationBonus := durationMonths / 10
    blockRewards * engagementMultiplier * (100 + durationBonus) / 100

-- A reward that cannot be minted is forfeited.
def claimReward (ctx : Context) (address : String) (rewards : UInt64) (s : State) :
    State × UInt64 :=
  if rewards > 0 then
    match withMintingEnabled fun enabled => mintToWallet enabled ctx address rewards s with
    | .ok s' => (s', rewards)
    | .error _ => (s, 0)
  else (s, rewards)

def unstakeAndClaimRewards (ctx : Context) (address id : String) (s : State) :
    Result (State × UInt64) := do
  let stakeInfo ← orFail (s.stakingRecords.get id) (wrap errInvalidRequest "stake not found")
  failIf (stakeInfo.address ≠ address) (wrap errUnauthorized "stake does not belong to caller")
  failIf (stakeInfo.isActive = false) (wrap errInvalidRequest "stake already inactive")
  failIf (ctx.blockHeight < stakeInfo.unlockHeight) (wrap errInvalidRequest "stake is still locked")
  let stakedBlocks := ctx.blockHeight - stakeInfo.stakeDate.toUInt64
  let rewards := calculateRewardsForStaking stakeInfo.stakedAmount stakedBlocks s
  let wallet := s.wallet address
  let newBalance ← orWrap (safeAdd wallet.balance stakeInfo.stakedAmount)
    (wrap errInvalidSupply "wallet balance overflow on unstake")
  let s := s.setWallet address { wallet with balance := newBalance }
  let (s, rewards) := claimReward ctx address rewards s
  let totalReturn ← orWrap (safeAdd stakeInfo.stakedAmount rewards)
    (wrap errInvalidSupply "stake return overflow")
  let s := { s with
    stakingRecords := s.stakingRecords.set id
      { stakeInfo with isActive := false, rewardsEarned := rewards }
  }
  let (s, _) := recordTransaction ctx "staking" address totalReturn "reward"
    "Staking rewards claimed" s
  return (s, rewards)

end Keeper

-- The reward of a stake at a height.
def State.rewardOf (s : State) (ctx : Context) (info : StakingInfo) : UInt64 :=
  Keeper.calculateRewardsForStaking info.stakedAmount (ctx.blockHeight - info.stakeDate.toUInt64) s

-- What a successful stake did.
structure Staked (ctx : Context) (address : String) (amount : UInt64) (w : WalletBalance)
    (id : String) (s s' : State) : Prop where
  nonzero : amount ≠ 0
  wallet  : s.walletBalance.get address = some w
  balance : amount.toNat ≤ w.balance.toNat
  key     : id = stakeID s.stakingSequence address
  state   : s' = { s with
    walletBalance    := s.walletBalance.set address { w with balance := w.balance - amount }
    stakingSequence  := s.stakingSequence + 1
    stakingRecords   := s.stakingRecords.set id {
      address      := address
      stakedAmount := amount
      stakeDate    := ctx.blockHeight.toInt64
      isActive     := true
      unlockHeight := ctx.blockHeight + s.stakingLockBlocks
    }
    transactions     := s'.transactions
    transactionCount := s.transactionCount + 1
    activityMetrics  := (Keeper.recordActivity amount [address] s).activityMetrics
  }

-- What a successful unstaking did: it returned the principal, then claimed the rewards.
structure Unstaked (ctx : Context) (address id : String) (info : StakingInfo) (rewards : UInt64)
    (s s₁ s' : State) : Prop where
  record  : s.stakingRecords.get id = some info
  owner   : info.address = address
  active  : info.isActive = true
  height  : info.unlockHeight ≤ ctx.blockHeight
  balance : (s.wallet address).balance.toNat + info.stakedAmount.toNat < 2 ^ 64
  reward  : s₁ = s.returned address info.stakedAmount ∧ rewards = 0 ∨
    rewards = s.rewardOf ctx info ∧
      ∃ e, Minted address rewards e (s.returned address info.stakedAmount) s₁
  state   : s' = { s₁ with
    stakingRecords   := s.stakingRecords.set id
      { info with isActive := false, rewardsEarned := rewards }
    transactions     := s'.transactions
    transactionCount := s₁.transactionCount + 1
  }

variable {ctx : Context} {s s' : State} {address id : String} {amount rewards : UInt64}

theorem of_stake (h : Keeper.stake ctx address amount s = .ok (s', id)) :
    ∃ w, Staked ctx address amount w id s s' := by
  simp only [Keeper.stake, Result.bind_eq_ok, failIf_eq_ok, orFail_eq_ok, Result.pure_eq_ok,
    Prod.mk.injEq] at h
  obtain ⟨_, hz, _, _, w, hw, _, hle, hs, hid⟩ := h
  rw [UInt64.not_lt, UInt64.le_iff_toNat_le] at hle
  subst hs hid
  exact ⟨w, hz, hw, hle, rfl, rfl⟩

theorem of_claimReward {s₁ : State} {rewards' : UInt64}
    (h : Keeper.claimReward ctx address rewards s = (s₁, rewards')) :
    s₁ = s ∧ rewards' = 0 ∨ rewards' = rewards ∧ ∃ e, Minted address rewards' e s s₁ := by
  by_cases hr : rewards > 0
  case pos =>
    simp only [Keeper.claimReward, hr, if_true] at h
    split at h
    case h_1 hm =>
      cases h
      exact .inr ⟨rfl, of_mintToWallet hm⟩
    case h_2 =>
      cases h
      exact .inl ⟨rfl, rfl⟩
  case neg =>
    simp only [Keeper.claimReward, hr, if_false] at h
    cases h
    exact .inl ⟨rfl, UInt64.le_zero_iff.mp (UInt64.not_lt.mp hr)⟩

theorem of_unstakeAndClaimRewards
    (h : Keeper.unstakeAndClaimRewards ctx address id s = .ok (s', rewards)) :
    ∃ info s₁, Unstaked ctx address id info rewards s s₁ s' := by
  simp only [Keeper.unstakeAndClaimRewards, Result.bind_eq_ok, failIf_eq_ok, orFail_eq_ok,
    orWrap_eq_ok, Result.pure_eq_ok, Prod.mk.injEq] at h
  obtain ⟨info, hinfo, _, howner, _, hactive, _, hheight, _, hadd, total, htotal, hs, hr⟩ := h
  obtain ⟨hadd, hadd'⟩ := of_safeAdd hadd
  subst hadd
  rw [UInt64.not_lt] at hheight
  generalize hc : Keeper.claimReward .. = r at hs hr
  obtain ⟨s₁, _⟩ := r
  subst hs hr
  have hreward := of_claimReward hc
  refine ⟨info, s₁, hinfo, not_not.mp howner, Bool.eq_true_of_not_eq_false hactive, hheight,
    dropped_eq_zero_iff.mp hadd', hreward, ?_⟩
  have hrecords : s₁.stakingRecords = s.stakingRecords := by
    rcases hreward with ⟨rfl, _⟩ | ⟨_, e, hm⟩
    · rfl
    · exact (congrArg State.stakingRecords hm.state).trans rfl
  rw [← hrecords]
  rfl

theorem Unstaked.framed {info : StakingInfo} {s₁ : State}
    (h : Unstaked ctx address id info rewards s s₁ s') : s' = { s with
      walletBalance    := s'.walletBalance
      emissionState    := s'.emissionState
      stakingRecords   := s'.stakingRecords
      transactions     := s'.transactions
      transactionCount := s'.transactionCount
    } := by
  rw [h.state]
  rcases h.reward with ⟨hs, _⟩ | ⟨_, e, hm⟩
  · rw [hs]
    rfl
  · rw [hm.state]
    rfl

end Mlcoin
