import MallChain.Mlcoin.Distribution

-- What a stake has earned and what was paid for it.

namespace Mlcoin

open Fold Sdk State

-- What can happen to the record of a stake. Everything else leaves it alone.
inductive RewardStep
  | distribute (ctx : Context)
  | unstake (ctx : Context) (address : String)
  | other

-- The state with all rewards that were paid for a stake so far.
structure RewardLedger where
  state : State
  paid  : ℕ

def RewardLedger.Follows (k : Keeper) (id : String) (p : RewardLedger) (q : RewardLedger) :
    RewardStep → Prop
  | .distribute ctx      => k.distributeFees ctx p.state = .ok q.state ∧
    q.paid = p.paid + paidFor (k.payments p.state) id
  | .unstake ctx address => ∃ rewards,
    Keeper.unstakeAndClaimRewards ctx address id p.state = .ok (q.state, rewards) ∧
      q.paid = p.paid + rewards.toNat
  | .other               => q.state.stakingRecords.get id = p.state.stakingRecords.get id ∧
    q.paid = p.paid

-- The record says what was paid.
def RewardLedger.Settled (id : String) (p : RewardLedger) : Prop :=
  ∃ info, p.state.stakingRecords.get id = some info ∧ info.rewardsEarned.toNat = p.paid

def rewardSystem (k : Keeper) (id : String) : TransitionSystem RewardLedger RewardStep where
  init         := RewardLedger.Settled id
  step p a q   := p.Follows k id q a

def State.earned (s : State) (id : String) : UInt64 :=
  ((s.stakingRecords.get id).map (·.rewardsEarned)).getD 0

-- A share does not overflow the counter, and a stake that was paid a share is not ended.
def rewardGuard (k : Keeper) (id : String) (p : RewardLedger) : RewardStep → Prop
  | .distribute _ => ∀ info, p.state.stakingRecords.get id = some info → info.rewardsEarned.toNat +
    (k.share (p.state.fees.total / 2) p.state.totalStaked (id, info)).toNat < 2 ^ 64
  | .unstake _ _  => p.state.earned id = 0
  | .other        => True

variable {k : Keeper} {ctx : Context} {s s' : State} {id : String} {p q : RewardLedger}
variable {a : RewardStep}

theorem RewardLedger.Settled.earned (h : p.Settled id) : (p.state.earned id).toNat = p.paid := by
  obtain ⟨info, hget, hpaid⟩ := h
  rw [State.earned, hget]
  exact hpaid

theorem paidFor_append {payments payments' : List (Staker × UInt64)} :
    paidFor (payments ++ payments') id = paidFor payments id + paidFor payments' id := by
  simp only [paidFor, sumPaid, List.filter_append, List.map_append, List.sum_append]

theorem payment_le_share {amount total : UInt64} {staker : Staker} :
    (k.payment amount total s staker).toNat ≤ (k.share amount total staker).toNat := by
  simp only [Keeper.payment, Keeper.share]
  split
  case h_1 => exact Nat.zero_le _
  case h_2 stakerAddr haddr =>
    have hdecode : k.stringToBytes staker.2.address = some stakerAddr := by
      split_ifs at haddr
      exact haddr
    rw [hdecode, if_neg (by simp)]
    split
    case h_1 => exact le_rfl
    case h_2 => exact Nat.zero_le _

theorem paidFor_trace_le {amount total : UInt64} {stakers : List Staker}
    (h : stakers.foldlM (k.payStaker amount total) s = .ok s') :
    paidFor (trace (k.payStaker amount total) (k.moment amount total) stakers s) id ≤
      paidFor (stakers.map fun staker => (staker, k.share amount total staker)) id := by
  induction stakers generalizing s with
  | nil => exact le_rfl
  | cons staker stakers ih =>
    obtain ⟨s₁, hturn, h⟩ := foldlM_cons_eq_ok.mp h
    have hrest := ih h
    have hpay : (k.payment amount total s staker).toNat ≤ (k.share amount total staker).toNat :=
      payment_le_share
    rw [trace_cons hturn, paidFor_append, Keeper.moment, paidFor_cons, List.map_cons, paidFor_cons]
    have hnil : paidFor [] id = 0 := rfl
    dsimp only
    split_ifs <;> omega

-- A stake is paid its share at most.
theorem paidFor_payments_le {info : StakingInfo} (h : k.distributeFees ctx s = .ok s')
    (hget : s.stakingRecords.get id = some info) :
    paidFor (k.payments s) id ≤
      (k.share (s.fees.total / 2) s.totalStaked (id, info)).toNat := by
  rcases parts_of_distributeFees h with ⟨hz, _⟩ | ⟨_, bank, s₁, s₂, hp⟩
  · rw [payments_of_total hz]
    exact Nat.zero_le _
  · have hloop : (if s.fees.total / 2 > 0 ∧ s.totalStaked > 0 then
        s.activeStakers.foldlM (k.payStaker (s.fees.total / 2) s.totalStaked) { s with bank }
      else .ok { s with bank }) = .ok s₁ := hp.stakers
    rw [payments_of_mint hp.minted]
    split_ifs at hloop ⊢
    case neg => exact Nat.zero_le _
    case pos =>
      refine (paidFor_trace_le hloop).trans ?_
      by_cases hmem : (id, info) ∈ s.activeStakers
      case pos => exact (paidFor_map nodup_activeStakers hmem).le
      case neg =>
        refine (paidFor_eq_zero fun p hp he => hmem ?_).le.trans (Nat.zero_le _)
        obtain ⟨staker, hst, rfl⟩ := List.mem_map.mp hp
        have hinfo := (he ▸ get_of_mem_activeStakers hst).symm.trans hget
        cases hinfo
        cases he
        exact hst

theorem settled_of_step (hp : p.Settled id) (hg : rewardGuard k id p a)
    (hs : (rewardSystem k id).step p a q) :
    q.Settled id ∧ (p.state.earned id).toNat ≤ (q.state.earned id).toNat := by
  have hearned := hp.earned
  obtain ⟨info, hget, hpaid⟩ := hp
  have hmono : q.Settled id ∧ p.paid ≤ q.paid := by
    cases a with
    | distribute ctx =>
      obtain ⟨hs, hq⟩ := hs
      obtain ⟨info', hget', _, hrewards⟩ := records_of_distributeFees hs hget
      have hle := paidFor_payments_le hs hget
      have hfits := hg info hget
      refine ⟨⟨info', hget', ?_⟩, by omega⟩
      rw [hrewards, Nat.mod_eq_of_lt (by omega)]
      omega
    | unstake ctx address =>
      obtain ⟨rewards, hs, hq⟩ := hs
      obtain ⟨info', s₁, hu⟩ := of_unstakeAndClaimRewards hs
      have hzero : p.paid = 0 := by
        rw [← hearned, hg]
        rfl
      refine ⟨⟨{ info' with isActive := false, rewardsEarned := rewards }, ?_, ?_⟩, by omega⟩
      · rw [hu.state]
        exact KVStore.get_set_self
      · rw [hq, hzero, Nat.zero_add]
    | other =>
      obtain ⟨hs, hq⟩ := hs
      exact ⟨⟨info, hs.trans hget, hpaid.trans hq.symm⟩, hq.ge⟩
  refine ⟨hmono.1, ?_⟩
  rw [hearned, hmono.1.earned]
  exact hmono.2

-- Where no share was paid before a stake ends, its record says at any time what was paid for it.
theorem rewards_settled (h : (rewardSystem k id).Run (rewardGuard k id) p) :
    p.Settled id ∧ ∀ a q, rewardGuard k id p a → (rewardSystem k id).step p a q →
      (p.state.earned id).toNat ≤ (q.state.earned id).toNat := by
  have hinv : (rewardSystem k id).Invariant (rewardGuard k id) (RewardLedger.Settled id) :=
    ⟨fun hi => hi, fun hp hg hs => (settled_of_step hp hg hs).1⟩
  have hp := hinv.holds h
  exact ⟨hp, fun a q hg hs => (settled_of_step hp hg hs).2⟩

namespace Sample

-- A distribution to two stakes, and the end of the first of them.

def shared : State :=
  ((keeper.distributeFees block (stakes 1000)).toOption).getD {}

def ended : State :=
  ((Keeper.unstakeAndClaimRewards block "owner" "stake-0-owner" shared).toOption.map (·.1)).getD {}

theorem distributeFees_stakes : keeper.distributeFees block (stakes 1000) = .ok shared := by
  obtain ⟨s', hs⟩ := Result.isOk_iff.mp (by decide +kernel :
    (keeper.distributeFees block (stakes 1000)).isOk = true)
  rw [shared, hs]
  rfl

theorem unstake_shared :
    ∃ rewards, Keeper.unstakeAndClaimRewards block "owner" "stake-0-owner" shared = .ok (ended, rewards) := by
  obtain ⟨⟨s', rewards⟩, hs⟩ := Result.isOk_iff.mp (by decide +kernel :
    (Keeper.unstakeAndClaimRewards block "owner" "stake-0-owner" shared).isOk = true)
  refine ⟨rewards, ?_⟩
  rw [ended, hs]
  rfl

theorem run_shared {guard : RewardLedger → RewardStep → Prop}
    (hg : guard ⟨stakes 1000, 0⟩ (.distribute block)) :
    (rewardSystem keeper "stake-0-owner").Run guard ⟨shared, 50⟩ := by
  have hinit : (rewardSystem keeper "stake-0-owner").init ⟨stakes 1000, 0⟩ :=
    ⟨stakeOf "owner" 1000, by decide +kernel, rfl⟩
  exact .step (.init hinit) hg ⟨distributeFees_stakes, by decide +kernel⟩

end Sample

-- The end of a stake overwrites the fees that it has earned.
theorem earned_overwritten : ¬ ∀ (k : Keeper) (id : String) (p : RewardLedger),
    (rewardSystem k id).Reachable p → p.Settled id := by
  intro h
  obtain ⟨rewards, hs⟩ := Sample.unstake_shared
  have hrun : (rewardSystem Sample.keeper "stake-0-owner").Reachable
      ⟨Sample.ended, 50 + rewards.toNat⟩ :=
    .step (Sample.run_shared trivial) trivial (a := .unstake Sample.block "owner") ⟨rewards, hs, rfl⟩
  have hearned := (h _ _ _ hrun).earned
  have hzero : Sample.ended.earned "stake-0-owner" = 0 := by decide +kernel
  rw [hzero] at hearned
  have hsum : 0 = 50 + rewards.toNat := hearned
  omega

theorem sample_rewards_settled : RewardLedger.Settled "stake-0-owner" ⟨Sample.shared, 50⟩ := by
  have hguard : rewardGuard Sample.keeper "stake-0-owner" ⟨Sample.stakes 1000, 0⟩
      (.distribute Sample.block) := by
    intro info hget
    have hinfo : (Sample.stakes 1000).stakingRecords.get "stake-0-owner" =
        some (Sample.stakeOf "owner" 1000) := by decide +kernel
    cases hinfo.symm.trans hget
    decide +kernel
  exact (rewards_settled (Sample.run_shared hguard)).1

end Mlcoin
