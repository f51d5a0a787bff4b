import MallChain.Mlcoin.System

namespace Mlcoin

open Sdk

-- What happens to the principal of a stake.
inductive StakeEvent
  | staked (id owner : String) (amount unlockHeight : UInt64)
  | returned (id owner : String) (amount height : UInt64)
  deriving DecidableEq

namespace StakeEvent

def stakedID : StakeEvent → Option String
  | staked id _ _ _ => some id
  | returned _ _ _ _ => none

def returnedID : StakeEvent → Option String
  | staked _ _ _ _ => none
  | returned id _ _ _ => some id

end StakeEvent

def stakedIDs (history : List StakeEvent) : List String :=
  history.filterMap (·.stakedID)

def returnedIDs (history : List StakeEvent) : List String :=
  history.filterMap (·.returnedID)

-- A stake is recorded with its terms, and a return with what its record says.
def stakeEvent (p : Chain) (a : Action) (p' : Chain) : Option StakeEvent :=
  match a with
  | .call (.stake creator _) =>
    let id := stakeID p.state.stakingSequence creator
    (p'.state.stakingRecords.get id).map fun info =>
      .staked id info.address info.stakedAmount info.unlockHeight
  | .call (.unstake creator id) =>
    (p.state.stakingRecords.get id).map fun info =>
      .returned id creator info.stakedAmount p.ctx.blockHeight
  | _ => none

-- The records and the history of the stakes agree: a stake is returned at most once, to its owner,
-- in time, and its record keeps its terms.
structure StakeLedger (history : List StakeEvent) (s : State) : Prop where
  named    : ∀ id owner amount unlock, .staked id owner amount unlock ∈ history →
    ∃ seq < s.stakingSequence, id = stakeID seq owner
  distinct : (stakedIDs history).Nodup
  once     : (returnedIDs history).Nodup
  matched  : ∀ id owner amount height, .returned id owner amount height ∈ history →
    ∃ unlock, .staked id owner amount unlock ∈ history ∧ unlock ≤ height
  kept     : ∀ id owner amount unlock, .staked id owner amount unlock ∈ history →
    ∃ info, s.stakingRecords.get id = some info ∧ info.address = owner ∧
      info.stakedAmount = amount ∧ info.unlockHeight = unlock ∧
      (info.isActive = true ↔ id ∉ returnedIDs history)
  recorded : ∀ id info, s.stakingRecords.get id = some info →
    .staked id info.address info.stakedAmount info.unlockHeight ∈ history

variable {k : Keeper} {ctx : Context} {s s' : State} {history : List StakeEvent}
variable {id owner : String} {amount unlock height rewards : UInt64} {info : StakingInfo}

theorem mem_stakedIDs :
    id ∈ stakedIDs history ↔ ∃ owner amount unlock, .staked id owner amount unlock ∈ history := by
  simp only [stakedIDs, List.mem_filterMap]
  constructor
  · rintro ⟨_ | _, he, h⟩
    · cases h
      exact ⟨_, _, _, he⟩
    · cases h
  · rintro ⟨_, _, _, he⟩
    exact ⟨_, he, rfl⟩

theorem mem_returnedIDs :
    id ∈ returnedIDs history ↔ ∃ owner amount height, .returned id owner amount height ∈ history := by
  simp only [returnedIDs, List.mem_filterMap]
  constructor
  · rintro ⟨_ | _, he, h⟩
    · cases h
    · cases h
      exact ⟨_, _, _, he⟩
  · rintro ⟨_, _, _, he⟩
    exact ⟨_, he, rfl⟩

@[simp]
theorem stakedIDs_staked :
    stakedIDs (.staked id owner amount unlock :: history) = id :: stakedIDs history :=
  rfl

@[simp]
theorem stakedIDs_returned :
    stakedIDs (.returned id owner amount height :: history) = stakedIDs history :=
  rfl

@[simp]
theorem returnedIDs_staked :
    returnedIDs (.staked id owner amount unlock :: history) = returnedIDs history :=
  rfl

@[simp]
theorem returnedIDs_returned :
    returnedIDs (.returned id owner amount height :: history) = id :: returnedIDs history :=
  rfl

namespace StakeLedger

theorem empty (h : s.stakingRecords = .empty) : StakeLedger [] s where
  named       := by simp
  distinct    := .nil
  once        := .nil
  matched     := by simp
  kept        := by simp
  recorded id := by simp [h]

theorem returned_mem_staked (h : StakeLedger history s) (hr : id ∈ returnedIDs history) :
    id ∈ stakedIDs history := by
  obtain ⟨owner, amount, height, hr⟩ := mem_returnedIDs.mp hr
  obtain ⟨unlock, hs, _⟩ := h.matched id owner amount height hr
  exact mem_stakedIDs.mpr ⟨_, _, _, hs⟩

-- Rewards may be added to the records.
theorem same (h : StakeLedger history s)
    (hr : ∀ id, (s'.stakingRecords.get id).map StakingInfo.principal =
      (s.stakingRecords.get id).map StakingInfo.principal)
    (hs : s'.stakingSequence = s.stakingSequence) : StakeLedger history s' where
  named    := by
    rw [hs]
    exact h.named
  distinct := h.distinct
  once     := h.once
  matched  := h.matched
  kept     := by
    intro id owner amount unlock he
    obtain ⟨info, hi, ho, ha, hu, hact⟩ := h.kept id owner amount unlock he
    have hp := hr id
    rw [hi, Option.map_some, Option.map_eq_some_iff] at hp
    obtain ⟨info', hi', hp⟩ := hp
    obtain ⟨ho', ha', hu', hact'⟩ := principal_eq hp
    exact ⟨info', hi', ho'.trans ho, ha'.trans ha, hu'.trans hu, by rw [hact', hact]⟩
  recorded := by
    intro id info' hi'
    have hp := hr id
    rw [hi', Option.map_some, eq_comm, Option.map_eq_some_iff] at hp
    obtain ⟨info, hi, hp⟩ := hp
    obtain ⟨ho, ha, hu, _⟩ := principal_eq hp
    rw [← ho, ← ha, ← hu]
    exact h.recorded id info hi

-- The sequence has not handed out the number of a new stake before.
theorem staked (h : StakeLedger history s) (hid : id = stakeID s.stakingSequence info.address)
    (hact : info.isActive = true) (hr : s'.stakingRecords = s.stakingRecords.set id info)
    (hs : s'.stakingSequence = s.stakingSequence + 1) :
    StakeLedger (.staked id info.address info.stakedAmount info.unlockHeight :: history) s' := by
  have hnew : id ∉ stakedIDs history := by
    intro hm
    obtain ⟨owner, amount, unlock, hm⟩ := mem_stakedIDs.mp hm
    obtain ⟨seq, hlt, hseq⟩ := h.named id owner amount unlock hm
    have heq := (stakeID_inj (hid.symm.trans hseq)).1
    omega
  have hnot : id ∉ returnedIDs history := fun hm => hnew (h.returned_mem_staked hm)
  refine ⟨?named, ?distinct, h.once, ?matched, ?kept, ?recorded⟩
  case named =>
    intro id' owner amount unlock he
    rw [hs]
    rcases List.mem_cons.mp he with he | he
    · cases he
      exact ⟨_, Nat.lt_succ_self _, hid⟩
    · obtain ⟨seq, hlt, hseq⟩ := h.named id' owner amount unlock he
      exact ⟨seq, Nat.lt_succ_of_lt hlt, hseq⟩
  case distinct => exact List.nodup_cons.mpr ⟨hnew, h.distinct⟩
  case matched =>
    intro id' owner amount height he
    have he := List.mem_of_ne_of_mem (by simp) he
    obtain ⟨unlock, hm, hle⟩ := h.matched id' owner amount height he
    exact ⟨unlock, List.mem_cons_of_mem _ hm, hle⟩
  case kept =>
    intro id' owner amount unlock he
    rw [hr, returnedIDs_staked]
    rcases List.mem_cons.mp he with heq | he'
    · cases heq
      exact ⟨info, KVStore.get_set_self, rfl, rfl, rfl, iff_of_true hact hnot⟩
    · have hne : id' ≠ id := by
        rintro rfl
        exact hnew (mem_stakedIDs.mpr ⟨_, _, _, he'⟩)
      rw [KVStore.get_set_ne hne]
      exact h.kept id' owner amount unlock he'
  case recorded =>
    intro id' info' hi
    rw [hr, KVStore.get_set] at hi
    split_ifs at hi with heq
    · cases hi
      rw [heq]
      exact List.mem_cons_self
    · exact List.mem_cons_of_mem _ (h.recorded id' info' hi)

theorem returned (h : StakeLedger history s) (hi : s.stakingRecords.get id = some info)
    (hact : info.isActive = true) (hle : info.unlockHeight ≤ height)
    (hr : s'.stakingRecords =
      s.stakingRecords.set id { info with isActive := false, rewardsEarned := rewards })
    (hs : s'.stakingSequence = s.stakingSequence) :
    StakeLedger (.returned id info.address info.stakedAmount height :: history) s' := by
  have hstaked := h.recorded id info hi
  have hnot : id ∉ returnedIDs history := by
    obtain ⟨info', hi', _, _, _, hact'⟩ := h.kept _ _ _ _ hstaked
    cases hi.symm.trans hi'
    exact hact'.mp hact
  refine ⟨?named, h.distinct, ?once, ?matched, ?kept, ?recorded⟩
  case named =>
    intro id' owner amount unlock he
    rw [hs]
    exact h.named id' owner amount unlock (List.mem_of_ne_of_mem (by simp) he)
  case once => exact List.nodup_cons.mpr ⟨hnot, h.once⟩
  case matched =>
    intro id' owner amount height' he
    rcases List.mem_cons.mp he with he | he
    · cases he
      exact ⟨_, List.mem_cons_of_mem _ hstaked, hle⟩
    · obtain ⟨unlock, hm, hle'⟩ := h.matched id' owner amount height' he
      exact ⟨unlock, List.mem_cons_of_mem _ hm, hle'⟩
  case kept =>
    intro id' owner amount unlock he
    have he := List.mem_of_ne_of_mem (by simp) he
    obtain ⟨info', hi', ho, ha, hu, hact'⟩ := h.kept id' owner amount unlock he
    rw [hr, returnedIDs_returned, KVStore.get_set]
    by_cases heq : id' = id
    case pos =>
      subst heq
      cases hi.symm.trans hi'
      exact ⟨_, if_pos rfl, ho, ha, hu, by simp⟩
    case neg =>
      rw [if_neg heq]
      exact ⟨info', hi', ho, ha, hu, by simp [hact', heq]⟩
  case recorded =>
    intro id' info' hi'
    rw [hr, KVStore.get_set] at hi'
    split_ifs at hi' with heq
    · cases hi'
      rw [heq]
      exact List.mem_cons_of_mem _ hstaked
    · exact List.mem_cons_of_mem _ (h.recorded id' info' hi')

end StakeLedger

-- The record of a new stake.
def newStake (ctx : Context) (address : String) (amount : UInt64) (s : State) : StakingInfo where
  address      := address
  stakedAmount := amount
  stakeDate    := ctx.blockHeight.toInt64
  isActive     := true
  unlockHeight := ctx.blockHeight + s.stakingLockBlocks

theorem Called.stakeLedger {c : Call} {p' : Chain} (h : Called ctx s p'.state c)
    (hl : StakeLedger history s) :
    StakeLedger ((stakeEvent ⟨ctx, s⟩ (.call c) p').toList ++ history) p'.state := by
  cases h with
  | framed plain h =>
    have he : stakeEvent ⟨ctx, s⟩ (.call c) p' = none := by
      cases c <;> first | rfl | exact plain.elim
    rw [he]
    exact hl.same (fun id => by rw [(congrArg State.stakingRecords h).trans rfl])
      ((congrArg State.stakingSequence h).trans rfl)
  | bought h =>
    exact hl.same (fun id => by rw [(congrArg State.stakingRecords h.state).trans rfl])
      ((congrArg State.stakingSequence h.state).trans rfl)
  | sold h =>
    exact hl.same (fun id => by rw [(congrArg State.stakingRecords h.state).trans rfl])
      ((congrArg State.stakingSequence h.state).trans rfl)
  | @staked creator id amount w h =>
    have hr : p'.state.stakingRecords = s.stakingRecords.set id (newStake ctx creator amount s) :=
      (congrArg State.stakingRecords h.state).trans rfl
    simp only [stakeEvent, ← h.key, hr, KVStore.get_set_self, Option.map_some, Option.toList_some,
      List.singleton_append]
    exact hl.staked h.key rfl hr ((congrArg State.stakingSequence h.state).trans rfl)
  | unstaked h =>
    have hr := (congrArg State.stakingRecords h.state).trans rfl
    have hs := (congrArg State.stakingSequence h.framed).trans rfl
    simp only [stakeEvent, h.record, Option.map_some, Option.toList_some, List.singleton_append,
      ← h.owner]
    exact hl.returned h.record h.active h.height hr hs
  | minted h =>
    exact hl.same (fun id => by rw [(congrArg State.stakingRecords h.state).trans rfl])
      ((congrArg State.stakingSequence h.state).trans rfl)

theorem Stepped.stakeLedger {p p' : Chain} {a : Action} (h : Stepped p p' a)
    (hl : StakeLedger history p.state) :
    StakeLedger ((stakeEvent p a p').toList ++ history) p'.state := by
  cases h with
  | called h => exact h.stakeLedger hl
  | ended h => exact hl.same h.records ((congrArg State.stakingSequence h.state).trans rfl)
  | rest h =>
    subst h
    exact hl.same (fun _ => rfl) rfl

-- The amount of a stake is taken from its owner, under an id that no other stake has.
structure Taken (creator : String) (amount : UInt64) (s s' : State) : Prop where
  wallet : (s'.wallet creator).balance.toNat + amount.toNat = (s.wallet creator).balance.toNat
  others : ∀ addr ≠ creator, s'.walletBalance.get addr = s.walletBalance.get addr
  new    : ∃ id info, s.stakingRecords.get id = none ∧ s'.stakingRecords.get id = some info ∧
    info.address = creator ∧ info.stakedAmount = amount ∧ info.isActive = true

-- What is left of a reward after the burn, or nothing.
def RewardNet (ctx : Context) (s : State) (info : StakingInfo) (net : UInt64) : Prop :=
  net = 0 ∨ ∃ e, s.emissionState = some e ∧ net = e.netAmount (s.rewardOf ctx info)

-- The principal of an active stake comes back to its owner, and to nobody else.
structure Repaid (ctx : Context) (owner id : String) (s s' : State) : Prop where
  due    : ∃ info, s.stakingRecords.get id = some info ∧ info.address = owner ∧
    info.isActive = true ∧ info.unlockHeight ≤ ctx.blockHeight ∧
    ∃ net, RewardNet ctx s info net ∧ (s'.wallet owner).balance.toNat =
      (s.wallet owner).balance.toNat + info.stakedAmount.toNat + net.toNat
  others : ∀ addr ≠ owner, s'.walletBalance.get addr = s.walletBalance.get addr

theorem wallet_set {w : WalletBalance} (h : s'.walletBalance = s.walletBalance.set owner w) :
    s'.wallet owner = w ∧
      ∀ addr ≠ owner, s'.walletBalance.get addr = s.walletBalance.get addr := by
  rw [State.wallet, h, KVStore.get_set_self]
  exact ⟨rfl, fun _ hne => KVStore.get_set_ne hne⟩

theorem Staked.taken {w : WalletBalance} (h : Staked ctx owner amount w id s s')
    (hf : s.FreshStakes) : Taken owner amount s s' := by
  obtain ⟨hw, hothers⟩ := wallet_set ((congrArg State.walletBalance h.state).trans rfl)
  have hr : s'.stakingRecords = s.stakingRecords.set id (newStake ctx owner amount s) :=
    (congrArg State.stakingRecords h.state).trans rfl
  refine ⟨?_, hothers, id, newStake ctx owner amount s, h.key ▸ hf _ _ (le_refl _), ?_, rfl, rfl,
    rfl⟩
  · have hsub := toNat_sub h.balance
    have hle := h.balance
    rw [hw, State.wallet, h.wallet, Option.getD_some]
    dsimp only
    omega
  · rw [hr, KVStore.get_set_self]

theorem returned_wallet (h : (s.wallet owner).balance.toNat + amount.toNat < 2 ^ 64) :
    ((s.returned owner amount).wallet owner).balance.toNat =
      (s.wallet owner).balance.toNat + amount.toNat := by
  have ha := toNat_add (a := (s.wallet owner).balance) (b := amount)
  rw [dropped_eq_zero_iff.mpr h] at ha
  have hw : (s.returned owner amount).wallet owner =
      { s.wallet owner with balance := (s.wallet owner).balance + amount } := (wallet_set rfl).1
  rw [hw]
  dsimp only
  omega

theorem Unstaked.repaid {s₁ : State} (h : Unstaked ctx owner id info rewards s s₁ s') :
    Repaid ctx owner id s s' := by
  have hreturned := returned_wallet h.balance
  have hothers : ∀ addr ≠ owner, (s.returned owner info.stakedAmount).walletBalance.get addr =
      s.walletBalance.get addr := (wallet_set rfl).2
  have hw : s'.walletBalance = s₁.walletBalance := (congrArg State.walletBalance h.state).trans rfl
  rcases h.reward with ⟨hs, _⟩ | ⟨hrewards, e, hm⟩
  · rw [hs] at hw
    refine ⟨⟨info, h.record, h.owner, h.active, h.height, 0, .inl rfl, ?_⟩, fun addr hne => ?_⟩
    · rw [State.wallet, hw, ← State.wallet, hreturned]
      rfl
    · rw [hw, hothers addr hne]
  · obtain ⟨hw₁, hothers₁⟩ :=
      wallet_set (hw.trans ((congrArg State.walletBalance hm.state).trans rfl))
    refine ⟨⟨info, h.record, h.owner, h.active, h.height, e.netAmount rewards,
      .inr ⟨e, hm.emission, by rw [hrewards]⟩, ?_⟩, fun addr hne => ?_⟩
    · have ha := toNat_add (a := ((s.returned owner info.stakedAmount).wallet owner).balance)
        (b := e.netAmount rewards)
      rw [dropped_eq_zero_iff.mpr hm.balance] at ha
      rw [hw₁]
      dsimp only
      omega
    · rw [hothers₁ addr hne, hothers addr hne]

-- An unstaking that finds its stake due returns the principal if no reward can be minted.
theorem unstake_of_mint_error (hi : s.stakingRecords.get id = some info) (ho : info.address = owner)
    (hact : info.isActive = true) (hle : info.unlockHeight ≤ ctx.blockHeight)
    (hfits : (s.wallet owner).balance.toNat + info.stakedAmount.toNat < 2 ^ 64)
    (hmint : ∃ e, Keeper.mintToWallet true ctx owner (s.rewardOf ctx info)
      (s.returned owner info.stakedAmount) = .error e) :
    ∃ s', Keeper.unstakeAndClaimRewards ctx owner id s = .ok (s', 0) ∧
      (s'.wallet owner).balance.toNat =
        (s.wallet owner).balance.toNat + info.stakedAmount.toNat := by
  have hadd : safeAdd (s.wallet owner).balance info.stakedAmount =
      .ok ((s.wallet owner).balance + info.stakedAmount) := by
    have hn : ¬(s.wallet owner).balance.toNat > 2 ^ 64 - 1 - info.stakedAmount.toNat := by omega
    simp only [safeAdd, failIf, hn, if_false, Result.ok_bind]
    rfl
  have hclaim : Keeper.claimReward ctx owner (s.rewardOf ctx info)
      (s.returned owner info.stakedAmount) = (s.returned owner info.stakedAmount, 0) := by
    obtain ⟨e, hmint⟩ := hmint
    simp only [Keeper.claimReward, Keeper.withMintingEnabled, hmint]
    split_ifs with hpos
    · rfl
    · rw [UInt64.le_zero_iff.mp (UInt64.not_lt.mp hpos)]
  have htotal : safeAdd info.stakedAmount 0 = .ok info.stakedAmount := by
    have hn : ¬info.stakedAmount.toNat > 2 ^ 64 - 1 - (0 : UInt64).toNat := by
      have := info.stakedAmount.toNat_lt
      simp
      omega
    simp only [safeAdd, failIf, hn, if_false, Result.ok_bind, UInt64.add_zero]
    rfl
  have hheight : ¬ctx.blockHeight < info.unlockHeight := UInt64.not_lt.mpr hle
  simp only [State.rewardOf, State.returned] at hclaim
  simp only [Keeper.unstakeAndClaimRewards, hi, orFail, Option.elim, Result.ok_bind, failIf, ho,
    hact, hheight, ne_eq, not_true, Bool.true_eq_false, if_false, hadd, orWrap, hclaim, htotal]
  refine ⟨_, rfl, ?_⟩
  exact returned_wallet hfits

theorem StakeLedger.id_ne_empty (h : StakeLedger history s)
    (hi : s.stakingRecords.get id = some info) : id ≠ "" := by
  obtain ⟨seq, _, rfl⟩ := h.named _ _ _ _ (h.recorded id info hi)
  intro he
  have hl := congrArg String.toList he
  rw [stakeID_toList] at hl
  simp at hl

-- The principal of a stake comes back exactly once.
theorem principal_returned_once (k : Keeper) (q : Chain × List (Option StakeEvent))
    (h : ((chain k Chain.Founded).traced stakeEvent).Reachable q) :
    StakeLedger q.2.reduceOption q.1.state ∧
    (∀ creator amount p', (chain k Chain.Founded).step q.1 (.call (.stake creator amount)) p' →
      Taken creator amount q.1.state p'.state) ∧
    (∀ owner id p', (chain k Chain.Founded).step q.1 (.call (.unstake owner id)) p' →
      Repaid q.1.ctx owner id q.1.state p'.state) ∧
    ∀ owner id info, q.1.state.stakingRecords.get id = some info → info.address = owner →
      info.isActive = true → info.unlockHeight ≤ q.1.ctx.blockHeight →
      (q.1.state.wallet owner).balance.toNat + info.stakedAmount.toNat < 2 ^ 64 →
      (∃ e, Keeper.mintToWallet true q.1.ctx owner (q.1.state.rewardOf q.1.ctx info)
        (q.1.state.returned owner info.stakedAmount) = .error e) →
      ∃ p', (chain k Chain.Founded).step q.1 (.call (.unstake owner id)) p' ∧
        (p'.state.wallet owner).balance.toNat =
          (q.1.state.wallet owner).balance.toNat + info.stakedAmount.toNat := by
  have hledger : ((chain k Chain.Founded).traced stakeEvent).Invariant (fun _ _ => True) fun q =>
      StakeLedger q.2.reduceOption q.1.state := by
    refine TransitionSystem.traced_invariant (fun hi => ?_) fun {p history a p'} hl _ hs => ?_
    · obtain ⟨genState, hg⟩ := hi
      obtain ⟨bank, hs⟩ := hg.state
      exact .empty (by rw [hs]; rfl)
    · have hl' := (of_act hs.2).stakeLedger hl
      dsimp only
      cases he : stakeEvent p a p' with
      | none => rwa [he] at hl'
      | some event => rwa [he] at hl'
  have hfresh : (chain k Chain.Founded).Invariant (fun _ _ => True) fun p => p.state.FreshStakes := {
    init := fun hi => hi.elim fun _ hg => hg.freshStakes
    step := fun hf _ hs => (of_act hs.2).freshStakes hf
  }
  have hl := hledger.holds h
  have hf := (hfresh.traced stakeEvent).holds h
  refine ⟨hl, fun creator amount p' hs => ?_, fun owner id p' hs => ?_, ?_⟩
  · cases of_act hs.2 with
    | called hc =>
      cases hc with
      | framed plain => exact plain.elim
      | staked hc => exact hc.taken hf
  · cases of_act hs.2 with
    | called hc =>
      cases hc with
      | framed plain => exact plain.elim
      | unstaked hc => exact hc.repaid
  · intro owner id info hi ho hact hle hfits hmint
    obtain ⟨s', hs, hw⟩ := unstake_of_mint_error hi ho hact hle hfits hmint
    refine ⟨{ q.1 with state := s' }, ⟨trivial, ?_⟩, hw⟩
    simp only [Keeper.act, Keeper.call, Keeper.unstake, hl.id_ne_empty hi, failIf, if_false, hs,
      Result.ok_bind]
    rfl

namespace Sample

def stakesGenesis : GenesisState where
  walletBalanceMap := [{ index := "owner", address := "owner", balance := 2000000 }]

def stakesBlock : Chain where
  ctx   := block
  state := initGenesis stakesGenesis .empty

end Sample

theorem sample_principal_returned :
    let p₁ := Sample.keeper.next Sample.stakesBlock (.call (.stake "owner" 20000))
    StakeLedger [.staked (stakeID 0 "owner") "owner" 20000 1555210] p₁.state := by
  have h₀ : ((chain Sample.keeper Chain.Founded).traced stakeEvent).Reachable
      (Sample.stakesBlock, []) := .traced_init ⟨_, ⟨⟨_, rfl⟩, by decide⟩⟩
  have h₁ := Sample.traced_step h₀ (.call (.stake "owner" 20000)) trivial trivial
    (by decide +kernel)
  have hl := (principal_returned_once Sample.keeper _ h₁).1
  rwa [show stakeEvent Sample.stakesBlock (.call (.stake "owner" 20000)) _ =
    some (.staked (stakeID 0 "owner") "owner" 20000 1555210) by decide +kernel] at hl

end Mlcoin
