import MallChain.Lib.Transition
import MallChain.Mlcoin.Conservation
import MallChain.Mlcoin.EndBlock

namespace Mlcoin

open Sdk

structure GenesisState where
  params           : Params := {}
  walletBalanceMap : List WalletBalance := []
  emissionState    : Option EmissionState := none
  transactionMap   : List Transaction := []
  transactionCount : UInt64 := 0
  marketPrice      : Option MarketPrice := none
  kesBalanceMap    : List KesBalance := []
  tradeHistory     : List Trade := []
  feesAccumulated  : FeesAccumulated := {}

-- The state of the module before its first block.
def initGenesis (genState : GenesisState) (bank : Bank) : State where
  walletBalance   := genState.walletBalanceMap.foldl (fun m elem => m.set elem.index elem) .empty
  kesBalance      := genState.kesBalanceMap.foldl (fun m kb => m.set kb.address kb) .empty
  emissionState   := genState.emissionState
  feesAccumulated :=
    let feesAcc := genState.feesAccumulated
    if feesAcc.transactionFees = 0 ∧ feesAcc.tradingFees = 0 ∧ feesAcc.conversionFees = 0 then
      some {}
    else some feesAcc
  params          := some genState.params
  intervals       := some {}
  bank            := bank

namespace Keeper

def validateParams (k : Keeper) (p : Params) : Result Unit := do
  failIf (p.burnWallet ≠ "" ∧ k.stringToBytes p.burnWallet = none)
    (.error "invalid burn wallet address")
  failIf (p.mlptsPerMlcns > 1000000000000)
    (.error "mlpts_per_mlcns > 1_000_000_000_000; unexpected hyperinflationary ratio")

def updateParams (k : Keeper) (authority : String) (params : Params) (s : State) : Result State := do
  let addr ← orFail (k.stringToBytes authority) (.error "invalid authority address")
  failIf (k.authority ≠ addr)
    (wrap errInvalidSigner s!"invalid authority; expected {k.authorityString}, got {authority}")
  k.validateParams params
  return { s with params := some params }

-- Coins of the bank, which are no MLCN of a wallet.
def mintMallcoin (k : Keeper) (ctx : Context) (authority recipient : String) (amount : UInt64)
    (s : State) : Result (State × String) := do
  failIf (authority ≠ k.authorityString) (wrap errUnauthorized "unauthorized")
  failIf (amount = 0) (wrap errInvalidRequest "amount must be > 0")
  failIf (amount.toInt64 < 0) (.panic "negative coin amount")
  let coins : Coins := [⟨"mlc", amount.toNat⟩]
  let bank ← s.bank.mintCoins k.mintAddr coins
  let recipientAddr ← orFail (k.stringToBytes recipient)
    (wrap errInvalidRequest "invalid recipient address")
  let bank ← bank.sendCoinsFromModuleToAccount k.mintAddr recipientAddr coins
  return recordTransaction ctx k.authorityString recipient amount "mint" "Authority mint"
    { s with bank }

-- The handler of `MsgUnstake`.
def unstake (ctx : Context) (creator id : String) (s : State) : Result (State × UInt64) := do
  failIf (id = "") (wrap errInvalidRequest "stake_id is required")
  unstakeAndClaimRewards ctx creator id s

end Keeper

-- What the messages of the module and the modules that hold its keeper call. Coins are minted for
-- converted points.
inductive Call
  | transferMallcoin (creator toAddr : String) (amount : UInt64)
  | transfer (sender recipient : String) (amount : UInt64)
  | approve (owner spender : String) (amount : UInt64)
  | transferFrom (owner spender recipient : String) (amount : UInt64)
  | buyMallcoin (buyer : String) (mlcn : UInt64)
  | sellMallcoin (seller : String) (mlcn : UInt64)
  | stake (creator : String) (amount : UInt64)
  | unstake (creator id : String)
  | mintToWallet (address : String) (amount : UInt64)
  | mintMallcoin (authority recipient : String) (amount : UInt64)
  | updateParams (authority : String) (params : Params)
  deriving DecidableEq

def Keeper.call (k : Keeper) (ctx : Context) (s : State) : Call → Result State
  | .transferMallcoin creator toAddr amount =>
    return (← k.transferMallcoin ctx creator toAddr amount s).1
  | .transfer sender recipient amount => k.transfer ctx sender recipient amount s
  | .approve owner spender amount => k.approve owner spender amount s
  | .transferFrom owner spender recipient amount =>
    k.transferFrom ctx owner spender recipient amount s
  | .buyMallcoin buyer mlcn => return (← buyMallcoin ctx buyer mlcn s).1
  | .sellMallcoin seller mlcn => return (← sellMallcoin ctx seller mlcn s).1
  | .stake creator amount => return (← stake ctx creator amount s).1
  | .unstake creator id => return (← unstake ctx creator id s).1
  | .mintToWallet address amount =>
    withMintingEnabled fun enabled => mintToWallet enabled ctx address amount s
  | .mintMallcoin authority recipient amount =>
    return (← k.mintMallcoin ctx authority recipient amount s).1
  | .updateParams authority params => k.updateParams authority params s

-- The module in a block.
structure Chain where
  ctx   : Context
  state : State

-- A call in the block, the end of the block with the start of the next one, or something that the
-- rest of the chain does with its coins.
inductive Action
  | call (c : Call)
  | endBlock (ctx : Context)
  | rest (bank : Bank)

namespace Keeper

def act (k : Keeper) (p : Chain) : Action → Result Chain
  | .call c => return { p with state := ← k.call p.ctx p.state c }
  | .endBlock ctx => return ⟨ctx, ← k.endBlocker p.ctx p.state⟩
  | .rest bank => return { p with state := { p.state with bank } }

-- What fails is reverted.
def next (k : Keeper) (p : Chain) (a : Action) : Chain :=
  (k.act p a).toOption.getD p

theorem act_next {k : Keeper} {p : Chain} {a : Action} (h : (k.act p a).isOk = true) :
    k.act p a = .ok (k.next p a) := by
  rw [next]
  cases hs : k.act p a <;> simp_all [Except.isOk, Except.toBool, Except.toOption]

end Keeper

-- Times are 64-bit numbers of seconds that never go back.
def Allowed (p : Chain) : Action → Prop
  | .endBlock ctx => p.ctx.blockTime ≤ ctx.blockTime ∧ ctx.blockTime < 2 ^ 63
  | _ => True

instance decidableAllowed {p : Chain} : (a : Action) → Decidable (Allowed p a)
  | .call _ => inferInstanceAs (Decidable True)
  | .endBlock _ => inferInstanceAs (Decidable (_ ∧ _))
  | .rest _ => inferInstanceAs (Decidable True)

-- A failure is no step.
def chain (k : Keeper) (init : Chain → Prop) : TransitionSystem Chain Action where
  init        := init
  step p a p' := Allowed p a ∧ k.act p a = .ok p'

-- A chain starts with a genesis.
structure Chain.Genesis (p : Chain) (genState : GenesisState) : Prop where
  state : ∃ bank, p.state = initGenesis genState bank
  time  : -2 ^ 63 ≤ p.ctx.blockTime

def Chain.Founded (p : Chain) : Prop :=
  ∃ genState, p.Genesis genState

-- What a transfer without a fee leaves alone.
def Moved (s s' : State) : Prop :=
  s' = { s with
    walletBalance    := s'.walletBalance
    allowances       := s'.allowances
    transactions     := s'.transactions
    transactionCount := s'.transactionCount
  }

-- What approvals and the authority leave alone.
def Administered (s s' : State) : Prop :=
  s' = { s with
    allowances       := s'.allowances
    transactions     := s'.transactions
    transactionCount := s'.transactionCount
    params           := s'.params
    bank             := s'.bank
  }

-- What all transfers, approvals and the authority leave alone.
def Framed (s s' : State) : Prop :=
  s' = { s with
    walletBalance    := s'.walletBalance
    allowances       := s'.allowances
    transactions     := s'.transactions
    transactionCount := s'.transactionCount
    activityMetrics  := s'.activityMetrics
    feesAccumulated  := s'.feesAccumulated
    params           := s'.params
    bank             := s'.bank
  }

variable {k : Keeper} {ctx : Context} {s s' : State} {amount : UInt64}

theorem Moved.framed (h : Moved s s') : Framed s s' := by
  unfold Framed
  rw [h]

theorem Administered.framed (h : Administered s s') : Framed s s' := by
  unfold Framed
  rw [h]

theorem releaseVested_eq (ctx : Context) (addr : String) (w : WalletBalance) (s : State) :
    (Keeper.releaseVested ctx addr w s).1 = { s with
      walletBalance := (Keeper.releaseVested ctx addr w s).1.walletBalance
    } := by
  simp only [Keeper.releaseVested]
  split_ifs <;> rfl

theorem of_transfer_moved {sender recipient : String}
    (h : k.transfer ctx sender recipient amount s = .ok s') : Moved s s' := by
  simp only [Keeper.transfer, Result.bind_eq_ok, orFail_eq_ok, Result.pure_eq_ok] at h
  obtain ⟨_, _, _, _, _, _, w, hw, h⟩ := h
  have hr := releaseVested_eq ctx sender w s
  generalize Keeper.releaseVested ctx sender w s = r at h hr
  obtain ⟨s₁, w₁⟩ := r
  obtain ⟨_, _, _, _, _, _, rfl⟩ := h
  dsimp only at hr
  generalize s₁.walletBalance = m at hr
  subst hr
  rfl

theorem of_transferMallcoin_framed {creator toAddr txId : String}
    (h : k.transferMallcoin ctx creator toAddr amount s = .ok (s', txId)) : Framed s s' := by
  simp only [Keeper.transferMallcoin, Result.bind_eq_ok, orFail_eq_ok, Result.pure_eq_ok,
    Prod.mk.injEq] at h
  obtain ⟨_, _, _, _, w, hw, h⟩ := h
  have hr := releaseVested_eq ctx creator w s
  generalize Keeper.releaseVested ctx creator w s = r at h hr
  obtain ⟨s₁, w₁⟩ := r
  obtain ⟨_, _, _, _, _, _, _, _, _, _, _, _, _, _, _, _, rfl, _⟩ := h
  dsimp only at hr
  generalize s₁.walletBalance = m at hr
  subst hr
  rfl

theorem of_transferFrom_moved {owner spender recipient : String}
    (h : k.transferFrom ctx owner spender recipient amount s = .ok s') : Moved s s' := by
  simp only [Keeper.transferFrom, Result.bind_eq_ok, orFail_eq_ok, Result.pure_eq_ok] at h
  obtain ⟨_, _, _, _, _, _, _, _, _, _, _, _, _, _, rfl⟩ := h
  rfl

theorem of_approve_administered {owner spender : String}
    (h : k.approve owner spender amount s = .ok s') : Administered s s' := by
  simp only [Keeper.approve, Result.bind_eq_ok, Result.pure_eq_ok] at h
  obtain ⟨_, _, _, _, _, _, rfl⟩ := h
  rfl

theorem of_mintMallcoin_administered {authority recipient txId : String}
    (h : k.mintMallcoin ctx authority recipient amount s = .ok (s', txId)) :
    Administered s s' := by
  simp only [Keeper.mintMallcoin, Result.bind_eq_ok, Result.pure_eq_ok] at h
  obtain ⟨_, _, _, _, _, _, _, _, _, _, _, _, h⟩ := h
  cases h
  rfl

theorem of_updateParams_administered {authority : String} {params : Params}
    (h : k.updateParams authority params s = .ok s') : Administered s s' := by
  simp only [Keeper.updateParams, Result.bind_eq_ok, Result.pure_eq_ok] at h
  obtain ⟨_, _, _, _, _, _, rfl⟩ := h
  rfl

-- The calls that neither trade, nor stake, nor mint to a wallet.
def Call.Plain : Call → Prop
  | buyMallcoin .. | sellMallcoin .. | stake .. | unstake .. | mintToWallet .. => False
  | _ => True

-- The effects of a call that succeeds.
inductive Called (ctx : Context) (s s' : State) : Call → Prop
  | framed {c : Call} (plain : c.Plain) (h : Framed s s') : Called ctx s s' c
  | bought {buyer : String} {mlcn : UInt64} {e : EmissionState} {kesBal : KesBalance}
    {current : UInt64} {r : TradeResponse} (h : Bought ctx buyer mlcn e kesBal current r s s') :
    Called ctx s s' (.buyMallcoin buyer mlcn)
  | sold {seller : String} {mlcn : UInt64} {w : WalletBalance} {r : TradeResponse}
    (h : Sold ctx seller mlcn w r s s') : Called ctx s s' (.sellMallcoin seller mlcn)
  | staked {creator id : String} {amount : UInt64} {w : WalletBalance}
    (h : Staked ctx creator amount w id s s') : Called ctx s s' (.stake creator amount)
  | unstaked {creator id : String} {info : StakingInfo} {rewards : UInt64} {s₁ : State}
    (h : Unstaked ctx creator id info rewards s s₁ s') : Called ctx s s' (.unstake creator id)
  | minted {address : String} {amount : UInt64} {e : EmissionState}
    (h : Minted address amount e s s') : Called ctx s s' (.mintToWallet address amount)

theorem of_call {c : Call} (h : k.call ctx s c = .ok s') : Called ctx s s' c := by
  cases c with
  | transferMallcoin =>
    simp only [Keeper.call, Result.bind_eq_ok, Result.pure_eq_ok, Prod.exists] at h
    obtain ⟨_, _, h, rfl⟩ := h
    exact .framed trivial (of_transferMallcoin_framed h)
  | transfer => exact .framed trivial (of_transfer_moved h).framed
  | approve => exact .framed trivial (of_approve_administered h).framed
  | transferFrom => exact .framed trivial (of_transferFrom_moved h).framed
  | buyMallcoin =>
    simp only [Keeper.call, Result.bind_eq_ok, Result.pure_eq_ok, Prod.exists] at h
    obtain ⟨_, r, h, rfl⟩ := h
    obtain ⟨e, kesBal, current, h⟩ := of_buyMallcoin h
    exact .bought h
  | sellMallcoin =>
    simp only [Keeper.call, Result.bind_eq_ok, Result.pure_eq_ok, Prod.exists] at h
    obtain ⟨_, r, h, rfl⟩ := h
    obtain ⟨w, h⟩ := of_sellMallcoin h
    exact .sold h
  | stake =>
    simp only [Keeper.call, Result.bind_eq_ok, Result.pure_eq_ok, Prod.exists] at h
    obtain ⟨_, id, h, rfl⟩ := h
    obtain ⟨w, h⟩ := of_stake h
    exact .staked h
  | unstake =>
    simp only [Keeper.call, Keeper.unstake, Result.bind_eq_ok, Result.pure_eq_ok, Prod.exists] at h
    obtain ⟨_, rewards, ⟨_, _, h⟩, rfl⟩ := h
    obtain ⟨info, s₁, h⟩ := of_unstakeAndClaimRewards h
    exact .unstaked h
  | mintToWallet =>
    obtain ⟨e, h⟩ := of_mintToWallet h
    exact .minted h
  | mintMallcoin =>
    simp only [Keeper.call, Result.bind_eq_ok, Result.pure_eq_ok, Prod.exists] at h
    obtain ⟨_, _, h, rfl⟩ := h
    exact .framed trivial (of_mintMallcoin_administered h).framed
  | updateParams => exact .framed trivial (of_updateParams_administered h).framed

-- The effects of a step.
inductive Stepped (p p' : Chain) : Action → Prop
  | called {c : Call} (h : Called p.ctx p.state p'.state c) (block : p'.ctx = p.ctx) :
    Stepped p p' (.call c)
  | ended {ctx : Context} (h : Ended p.ctx p.state p'.state) (block : p'.ctx = ctx) :
    Stepped p p' (.endBlock ctx)
  | rest {bank : Bank} (h : p' = { p with state := { p.state with bank } }) :
    Stepped p p' (.rest bank)

theorem of_act {p p' : Chain} {a : Action} (h : k.act p a = .ok p') : Stepped p p' a := by
  cases a with
  | call c =>
    simp only [Keeper.act, Result.bind_eq_ok, Result.pure_eq_ok] at h
    obtain ⟨s', h, rfl⟩ := h
    exact .called (of_call h) rfl
  | endBlock ctx =>
    simp only [Keeper.act, Result.bind_eq_ok, Result.pure_eq_ok] at h
    obtain ⟨s', h, rfl⟩ := h
    exact .ended (of_endBlocker h) rfl
  | rest bank =>
    cases h
    exact .rest rfl

-- No stake has an id that the sequence has yet to hand out.
def State.FreshStakes (s : State) : Prop :=
  ∀ seq addr, s.stakingSequence ≤ seq → s.stakingRecords.get (stakeID seq addr) = none

theorem State.FreshStakes.congr (h : s.FreshStakes) (hr : s'.stakingRecords = s.stakingRecords)
    (hs : s'.stakingSequence = s.stakingSequence) : s'.FreshStakes := by
  intro seq addr hle
  rw [hr]
  exact h seq addr (hs ▸ hle)

theorem Called.freshStakes {c : Call} (h : Called ctx s s' c) (hf : s.FreshStakes) :
    s'.FreshStakes := by
  cases h with
  | framed _ h =>
    exact hf.congr ((congrArg State.stakingRecords h).trans rfl)
      ((congrArg State.stakingSequence h).trans rfl)
  | bought h =>
    exact hf.congr ((congrArg State.stakingRecords h.state).trans rfl)
      ((congrArg State.stakingSequence h.state).trans rfl)
  | sold h =>
    exact hf.congr ((congrArg State.stakingRecords h.state).trans rfl)
      ((congrArg State.stakingSequence h.state).trans rfl)
  | staked h =>
    intro seq addr hle
    rw [h.state] at hle ⊢
    have hne : stakeID seq addr ≠ _ := fun he =>
      Nat.not_succ_le_self _ ((stakeID_inj (he.trans h.key)).1 ▸ hle)
    rw [KVStore.get_set_ne hne]
    exact hf seq addr (Nat.le_of_succ_le hle)
  | @unstaked _ id info _ s₁ h =>
    intro seq addr hle
    have hn := hf seq addr ((congrArg State.stakingSequence h.framed).trans rfl ▸ hle)
    have hne : stakeID seq addr ≠ id := by
      rintro rfl
      simp [h.record] at hn
    rw [h.state]
    exact (KVStore.get_set_ne hne).trans hn
  | minted h =>
    exact hf.congr ((congrArg State.stakingRecords h.state).trans rfl)
      ((congrArg State.stakingSequence h.state).trans rfl)

theorem Stepped.freshStakes {p p' : Chain} {a : Action} (h : Stepped p p' a)
    (hf : p.state.FreshStakes) : p'.state.FreshStakes := by
  cases h with
  | called h => exact h.freshStakes hf
  | ended h =>
    intro seq addr hle
    have hs : p'.state.stakingSequence = p.state.stakingSequence :=
      (congrArg State.stakingSequence h.state).trans rfl
    have hr := h.records (stakeID seq addr)
    rw [hf seq addr (hs ▸ hle), Option.map_none, Option.map_eq_none_iff] at hr
    exact hr
  | rest h =>
    subst h
    exact hf

theorem Chain.Genesis.freshStakes {p : Chain} {genState : GenesisState} (h : p.Genesis genState) :
    p.state.FreshStakes := by
  obtain ⟨bank, hs⟩ := h.state
  rw [hs]
  exact fun _ _ _ => rfl

namespace Sample

-- A step of a run on which everything succeeds.
theorem run_step {init : Chain → Prop} {guard : Chain → Action → Prop} {p : Chain} {a : Action}
    (hp : (chain keeper init).Run guard p) (hg : guard p a) (hl : Allowed p a)
    (h : (keeper.act p a).isOk = true) : (chain keeper init).Run guard (keeper.next p a) :=
  hp.step hg ⟨hl, Keeper.act_next h⟩

theorem traced_step {ε : Type} {init : Chain → Prop} {event : Chain → Action → Chain → ε}
    {guard : Chain × List ε → Action → Prop} {q : Chain × List ε}
    (hq : ((chain keeper init).traced event).Run guard q) (a : Action) (hg : guard q a)
    (hl : Allowed q.1 a) (h : (keeper.act q.1 a).isOk = true) :
    ((chain keeper init).traced event).Run guard
      (keeper.next q.1 a, event q.1 a (keeper.next q.1 a) :: q.2) :=
  hq.traced_step hg ⟨hl, Keeper.act_next h⟩

end Sample

end Mlcoin
