import MallChain.Mlcoin.Vesting

namespace Mlcoin

open Sdk State

-- A genesis that is exported has an emission state also if there is none.
def exportGenesis (s : State) : Result GenesisState := do
  let params ← orFail s.params (.error "collections: not found: key 'params'")
  return {
    params           := params
    walletBalanceMap := s.walletBalance.values
    emissionState    := some <| s.emissionState.getD
      { totalSupply := 0, circulating := 0, dailyLimit := 0, currentMonth := 0, currentDay := 0 }
    feesAccumulated  := s.fees
  }

def GenesisState.validate (k : Keeper) (gs : GenesisState) : Result Unit := do
  failIf (¬(gs.walletBalanceMap.map (·.index)).Nodup) (.error "duplicated index for walletBalance")
  failIf (¬(gs.transactionMap.map (·.txId)).Nodup) (.error "duplicated tx_id for transaction")
  k.validateParams gs.params

def Keeper.ValidGenesis (k : Keeper) (p : Chain) : Prop :=
  ∃ genState, genState.validate k = .ok () ∧ p.Genesis genState

def WalletBalance.amounts (w : WalletBalance) : UInt64 × UInt64 × ℤ :=
  (w.balance, w.locked, w.unlockTime)

-- What an import must restore.
structure Restored (s s' : State) : Prop where
  wallets   : ∀ addr, (s'.walletBalance.get addr).map WalletBalance.amounts =
    (s.walletBalance.get addr).map WalletBalance.amounts
  stakes    : ∀ id info, s.stakingRecords.get id = some info → info.isActive = true →
    s'.stakingRecords.get id = some info
  kes       : ∀ addr, s'.kesBalance.get addr = s.kesBalance.get addr
  allowance : ∀ owner spender,
    Keeper.getAllowance owner spender s' = Keeper.getAllowance owner spender s
  market    : s'.market = s.market
  emission  : s'.emissionState = s.emissionState
  anchor    : s'.emissionMonthAnchor = s.emissionMonthAnchor

-- An export that is valid and that an import restores.
def RoundTrips (k : Keeper) (s : State) : Prop :=
  ∃ genState, exportGenesis s = .ok genState ∧ genState.validate k = .ok () ∧
    ∀ bank, Restored s (initGenesis genState bank)

-- The states that a genesis can hold: wallets that are known under their index, the emission state
-- before its first tick, and nothing else.
structure State.Exportable (s : State) : Prop where
  wallets   : ∀ addr w, s.walletBalance.get addr = some w → w.index = addr
  stakes    : ∀ id info, s.stakingRecords.get id = some info → info.isActive = false
  kes       : ∀ addr, s.kesBalance.get addr = none
  allowance : ∀ owner spender, Keeper.getAllowance owner spender s = 0
  market    : s.market = State.market {}
  emission  : s.emissionState ≠ none
  anchor    : s.emissionMonthAnchor = none

variable {k : Keeper} {ctx : Context} {s s' : State} {bank : Bank} {genState : GenesisState}

-- What is known of every state of a chain: a wallet has its address as its index, or none if it was
-- created by the chain.
structure Exported (k : Keeper) (s : State) : Prop where
  wallets : ∀ addr w, s.walletBalance.get addr = some w → w.index = addr ∨ w.index = ""
  params  : ∃ params, s.params = some params ∧ k.validateParams params = .ok ()

theorem exportGenesis_eq {params : Params} (h : s.params = some params) :
    exportGenesis s = .ok {
      params           := params
      walletBalanceMap := s.walletBalance.values
      emissionState    := some <| s.emissionState.getD
        { totalSupply := 0, circulating := 0, dailyLimit := 0, currentMonth := 0, currentDay := 0 }
      feesAccumulated  := s.fees
    } := by
  simp only [exportGenesis, h, orFail, Option.elim]
  rfl

theorem Exported.roundTrips (he : Exported k s) (h : s.Exportable) : RoundTrips k s := by
  obtain ⟨params, hp, hv⟩ := he.params
  refine ⟨_, exportGenesis_eq hp, ?_, fun bank => ?_⟩
  · have hn : (s.walletBalance.values.map (·.index)).Nodup := KVStore.nodup_values_map h.wallets
    simp only [GenesisState.validate, hn, not_true, failIf, if_false, Result.ok_bind, List.map_nil,
      List.nodup_nil, hv]
  · obtain ⟨e, hemission⟩ := Option.ne_none_iff_exists'.mp h.emission
    refine ⟨fun addr => ?_, fun id info hi hact => ?_, fun addr => ?_, fun owner spender => ?_, ?_,
      ?_, ?_⟩
    · rw [← KVStore.get_restored h.wallets]
      rfl
    · rw [h.stakes id info hi] at hact
      cases hact
    · rw [h.kes]
      rfl
    · rw [h.allowance]
      rfl
    · rw [h.market]
      rfl
    · simp only [initGenesis, hemission, Option.getD_some]
    · rw [h.anchor]
      rfl

-- A wallet that the chain created comes back under no address, if it comes back at all.
theorem Exported.exportable (he : Exported k s) (h : RoundTrips k s) : s.Exportable := by
  obtain ⟨genState, hg, hv, hr⟩ := h
  obtain ⟨params, hp, _⟩ := he.params
  cases (exportGenesis_eq hp).symm.trans hg
  have hr := hr .empty
  simp only [GenesisState.validate, Result.bind_eq_ok, failIf_eq_ok, not_not] at hv
  obtain ⟨_, hn, _⟩ := hv
  refine ⟨fun addr w hw => ?_, fun id info hi => ?_, fun addr => ?_, fun owner spender => ?_, ?_, ?_,
    ?_⟩
  · rcases he.wallets addr w hw with heq | hempty
    · exact heq
    · have hw' := hr.wallets addr
      rw [hw, Option.map_some, Option.map_eq_some_iff] at hw'
      obtain ⟨w', hget, _⟩ := hw'
      rcases (KVStore.get_foldl_set hn).mp hget with ⟨hmem, hindex⟩ | ⟨_, hnone⟩
      · obtain ⟨addr', hstored⟩ := KVStore.mem_values_iff.mp hmem
        rcases he.wallets addr' w' hstored with heq | hempty'
        · rw [← heq, hindex] at hstored
          cases hw.symm.trans hstored
          exact hindex
        · rw [hempty, ← hempty', hindex]
      · cases hnone
  · by_contra hact
    have hs := hr.stakes id info hi (by simpa using hact)
    cases hs
  · exact (hr.kes addr).symm
  · exact (hr.allowance owner spender).symm
  · exact hr.market.symm
  · intro hnone
    have := hr.emission
    rw [hnone] at this
    cases this
  · exact hr.anchor.symm

namespace State

def indexOf (s : State) (addr : String) : Option String :=
  (s.walletBalance.get addr).map (·.index)

end State

-- Whose wallet a call may create.
def Call.payee : Call → Option String
  | transferMallcoin _ toAddr _ => some toAddr
  | transfer _ recipient _ => some recipient
  | transferFrom _ _ recipient _ => some recipient
  | buyMallcoin buyer _ => some buyer
  | unstake creator _ => some creator
  | mintToWallet address _ => some address
  | _ => none

variable {addr x : String} {w : WalletBalance} {amount : UInt64}

theorem indexOf_set (h : s'.walletBalance = s.walletBalance.set addr w) :
    s'.indexOf x = if x = addr then some w.index else s.indexOf x := by
  rw [indexOf, h, KVStore.get_set, indexOf]
  split_ifs <;> rfl

theorem index_wallet : (s.wallet addr).index = (s.indexOf addr).getD "" := by
  rw [wallet, indexOf]
  cases s.walletBalance.get addr <;> rfl

-- A debit does not touch the index of a wallet, and a credit leaves a new wallet without one.

theorem indexOf_debit {balance : UInt64} (hw : s.walletBalance.get addr = some w)
    (h : s'.walletBalance = s.walletBalance.set addr { w with balance }) :
    s'.indexOf x = s.indexOf x := by
  rw [indexOf_set h]
  split_ifs with hx
  · rw [hx, indexOf, hw, Option.map_some]
  · rfl

theorem indexOf_credit {balance : UInt64}
    (h : s'.walletBalance = s.walletBalance.set addr { s.wallet addr with balance }) :
    s'.indexOf x = if x = addr then some ((s.indexOf x).getD "") else s.indexOf x := by
  rw [indexOf_set h]
  split_ifs with hx
  · rw [hx, ← index_wallet]
  · rfl

theorem indexOf_release (hw : s.walletBalance.get addr = some w) :
    (Keeper.releaseVested ctx addr w s).1.indexOf x = s.indexOf x := by
  simp only [Keeper.releaseVested]
  split_ifs
  · rw [indexOf_set rfl]
    split_ifs with hx
    · rw [hx, indexOf, hw, Option.map_some]
    · rfl
  · rfl

theorem of_transfer_indexOf {sender recipient : String}
    (h : k.transfer ctx sender recipient amount s = .ok s') :
    s'.indexOf x = if x = recipient then some ((s.indexOf x).getD "") else s.indexOf x := by
  simp only [Keeper.transfer, Result.bind_eq_ok, orFail_eq_ok, Result.pure_eq_ok] at h
  obtain ⟨_, _, _, _, _, _, w, hw, h⟩ := h
  have hr := releaseVested_released ctx hw
  have hi : (Keeper.releaseVested ctx sender w s).1.indexOf x = s.indexOf x := indexOf_release hw
  generalize Keeper.releaseVested ctx sender w s = r at h hr hi
  obtain ⟨_, _, _, _, _, _, hs⟩ := h
  subst hs
  rw [indexOf_credit rfl, indexOf_debit hr.get rfl, hi]

theorem of_transferMallcoin_indexOf {creator toAddr txId : String}
    (h : k.transferMallcoin ctx creator toAddr amount s = .ok (s', txId)) :
    s'.indexOf x = if x = toAddr then some ((s.indexOf x).getD "") else s.indexOf x := by
  simp only [Keeper.transferMallcoin, Result.bind_eq_ok, orFail_eq_ok, Result.pure_eq_ok,
    Prod.mk.injEq] at h
  obtain ⟨_, _, _, _, w, hw, h⟩ := h
  have hr := releaseVested_released ctx hw
  have hi : (Keeper.releaseVested ctx creator w s).1.indexOf x = s.indexOf x := indexOf_release hw
  generalize Keeper.releaseVested ctx creator w s = r at h hr hi
  obtain ⟨_, _, _, _, _, _, _, _, _, _, newBalance, _, _, _, _, _, hs, _⟩ := h
  have hs' : s'.walletBalance = _ := congrArg State.walletBalance hs.symm
  have hdebit : (r.1.setWallet creator { r.2 with balance := newBalance }).indexOf x =
      r.1.indexOf x := indexOf_debit hr.get rfl
  rw [← hi, ← hdebit]
  exact indexOf_credit hs'

theorem of_transferFrom_indexOf {owner spender recipient : String}
    (h : k.transferFrom ctx owner spender recipient amount s = .ok s') :
    s'.indexOf x = if x = recipient then some ((s.indexOf x).getD "") else s.indexOf x := by
  simp only [Keeper.transferFrom, Result.bind_eq_ok, orFail_eq_ok, Result.pure_eq_ok] at h
  obtain ⟨_, _, _, _, _, _, _, _, _, _, w, hw, _, _, hs⟩ := h
  have hs' : s'.walletBalance = _ := congrArg State.walletBalance hs.symm
  rw [indexOf_set hs']
  split_ifs with hx
  · rw [hx, ← index_wallet]
    rfl
  · exact indexOf_debit hw rfl

theorem Unstaked.indexOf {id : String} {info : StakingInfo} {rewards : UInt64} {s₁ : State}
    (h : Unstaked ctx addr id info rewards s s₁ s') :
    s'.indexOf x = if x = addr then some ((s.indexOf x).getD "") else s.indexOf x := by
  have hr : (s.returned addr info.stakedAmount).indexOf x =
      if x = addr then some ((s.indexOf x).getD "") else s.indexOf x := indexOf_credit rfl
  have hs : s'.walletBalance = s₁.walletBalance := (congrArg State.walletBalance h.state).trans rfl
  rw [State.indexOf, hs, ← State.indexOf]
  rcases h.reward with ⟨rfl, _⟩ | ⟨_, e, hm⟩
  · exact hr
  · rw [indexOf_credit ((congrArg State.walletBalance hm.state).trans rfl), hr]
    split_ifs <;> rfl

theorem indexOf_congr (h : s'.walletBalance = s.walletBalance) : s'.indexOf x = s.indexOf x := by
  rw [State.indexOf, h, State.indexOf]

-- A call creates no other wallet than its payee's.
theorem of_call_indexOf {c : Call} (h : k.call ctx s c = .ok s') : s'.indexOf x =
    if c.payee = some x then some ((s.indexOf x).getD "") else s.indexOf x := by
  have hpayee : ∀ {a : String}, s'.indexOf x =
      (if x = a then some ((s.indexOf x).getD "") else s.indexOf x) →
      s'.indexOf x = if some a = some x then some ((s.indexOf x).getD "") else s.indexOf x := by
    intro a ha
    rw [ha]
    simp only [Option.some.injEq, eq_comm]
  have hc := of_call h
  cases c with
  | transferMallcoin =>
    simp only [Keeper.call, Result.bind_eq_ok, Result.pure_eq_ok, Prod.exists] at h
    obtain ⟨_, _, h, rfl⟩ := h
    exact hpayee (of_transferMallcoin_indexOf h)
  | transfer => exact hpayee (of_transfer_indexOf h)
  | approve =>
    exact indexOf_congr ((congrArg State.walletBalance (of_approve_administered h)).trans rfl)
  | transferFrom => exact hpayee (of_transferFrom_indexOf h)
  | buyMallcoin =>
    cases hc with
    | framed plain => exact plain.elim
    | bought h =>
      exact hpayee (indexOf_credit ((congrArg State.walletBalance h.state).trans rfl))
  | sellMallcoin =>
    cases hc with
    | framed plain => exact plain.elim
    | sold h => exact indexOf_debit h.wallet ((congrArg State.walletBalance h.state).trans rfl)
  | stake =>
    cases hc with
    | framed plain => exact plain.elim
    | staked h => exact indexOf_debit h.wallet ((congrArg State.walletBalance h.state).trans rfl)
  | unstake =>
    cases hc with
    | framed plain => exact plain.elim
    | unstaked h => exact hpayee h.indexOf
  | mintToWallet =>
    cases hc with
    | framed plain => exact plain.elim
    | minted h =>
      exact hpayee (indexOf_credit ((congrArg State.walletBalance h.state).trans rfl))
  | mintMallcoin =>
    simp only [Keeper.call, Result.bind_eq_ok, Result.pure_eq_ok, Prod.exists] at h
    obtain ⟨_, _, h, rfl⟩ := h
    exact indexOf_congr ((congrArg State.walletBalance (of_mintMallcoin_administered h)).trans rfl)
  | updateParams =>
    exact indexOf_congr ((congrArg State.walletBalance (of_updateParams_administered h)).trans rfl)

-- Only approvals and what spends them write allowances.
def Call.allowances (s : State) : Call → KVStore String UInt64
  | approve owner spender amount => s.allowances.set (Keeper.allowanceKey owner spender) amount
  | transferFrom owner spender _ amount =>
    s.allowances.set (Keeper.allowanceKey owner spender)
      (Keeper.getAllowance owner spender s - amount)
  | _ => s.allowances

theorem of_call_allowances {c : Call} (h : k.call ctx s c = .ok s') :
    s'.allowances = c.allowances s := by
  have hc := of_call h
  cases c with
  | transferMallcoin creator =>
    simp only [Keeper.call, Result.bind_eq_ok, Result.pure_eq_ok, Prod.exists] at h
    obtain ⟨_, _, h, rfl⟩ := h
    simp only [Keeper.transferMallcoin, Result.bind_eq_ok, orFail_eq_ok, Result.pure_eq_ok,
      Prod.mk.injEq] at h
    obtain ⟨_, _, _, _, w, _, h⟩ := h
    have hr := releaseVested_eq ctx creator w s
    generalize Keeper.releaseVested ctx creator w s = r at h hr
    obtain ⟨_, _, _, _, _, _, _, _, _, _, _, _, _, _, _, _, rfl, _⟩ := h
    exact (congrArg State.allowances hr).trans rfl
  | transfer sender =>
    simp only [Keeper.call, Keeper.transfer, Result.bind_eq_ok, orFail_eq_ok,
      Result.pure_eq_ok] at h
    obtain ⟨_, _, _, _, _, _, w, _, h⟩ := h
    have hr := releaseVested_eq ctx sender w s
    generalize Keeper.releaseVested ctx sender w s = r at h hr
    obtain ⟨_, _, _, _, _, _, rfl⟩ := h
    exact (congrArg State.allowances hr).trans rfl
  | approve =>
    simp only [Keeper.call, Keeper.approve, Result.bind_eq_ok, Result.pure_eq_ok] at h
    obtain ⟨_, _, _, _, _, _, rfl⟩ := h
    rfl
  | transferFrom =>
    simp only [Keeper.call, Keeper.transferFrom, Result.bind_eq_ok, Result.pure_eq_ok] at h
    obtain ⟨_, _, _, _, _, _, _, _, _, _, _, _, _, _, rfl⟩ := h
    rfl
  | buyMallcoin =>
    cases hc with
    | framed plain => exact plain.elim
    | bought h => exact (congrArg State.allowances h.state).trans rfl
  | sellMallcoin =>
    cases hc with
    | framed plain => exact plain.elim
    | sold h => exact (congrArg State.allowances h.state).trans rfl
  | stake =>
    cases hc with
    | framed plain => exact plain.elim
    | staked h => exact (congrArg State.allowances h.state).trans rfl
  | unstake =>
    cases hc with
    | framed plain => exact plain.elim
    | unstaked h => exact (congrArg State.allowances h.framed).trans rfl
  | mintToWallet =>
    cases hc with
    | framed plain => exact plain.elim
    | minted h => exact (congrArg State.allowances h.state).trans rfl
  | mintMallcoin =>
    simp only [Keeper.call, Result.bind_eq_ok, Result.pure_eq_ok, Prod.exists] at h
    obtain ⟨_, _, h, rfl⟩ := h
    simp only [Keeper.mintMallcoin, Result.bind_eq_ok, Result.pure_eq_ok] at h
    obtain ⟨_, _, _, _, _, _, _, _, _, _, _, _, h⟩ := h
    cases h
    rfl
  | updateParams =>
    simp only [Keeper.call, Keeper.updateParams, Result.bind_eq_ok, Result.pure_eq_ok] at h
    obtain ⟨_, _, _, _, _, _, rfl⟩ := h
    rfl

-- The parameters are only replaced by valid ones.
theorem of_call_params {c : Call} (h : k.call ctx s c = .ok s') : s'.params = s.params ∨
    ∃ params, s'.params = some params ∧ k.validateParams params = .ok () := by
  have hc := of_call h
  cases c with
  | transferMallcoin creator =>
    simp only [Keeper.call, Result.bind_eq_ok, Result.pure_eq_ok, Prod.exists] at h
    obtain ⟨_, _, h, rfl⟩ := h
    simp only [Keeper.transferMallcoin, Result.bind_eq_ok, orFail_eq_ok, Result.pure_eq_ok,
      Prod.mk.injEq] at h
    obtain ⟨_, _, _, _, w, _, h⟩ := h
    have hr := releaseVested_eq ctx creator w s
    generalize Keeper.releaseVested ctx creator w s = r at h hr
    obtain ⟨_, _, _, _, _, _, _, _, _, _, _, _, _, _, _, _, rfl, _⟩ := h
    exact .inl ((congrArg State.params hr).trans rfl)
  | transfer => exact .inl ((congrArg State.params (of_transfer_moved h)).trans rfl)
  | approve =>
    simp only [Keeper.call, Keeper.approve, Result.bind_eq_ok, Result.pure_eq_ok] at h
    obtain ⟨_, _, _, _, _, _, rfl⟩ := h
    exact .inl rfl
  | transferFrom => exact .inl ((congrArg State.params (of_transferFrom_moved h)).trans rfl)
  | buyMallcoin =>
    cases hc with
    | framed plain => exact plain.elim
    | bought h => exact .inl ((congrArg State.params h.state).trans rfl)
  | sellMallcoin =>
    cases hc with
    | framed plain => exact plain.elim
    | sold h => exact .inl ((congrArg State.params h.state).trans rfl)
  | stake =>
    cases hc with
    | framed plain => exact plain.elim
    | staked h => exact .inl ((congrArg State.params h.state).trans rfl)
  | unstake =>
    cases hc with
    | framed plain => exact plain.elim
    | unstaked h => exact .inl ((congrArg State.params h.framed).trans rfl)
  | mintToWallet =>
    cases hc with
    | framed plain => exact plain.elim
    | minted h => exact .inl ((congrArg State.params h.state).trans rfl)
  | mintMallcoin =>
    simp only [Keeper.call, Result.bind_eq_ok, Result.pure_eq_ok, Prod.exists] at h
    obtain ⟨_, _, h, rfl⟩ := h
    simp only [Keeper.mintMallcoin, Result.bind_eq_ok, Result.pure_eq_ok] at h
    obtain ⟨_, _, _, _, _, _, _, _, _, _, _, _, h⟩ := h
    cases h
    exact .inl rfl
  | updateParams authority params =>
    simp only [Keeper.call, Keeper.updateParams, Result.bind_eq_ok, Result.pure_eq_ok] at h
    obtain ⟨_, _, _, _, _, hv, rfl⟩ := h
    exact .inr ⟨params, rfl, hv⟩

theorem Exported.of_indexOf
    (h : ∀ x i, s.indexOf x = some i → i = x ∨ i = "")
    (hp : ∃ params, s.params = some params ∧ k.validateParams params = .ok ()) : Exported k s where
  wallets addr w hw := h addr w.index (by rw [State.indexOf, hw, Option.map_some])
  params := hp

theorem Exported.indexOf {i : String} (h : Exported k s) (hi : s.indexOf x = some i) :
    i = x ∨ i = "" := by
  obtain ⟨w, hw, rfl⟩ := Option.map_eq_some_iff.mp hi
  exact h.wallets x w hw

theorem Exported.congr (h : Exported k s) (hw : s'.walletBalance = s.walletBalance)
    (hp : s'.params = s.params) : Exported k s' where
  wallets := by rw [hw]; exact h.wallets
  params  := by rw [hp]; exact h.params

theorem Exported.act {p p' : Chain} {a : Action} (he : Exported k p.state)
    (h : k.act p a = .ok p') : Exported k p'.state := by
  cases a with
  | call c =>
    simp only [Keeper.act, Result.bind_eq_ok, Result.pure_eq_ok] at h
    obtain ⟨s', h, rfl⟩ := h
    refine .of_indexOf (fun x i hi => ?_) ?_
    · rw [of_call_indexOf h] at hi
      split_ifs at hi with hx
      · cases hold : p.state.indexOf x with
        | none =>
          rw [hold] at hi
          exact .inr (Option.some.inj hi).symm
        | some j =>
          rw [hold] at hi
          exact Option.some.inj hi ▸ he.indexOf hold
      · exact he.indexOf hi
    · rcases of_call_params h with heq | hnew
      · rw [heq]
        exact he.params
      · exact hnew
  | endBlock ctx =>
    cases of_act h with
    | ended h =>
      exact he.congr ((congrArg State.walletBalance h.state).trans rfl)
        ((congrArg State.params h.state).trans rfl)
  | rest bank =>
    cases h
    exact he.congr rfl rfl

theorem Keeper.ValidGenesis.exported {p : Chain} (h : k.ValidGenesis p) : Exported k p.state := by
  obtain ⟨genState, hv, hg⟩ := h
  obtain ⟨bank, hs⟩ := hg.state
  simp only [GenesisState.validate, Result.bind_eq_ok, failIf_eq_ok, not_not] at hv
  obtain ⟨_, hn, _, _, hp⟩ := hv
  rw [hs]
  refine ⟨fun addr w hw => .inl ?_, genState.params, rfl, hp⟩
  rcases (KVStore.get_foldl_set hn).mp hw with ⟨_, hi⟩ | ⟨_, hnone⟩
  · exact hi
  · cases hnone

-- The steps after which a genesis still holds the state.
def ExportKept (p : Chain) : Action → Prop
  | .call c => (∀ addr, c.payee = some addr → addr = "" ∨ p.state.indexOf addr ≠ none) ∧ match c with
    | .approve _ _ amount => amount = 0
    | .sellMallcoin .. => False
    | .stake .. => False
    | _ => True
  | .endBlock _ => (Keeper.dynamicPricingTick p.ctx p.state).market = p.state.market ∧
    Keeper.ticks p.ctx (Keeper.emissionTick p.state) = false
  | .rest _ => True

theorem of_endBlocker_anchor (h : k.endBlocker ctx s = .ok s')
    (ht : Keeper.ticks ctx (Keeper.emissionTick s) = false) :
    s'.emissionMonthAnchor = s.emissionMonthAnchor := by
  simp only [Keeper.endBlocker, Result.bind_eq_ok] at h
  obtain ⟨s₄, hdist, hsnap⟩ := h
  have hpricing := dynamicPricingTick_eq ctx s
  generalize Keeper.dynamicPricingTick ctx s = s₁ at *
  have htick : Keeper.emissionTick s₁ = Keeper.emissionTick s := by
    rw [hpricing]
    rfl
  have hschedule : Keeper.emissionScheduleTick ctx s₁ = s₁ := by
    simp [Keeper.emissionScheduleTick, htick, ht]
  rw [hschedule] at hdist
  have hwindow := conversionTick_eq ctx s₁
  generalize Keeper.conversionTick ctx s₁ = s₃ at *
  calc s'.emissionMonthAnchor
    _ = s₄.emissionMonthAnchor :=
      (congrArg State.emissionMonthAnchor (of_snapshotTick hsnap)).trans rfl
    _ = s₃.emissionMonthAnchor := by
      rcases of_distributionTick hdist with rfl | hd
      · rfl
      · exact (congrArg State.emissionMonthAnchor hd.state).trans rfl
    _ = s₁.emissionMonthAnchor := (congrArg State.emissionMonthAnchor hwindow).trans rfl
    _ = s.emissionMonthAnchor := (congrArg State.emissionMonthAnchor hpricing).trans rfl

theorem State.Exportable.indexOf {i : String} (h : s.Exportable) (hi : s.indexOf x = some i) :
    i = x := by
  obtain ⟨w, hw, rfl⟩ := Option.map_eq_some_iff.mp hi
  exact h.wallets x w hw

theorem getAllowance_congr {owner spender : String} (h : s'.allowances = s.allowances) :
    Keeper.getAllowance owner spender s' = Keeper.getAllowance owner spender s := by
  rw [Keeper.getAllowance, h, Keeper.getAllowance]

theorem of_transferFrom_allowance {owner spender recipient : String}
    (h : k.transferFrom ctx owner spender recipient amount s = .ok s') :
    Keeper.getAllowance owner spender s ≠ 0 := by
  have hz := (of_transferFrom h).1
  simp only [Keeper.transferFrom, Result.bind_eq_ok, failIf_eq_ok] at h
  obtain ⟨_, _, _, _, _, _, _, _, _, hle, _⟩ := h
  intro hzero
  rw [hzero, UInt64.not_lt, UInt64.le_zero_iff] at hle
  exact hz hle

theorem State.Exportable.call_kept {c : Call} {p : Chain} (he : p.state.Exportable)
    (hg : ExportKept p (.call c)) (h : k.call p.ctx p.state c = .ok s') : s'.Exportable := by
  obtain ⟨hpayee, hg⟩ := hg
  have hwallets : ∀ addr w, s'.walletBalance.get addr = some w → w.index = addr := by
    intro addr w hw
    have hi : s'.indexOf addr = some w.index := by rw [State.indexOf, hw, Option.map_some]
    rw [of_call_indexOf h] at hi
    split_ifs at hi with hx
    · cases hold : p.state.indexOf addr with
      | none =>
        rw [hold] at hi
        rcases hpayee addr hx with rfl | hexists
        · exact (Option.some.inj hi).symm
        · exact absurd hold hexists
      | some i =>
        rw [hold] at hi
        exact Option.some.inj hi ▸ he.indexOf hold
    · exact he.indexOf hi
  have hallowances := of_call_allowances h
  have hallowance : c.allowances p.state = p.state.allowances →
      ∀ owner spender, Keeper.getAllowance owner spender s' = 0 := fun hsame owner spender =>
    (getAllowance_congr (hallowances.trans hsame)).trans (he.allowance owner spender)
  have hc := of_call h
  cases hc with
  | framed plain hf =>
    refine ⟨hwallets, ?_, ?_, ?allowance, ?_, ?_, ?_⟩
    case allowance =>
      intro owner spender
      cases c with
      | approve owner' spender' amount =>
        rw [Keeper.getAllowance, hallowances, Call.allowances, KVStore.get_set]
        split_ifs
        · exact hg
        · exact he.allowance owner spender
      | transferFrom owner' spender' =>
        exact absurd (he.allowance owner' spender') (of_transferFrom_allowance h)
      | _ => exact hallowance rfl owner spender
    · rw [(congrArg State.stakingRecords hf).trans rfl]
      exact he.stakes
    · rw [(congrArg State.kesBalance hf).trans rfl]
      exact he.kes
    · have hm : s'.market = p.state.market := (congrArg State.market hf).trans rfl
      exact hm.trans he.market
    · rw [(congrArg State.emissionState hf).trans rfl]
      exact he.emission
    · rw [(congrArg State.emissionMonthAnchor hf).trans rfl]
      exact he.anchor
  | bought hb =>
    have hpayer := hb.payer
    rw [he.kes] at hpayer
    cases hpayer
  | sold => exact hg.elim
  | staked => exact hg.elim
  | unstaked hu =>
    have hinactive := he.stakes _ _ hu.record
    rw [hu.active] at hinactive
    cases hinactive
  | minted hm =>
    refine ⟨hwallets, ?_, ?_, hallowance rfl, ?_, ?_, ?_⟩
    · rw [(congrArg State.stakingRecords hm.state).trans rfl]
      exact he.stakes
    · rw [(congrArg State.kesBalance hm.state).trans rfl]
      exact he.kes
    · have hmarket : s'.market = p.state.market := (congrArg State.market hm.state).trans rfl
      exact hmarket.trans he.market
    · rw [(congrArg State.emissionState hm.state).trans rfl]
      exact Option.some_ne_none _
    · rw [(congrArg State.emissionMonthAnchor hm.state).trans rfl]
      exact he.anchor

theorem State.Exportable.act_kept {p p' : Chain} {a : Action} (he : p.state.Exportable)
    (hg : ExportKept p a) (h : k.act p a = .ok p') : p'.state.Exportable := by
  cases a with
  | call c =>
    simp only [Keeper.act, Result.bind_eq_ok, Result.pure_eq_ok] at h
    obtain ⟨s', h, rfl⟩ := h
    exact he.call_kept hg h
  | endBlock ctx =>
    simp only [Keeper.act, Result.bind_eq_ok, Result.pure_eq_ok] at h
    obtain ⟨s', h, rfl⟩ := h
    obtain ⟨hmarket, htick⟩ := hg
    have hend := of_endBlocker h
    refine ⟨?wallets, ?stakes, ?kes, ?allowance, ?market, ?emission, ?anchor⟩
    case wallets =>
      have hw : s'.walletBalance = p.state.walletBalance :=
        (congrArg State.walletBalance hend.state).trans rfl
      dsimp only
      rw [hw]
      exact he.wallets
    case stakes =>
      intro id info hi
      have hr := hend.records id
      rw [show s'.stakingRecords.get id = some info from hi, Option.map_some, eq_comm,
        Option.map_eq_some_iff] at hr
      obtain ⟨info', hi', hp⟩ := hr
      rw [← (principal_eq hp).2.2.2]
      exact he.stakes id info' hi'
    case kes =>
      have hk : s'.kesBalance = p.state.kesBalance :=
        (congrArg State.kesBalance hend.state).trans rfl
      dsimp only
      rw [hk]
      exact he.kes
    case allowance =>
      exact fun owner spender => (getAllowance_congr
        ((congrArg State.allowances hend.state).trans rfl)).trans (he.allowance owner spender)
    case market =>
      have hm : s'.market = (Keeper.dynamicPricingTick p.ctx p.state).market := by
        rw [State.market, hend.market, State.market]
      exact (hm.trans hmarket).trans he.market
    case emission =>
      rcases hend.schedule with ⟨hs, _⟩ | ⟨e, hs⟩
      · dsimp only
        rw [hs]
        exact he.emission
      · dsimp only
        rw [hs.scheduled]
        exact Option.some_ne_none _
    case anchor => exact (of_endBlocker_anchor h htick).trans he.anchor
  | rest bank =>
    cases h
    exact ⟨he.wallets, he.stakes, he.kes, he.allowance, he.market, he.emission, he.anchor⟩

-- A state survives an export and an import exactly if a genesis can hold it.
theorem genesis_round_trip (k : Keeper) (p : Chain) :
    ((chain k k.ValidGenesis).Reachable p → (RoundTrips k p.state ↔ p.state.Exportable)) ∧
    ((chain k fun p => k.ValidGenesis p ∧ p.state.Exportable).Run ExportKept p →
      RoundTrips k p.state) := by
  constructor
  · intro h
    have hinv : (chain k k.ValidGenesis).Invariant (fun _ _ => True) fun p => Exported k p.state := {
      init := fun hi => hi.exported
      step := fun he _ hs => he.act hs.2
    }
    have he := hinv.holds h
    exact ⟨he.exportable, he.roundTrips⟩
  · intro h
    have hinv : (chain k fun p => k.ValidGenesis p ∧ p.state.Exportable).Invariant ExportKept
        fun p => Exported k p.state ∧ p.state.Exportable := {
      init := fun hi => ⟨hi.1.exported, hi.2⟩
      step := fun he hg hs => ⟨he.1.act hs.2, he.2.act_kept hg hs.2⟩
    }
    have he := hinv.holds h
    exact he.1.roundTrips he.2

namespace Sample

def genesis : GenesisState where
  walletBalanceMap := [{ index := "owner", address := "owner", balance := 2000000 }]
  emissionState    := some { totalSupply := 670000000, circulating := 1000000, dailyLimit := 100000 }

def genesisBlock : Chain where
  ctx   := block
  state := initGenesis genesis .empty

theorem genesisBlock_valid : keeper.ValidGenesis genesisBlock :=
  ⟨genesis, by decide +kernel, ⟨_, rfl⟩, by decide⟩

theorem genesisBlock_exportable : genesisBlock.state.Exportable where
  wallets addr w hw := by
    rcases (KVStore.get_foldl_set (by decide)).mp hw with ⟨_, hi⟩ | ⟨_, hnone⟩
    · exact hi
    · cases hnone
  stakes id info hi := by cases hi
  kes addr := rfl
  allowance owner spender := rfl
  market := rfl
  emission := by decide +kernel
  anchor := rfl

end Sample

-- A wallet that a transfer created is exported without an index, and is lost on import.
theorem new_wallet_lost : ¬∀ p, (chain Sample.keeper Sample.keeper.ValidGenesis).Reachable p →
    RoundTrips Sample.keeper p.state := by
  intro h
  have hinit : (chain Sample.keeper Sample.keeper.ValidGenesis).Reachable Sample.genesisBlock :=
    .init Sample.genesisBlock_valid
  have ha : Allowed Sample.genesisBlock (.call (.transfer "owner" "friend" 500)) := trivial
  have h₁ := Sample.run_step hinit trivial ha (by decide +kernel)
  obtain ⟨genState, hg, _, hr⟩ := h _ h₁
  have hw := (hr .empty).wallets "friend"
  have he : exportGenesis (Sample.keeper.next Sample.genesisBlock
      (.call (.transfer "owner" "friend" 500))).state = .ok _ := exportGenesis_eq rfl
  cases he.symm.trans hg
  revert hw
  decide +kernel

theorem sample_genesis_round_trip :
    RoundTrips Sample.keeper
      (Sample.keeper.next Sample.genesisBlock (.call (.mintToWallet "owner" 500))).state := by
  have hinit : (chain Sample.keeper fun p => Sample.keeper.ValidGenesis p ∧
      p.state.Exportable).Run ExportKept Sample.genesisBlock :=
    .init ⟨Sample.genesisBlock_valid, Sample.genesisBlock_exportable⟩
  have hg : ExportKept Sample.genesisBlock (.call (.mintToWallet "owner" 500)) := by
    refine ⟨fun addr ha => .inr ?_, trivial⟩
    cases ha
    decide +kernel
  have ha : Allowed Sample.genesisBlock (.call (.mintToWallet "owner" 500)) := trivial
  exact (genesis_round_trip Sample.keeper _).2 (Sample.run_step hinit hg ha (by decide +kernel))

end Mlcoin
