import MallChain.Mlcoin.System

namespace Mlcoin

open Sdk State

namespace State

-- What all wallets hold, vested or not.
def walletTotal (s : State) : ℤ :=
  s.walletBalance.sum fun _ w => worth (some w)

def stakeOf (r : StakingInfo) : ℤ :=
  if r.isActive then r.stakedAmount.toNat else 0

def activeStake (s : State) : ℤ :=
  s.stakingRecords.sum fun _ r => stakeOf r

def held (s : State) : ℤ :=
  s.walletTotal + s.activeStake

def circulating (s : State) : ℤ :=
  s.emissionState.elim 0 fun e => e.circulating.toNat

def Bounded (s : State) : Prop :=
  ∀ e, s.emissionState = some e → e.circulating.toNat ≤ e.totalSupply.toNat

end State

variable {ctx : Context} {s s' : State} {addr : String} {w : WalletBalance} {amount : UInt64}

theorem walletTotal_credit (h : (s.wallet addr).balance.toNat + amount.toNat < 2 ^ 64) :
    (s.setWallet addr { s.wallet addr with
      balance := (s.wallet addr).balance + amount }).walletTotal = s.walletTotal + amount.toNat := by
  have hv : (s.setWallet addr { s.wallet addr with
      balance := (s.wallet addr).balance + amount }).value =
      s.value + amount.toNat - dropped (s.wallet addr).balance amount := value_credit
  have hd : dropped (s.wallet addr).balance amount = 0 := dropped_eq_zero_iff.mpr h
  simp only [value, transactionFees, setWallet] at hv
  simp only [walletTotal, setWallet]
  omega

theorem walletTotal_debit (hw : s.walletBalance.get addr = some w)
    (hle : amount.toNat ≤ w.balance.toNat) :
    (s.setWallet addr { w with balance := w.balance - amount }).walletTotal =
      s.walletTotal - amount.toNat := by
  have hv := value_debit hw hle
  simp only [value, transactionFees, setWallet] at hv
  simp only [walletTotal, setWallet]
  omega

-- What a mint adds to the supply, if it does not burn more than it mints.
theorem minted_circulating {e : EmissionState} (hb : (e.burnAmount amount).toNat ≤ amount.toNat)
    (h : e.circulating.toNat + amount.toNat ≤ e.totalSupply.toNat) :
    (e.minted amount).circulating.toNat = e.circulating.toNat + (e.netAmount amount).toNat ∧
      (e.netAmount amount).toNat ≤ amount.toNat := by
  have ht := e.totalSupply.toNat_lt
  have hn := toNat_sub hb
  have ha := toNat_add (a := e.circulating) (b := amount)
  rw [dropped_eq_zero_iff.mpr (by omega)] at ha
  have hc : (e.burnAmount amount).toNat ≤ (e.circulating + amount).toNat := by omega
  have hm := toNat_sub hc
  simp only [EmissionState.minted, EmissionState.netAmount]
  omega

-- The steps that keep the accounts: a sell must have its coins to take out of circulation, and a
-- mint must not burn more than it mints.

def BurnFits (s : State) (amount : UInt64) : Prop :=
  ∀ e, s.emissionState = some e → (e.burnAmount amount).toNat ≤ amount.toNat

def SellFits (s : State) (mlcn : UInt64) : Prop :=
  ∃ e, s.emissionState = some e ∧ mlcn.toNat ≤ e.circulating.toNat

def Accounted (p : Chain) : Action → Prop
  | .call (.buyMallcoin _ mlcn) => BurnFits p.state mlcn
  | .call (.sellMallcoin _ mlcn) => SellFits p.state mlcn
  | .call (.mintToWallet _ amount) => BurnFits p.state amount
  | .call (.unstake _ id) => ∀ info, p.state.stakingRecords.get id = some info →
    BurnFits p.state (p.state.rewardOf p.ctx info)
  | _ => True

-- A chain that starts with no more coins in circulation than there can be.
def Started (p : Chain) : Prop :=
  (∃ genState, p.Genesis genState) ∧ p.state.Bounded

-- A mint puts into circulation what it puts into the wallet.
theorem balanced_of_mint {e : EmissionState} (he : s.emissionState = some e)
    (hsupply : e.circulating.toNat + amount.toNat ≤ e.totalSupply.toNat)
    (hbalance : (s.wallet addr).balance.toNat + (e.netAmount amount).toNat < 2 ^ 64)
    (hburn : (e.burnAmount amount).toNat ≤ amount.toNat)
    (hw : s'.walletBalance = s.walletBalance.set addr
      { s.wallet addr with balance := (s.wallet addr).balance + e.netAmount amount })
    (he' : s'.emissionState = some (e.minted amount))
    (hr : s'.stakingRecords = s.stakingRecords) :
    s'.circulating - s.circulating = s'.held - s.held ∧ s'.Bounded := by
  obtain ⟨hcirc, hnet⟩ := minted_circulating hburn hsupply
  have ht : s'.walletTotal = s.walletTotal + (e.netAmount amount).toNat := by
    rw [← walletTotal_credit hbalance, walletTotal, hw]
    rfl
  refine ⟨?_, fun e₁ he₁ => ?_⟩
  · simp only [circulating, he, he', Option.elim, held, ht, activeStake, hr, hcirc]
    omega
  · cases he'.symm.trans he₁
    have hs : (e.minted amount).totalSupply = e.totalSupply := rfl
    rw [hcirc, hs]
    omega

theorem Minted.balanced {e : EmissionState} (h : Minted addr amount e s s')
    (hburn : (e.burnAmount amount).toNat ≤ amount.toNat) :
    s'.circulating - s.circulating = s'.held - s.held ∧ s'.Bounded :=
  balanced_of_mint h.emission h.supply h.balance hburn ((congrArg State.walletBalance h.state).trans rfl)
    ((congrArg State.emissionState h.state).trans rfl)
    ((congrArg State.stakingRecords h.state).trans rfl)

theorem Bought.balanced {e : EmissionState} {kesBal : KesBalance} {current : UInt64} {r : TradeResponse}
    (h : Bought ctx addr amount e kesBal current r s s')
    (hburn : (e.burnAmount amount).toNat ≤ amount.toNat) :
    s'.circulating - s.circulating = s'.held - s.held ∧ s'.Bounded :=
  balanced_of_mint h.emission h.supply h.balance hburn ((congrArg State.walletBalance h.state).trans rfl)
    ((congrArg State.emissionState h.state).trans rfl)
    ((congrArg State.stakingRecords h.state).trans rfl)

theorem reduced_circulating {e : EmissionState} (h : amount.toNat ≤ e.circulating.toNat) :
    ((e.reduced amount).circulating.toNat : ℤ) = e.circulating.toNat - amount.toNat := by
  rw [EmissionState.reduced, if_pos (UInt64.le_iff_toNat_le.mpr h)]
  exact toNat_sub h

-- The principal moves from the stake to the wallet.
theorem Unstaked.held {id : String} {info : StakingInfo} {rewards : UInt64} {s₁ : State}
    (h : Unstaked ctx addr id info rewards s s₁ s') (hr : s₁.stakingRecords = s.stakingRecords) :
    s'.held - s.held = s₁.held - (s.returned addr info.stakedAmount).held := by
  have hc := walletTotal_credit h.balance
  have hw : s'.walletTotal = s₁.walletTotal := (congrArg walletTotal h.state).trans rfl
  have ht : s'.activeStake = s.activeStake - info.stakedAmount.toNat := by
    have hs : s'.stakingRecords = _ := congrArg stakingRecords h.state
    rw [activeStake, hs, KVStore.sum_set_old h.record]
    simp [activeStake, stakeOf, h.active]
  have ht₁ : s₁.activeStake = s.activeStake := by rw [activeStake, hr, activeStake]
  simp only [State.held, hw, ht, ht₁]
  rw [returned, hc, activeStake, activeStake]
  simp only [setWallet]
  ring

theorem Called.balanced {c : Call} (h : Called ctx s s' c) (hf : s.FreshStakes)
    (hg : Accounted ⟨ctx, s⟩ (.call c)) (hc : ¬c.Plain) :
    s'.circulating - s.circulating = s'.held - s.held := by
  cases h with
  | framed plain h => exact absurd plain hc
  | @bought _ _ e _ _ _ h =>
    exact (h.balanced (hg e h.emission)).1
  | @sold _ mlcn w r h =>
    obtain ⟨e, he, hle⟩ : SellFits s mlcn := hg
    have hw : s'.walletTotal = _ :=
      ((congrArg walletTotal h.state).trans rfl).trans (walletTotal_debit h.wallet h.balance)
    have hr : s'.activeStake = s.activeStake := (congrArg activeStake h.state).trans rfl
    have he' : s'.emissionState = s.emissionState.map _ := congrArg emissionState h.state
    have hred := reduced_circulating hle
    simp only [held, hw, hr, circulating, he', he, Option.map_some, Option.elim, hred]
    ring
  | @staked _ id _ w h =>
    have hw : s'.walletTotal = _ :=
      ((congrArg walletTotal h.state).trans rfl).trans (walletTotal_debit h.wallet h.balance)
    have hc : s'.circulating = s.circulating := (congrArg circulating h.state).trans rfl
    have hr : s'.activeStake = s.activeStake + _ :=
      ((congrArg activeStake h.state).trans rfl).trans
        (KVStore.sum_set_new (h.key ▸ hf _ _ (le_refl _)))
    simp only [held, hw, hr, hc, stakeOf, if_true]
    ring
  | @unstaked _ id info rewards s₁ h =>
    have hc : s'.circulating = s₁.circulating := (congrArg circulating h.state).trans rfl
    rcases h.reward with ⟨hs, _⟩ | ⟨hrewards, e, hm⟩
    · rw [h.held (by rw [hs]; rfl), hc, hs]
      simp only [circulating, returned, setWallet, sub_self]
    · have hr := (congrArg State.stakingRecords hm.state).trans rfl
      have he : s.emissionState = some e := hm.emission
      rw [h.held hr, hc, hrewards] at *
      refine Eq.trans ?_ (hm.balanced (hrewards ▸ hg info h.record e he)).1
      rfl
  | @minted _ _ e h =>
    exact (h.balanced (hg e h.emission)).1

theorem bounded_congr (h : s'.emissionState = s.emissionState) (hb : s.Bounded) : s'.Bounded :=
  fun e he => hb e (h ▸ he)

theorem bounded_of_reduced (h : s'.emissionState = s.emissionState.map (·.reduced amount))
    (hb : s.Bounded) : s'.Bounded := by
  intro e he
  obtain ⟨e₀, he₀, rfl⟩ := Option.map_eq_some_iff.mp (h.symm.trans he)
  have hle := hb e₀ he₀
  rw [EmissionState.reduced]
  split_ifs with hm
  · rw [UInt64.toNat_sub_of_le _ _ hm]
    exact (Nat.sub_le _ _).trans hle
  · exact hle

theorem Called.bounded {c : Call} (h : Called ctx s s' c) (hb : s.Bounded)
    (hg : Accounted ⟨ctx, s⟩ (.call c)) : s'.Bounded := by
  cases h with
  | framed plain h => exact bounded_congr ((congrArg State.emissionState h).trans rfl) hb
  | @bought _ _ e _ _ _ h =>
    exact (h.balanced (hg e h.emission)).2
  | sold h => exact bounded_of_reduced ((congrArg State.emissionState h.state).trans rfl) hb
  | staked h => exact bounded_congr ((congrArg State.emissionState h.state).trans rfl) hb
  | @unstaked _ id info rewards s₁ h =>
    refine bounded_congr ((congrArg State.emissionState h.state).trans rfl) ?_
    rcases h.reward with ⟨hs, _⟩ | ⟨hrewards, e, hm⟩
    · exact bounded_congr ((congrArg State.emissionState hs).trans rfl) hb
    · have he : s.emissionState = some e := hm.emission
      exact (hm.balanced (hrewards ▸ hg info h.record e he)).2
  | @minted _ _ e h =>
    exact (h.balanced (hg e h.emission)).2

theorem Stepped.bounded {p p' : Chain} {a : Action} (h : Stepped p p' a) (hb : p.state.Bounded)
    (hg : Accounted p a) : p'.state.Bounded := by
  cases h with
  | called h => exact h.bounded hb hg
  | ended h =>
    rcases h.schedule with ⟨he, _⟩ | ⟨e, hs⟩
    · exact bounded_congr he hb
    · intro e' he'
      cases hs.scheduled.symm.trans he'
      have hle := hb e hs.emission
      simp only [EmissionState.scheduled]
      split_ifs <;> exact hle
  | rest h =>
    subst h
    exact hb

-- Trades, stakes and mints move as much into circulation as into the wallets and the stakes.
theorem supply_accounted (k : Keeper) (p : Chain) (h : (chain k Started).Run Accounted p) :
    p.state.Bounded ∧ ∀ c p', ¬c.Plain → Accounted p (.call c) →
      (chain k Started).step p (.call c) p' →
      p'.state.circulating - p.state.circulating = p'.state.held - p.state.held := by
  have hfresh : (chain k Started).Invariant Accounted fun p => p.state.FreshStakes := {
    init := fun hi => hi.1.elim fun _ hg => hg.freshStakes
    step := fun hf _ hs => (of_act hs.2).freshStakes hf
  }
  have hbounded : (chain k Started).Invariant Accounted fun p => p.state.Bounded := {
    init := fun hi => hi.2
    step := fun hb hg hs => (of_act hs.2).bounded hb hg
  }
  refine ⟨hbounded.holds h, fun c p' hc hg hs => ?_⟩
  cases of_act hs.2 with
  | called hcalled => exact hcalled.balanced (hfresh.holds h) hg hc

namespace Sample

-- More coins in the wallets than in circulation, as after the genesis of the chain.
def supply : Chain where
  ctx   := block
  state := initGenesis {
    walletBalanceMap := [{ index := "seller", address := "seller", balance := 2000000 }]
    emissionState    := some { totalSupply := 670000000, circulating := 1000000, dailyLimit := 100000 }
  } .empty

theorem supply_started : Started supply := by
  refine ⟨⟨_, ⟨_, rfl⟩, by decide⟩, fun e he => ?_⟩
  cases he
  decide

end Sample

-- The sell takes 1500000 MLCN from the wallet and leaves the circulating supply alone.
theorem sell_not_accounted : ¬∀ p, (chain Sample.keeper Started).Reachable p →
    p.state.Bounded ∧ ∀ c p', ¬c.Plain → (chain Sample.keeper Started).step p (.call c) p' →
      p'.state.circulating - p.state.circulating = p'.state.held - p.state.held := by
  intro h
  have he := (h Sample.supply (.init Sample.supply_started)).2 (.sellMallcoin "seller" 1500000) _ id
    ⟨trivial, Keeper.act_next (by decide +kernel)⟩
  revert he
  decide +kernel

theorem sample_supply_accounted :
    let p := Sample.supply
    let p' := Sample.keeper.next p (.call (.sellMallcoin "seller" 500000))
    p'.state.circulating - p.state.circulating = p'.state.held - p.state.held :=
  (supply_accounted Sample.keeper Sample.supply (.init Sample.supply_started)).2
    (.sellMallcoin "seller" 500000) _ id ⟨_, rfl, by decide⟩
    ⟨trivial, Keeper.act_next (by decide +kernel)⟩

end Mlcoin
