import MallChain.Mlcoin.Supply

namespace Mlcoin

open Sdk State

-- All fees that are recorded and not distributed yet.
def State.feeCounters (s : State) : ℕ :=
  s.fees.transactionFees.toNat + s.fees.tradingFees.toNat + s.fees.conversionFees.toNat

-- The fee that a transfer takes from its sender. Nothing else takes a fee.
def Action.deducted : Action → ℕ
  | .call (.transferMallcoin _ _ amount) => feeOf amount
  | _ => 0

-- What a distribution adds to the supply of the bank.
def distributed (p : Chain) (a : Action) (p' : Chain) : ℤ :=
  match a with
  | .endBlock _ => p'.state.bank.supply "mlcoin" - p.state.bank.supply "mlcoin"
  | _ => 0

structure FeeEvent where
  deducted    : ℤ
  distributed : ℤ

def feeEvent (p : Chain) (a : Action) (p' : Chain) : FeeEvent :=
  ⟨a.deducted, distributed p a p'⟩

def totalDeducted (history : List FeeEvent) : ℤ :=
  (history.map (·.deducted)).sum

def totalDistributed (history : List FeeEvent) : ℤ :=
  (history.map (·.distributed)).sum

-- A trade that is too small for a fee.
def Feeless : Action → Prop
  | .call (.buyMallcoin _ mlcn) => mlcn / 100 = 0
  | .call (.sellMallcoin _ mlcn) => mlcn / 100 = 0
  | _ => True

variable {k : Keeper} {ctx : Context} {s s' : State} {amount : UInt64}

theorem feeCounters_congr (h : s'.feesAccumulated = s.feesAccumulated) :
    s'.feeCounters = s.feeCounters := by
  rw [feeCounters, fees, h, feeCounters, fees]

theorem total_le_feeCounters : s.fees.total.toNat ≤ s.feeCounters := by
  rw [FeesAccumulated.total, UInt64.toNat_add, UInt64.toNat_add, feeCounters]
  omega

theorem feeCounters_accumulateFees {txType : String} (h : amount / 100 = 0) :
    (Keeper.accumulateFees txType amount s).feeCounters = s.feeCounters := by
  simp only [Keeper.accumulateFees, h, UInt64.add_zero, ite_self]
  rfl

-- A transfer with a fee records what it takes from the sender.
theorem of_transferMallcoin_fees {creator toAddr txId : String}
    (h : k.transferMallcoin ctx creator toAddr amount s = .ok (s', txId)) :
    s'.feesAccumulated = some { s.fees with
      transactionFees := s.fees.transactionFees + UInt64.ofNat (feeOf amount) } := by
  simp only [Keeper.transferMallcoin, Result.bind_eq_ok, orFail_eq_ok, Result.pure_eq_ok,
    Prod.mk.injEq] at h
  obtain ⟨_, _, _, _, w, _, h⟩ := h
  have hr := releaseVested_eq ctx creator w s
  generalize Keeper.releaseVested ctx creator w s = r at h hr
  obtain ⟨_, _, fee, hfee, _, _, _, _, _, _, _, _, _, _, feeU, hfeeU, hs, _⟩ := h
  have hfeeU := of_toUint64 hfeeU
  have hfee := of_transferFee hfee
  have hn : feeU.toNat = feeOf amount := by omega
  have hfees : r.1.feesAccumulated = s.feesAccumulated :=
    (congrArg State.feesAccumulated hr).trans rfl
  subst hs
  rw [← hn, UInt64.ofNat_toNat, fees, ← hfees]
  rfl

theorem feeCounters_transferMallcoin {creator toAddr txId : String}
    (h : k.transferMallcoin ctx creator toAddr amount s = .ok (s', txId)) :
    s'.feeCounters ≤ s.feeCounters + feeOf amount := by
  have hf : s'.fees = { s.fees with
      transactionFees := s.fees.transactionFees + UInt64.ofNat (feeOf amount) } := by
    rw [fees, of_transferMallcoin_fees h, Option.getD_some]
  have hlt : feeOf amount < 2 ^ 64 := feeOf_lt
  rw [feeCounters, hf, feeCounters]
  simp only [UInt64.toNat_add, UInt64.toNat_ofNat_of_lt' hlt]
  omega

theorem walletTotal_transferMallcoin {creator toAddr txId : String}
    (h : k.transferMallcoin ctx creator toAddr amount s = .ok (s', txId)) :
    s'.walletTotal + feeOf amount ≤ s.walletTotal := by
  obtain ⟨w, _, hv⟩ := of_transferMallcoin h
  have hr : 0 ≤ releaseDropped ctx w := releaseDropped_nonneg
  have hf : s'.transactionFees = s.transactionFees + UInt64.ofNat (feeOf amount) :=
    (congrArg (fun f => (Option.getD f {}).transactionFees) (of_transferMallcoin_fees h)).trans rfl
  have ha := toNat_add (a := s.transactionFees) (b := UInt64.ofNat (feeOf amount))
  rw [← hf, UInt64.toNat_ofNat_of_lt' feeOf_lt] at ha
  simp only [value, feeDropped] at hv
  simp only [walletTotal]
  omega

-- What a call records as fees is deducted from a wallet.
structure Backed (s s' : State) (deducted : ℕ) : Prop where
  recorded : s'.feeCounters ≤ s.feeCounters + deducted
  removed  : 0 < deducted → s'.walletTotal + deducted ≤ s.walletTotal

theorem backed_of_congr (h : s'.feesAccumulated = s.feesAccumulated) : Backed s s' 0 where
  recorded  := (feeCounters_congr h).le
  removed h := absurd h (lt_irrefl 0)

theorem backed_of_trade {txType : String} (h : amount / 100 = 0)
    (hf : s'.feesAccumulated = (Keeper.accumulateFees txType amount s).feesAccumulated) :
    Backed s s' 0 where
  recorded  := ((feeCounters_congr hf).trans (feeCounters_accumulateFees h)).le
  removed h := absurd h (lt_irrefl 0)

theorem of_call_backed {c : Call} (h : k.call ctx s c = .ok s') (hg : Feeless (.call c)) :
    Backed s s' (Action.call c).deducted := by
  have hc := of_call h
  cases c with
  | transferMallcoin =>
    simp only [Keeper.call, Result.bind_eq_ok, Result.pure_eq_ok, Prod.exists] at h
    obtain ⟨_, _, h, rfl⟩ := h
    exact ⟨feeCounters_transferMallcoin h, fun _ => walletTotal_transferMallcoin h⟩
  | transfer =>
    exact backed_of_congr ((congrArg State.feesAccumulated (of_transfer_moved h)).trans rfl)
  | approve =>
    exact backed_of_congr ((congrArg State.feesAccumulated (of_approve_administered h)).trans rfl)
  | transferFrom =>
    exact backed_of_congr ((congrArg State.feesAccumulated (of_transferFrom_moved h)).trans rfl)
  | buyMallcoin =>
    cases hc with
    | framed plain => exact plain.elim
    | bought h => exact backed_of_trade hg ((congrArg State.feesAccumulated h.state).trans rfl)
  | sellMallcoin =>
    cases hc with
    | framed plain => exact plain.elim
    | sold h => exact backed_of_trade hg ((congrArg State.feesAccumulated h.state).trans rfl)
  | stake =>
    cases hc with
    | framed plain => exact plain.elim
    | staked h => exact backed_of_congr ((congrArg State.feesAccumulated h.state).trans rfl)
  | unstake =>
    cases hc with
    | framed plain => exact plain.elim
    | unstaked h => exact backed_of_congr ((congrArg State.feesAccumulated h.framed).trans rfl)
  | mintToWallet =>
    cases hc with
    | framed plain => exact plain.elim
    | minted h => exact backed_of_congr ((congrArg State.feesAccumulated h.state).trans rfl)
  | mintMallcoin =>
    simp only [Keeper.call, Result.bind_eq_ok, Result.pure_eq_ok, Prod.exists] at h
    obtain ⟨_, _, h, rfl⟩ := h
    exact backed_of_congr ((congrArg State.feesAccumulated (of_mintMallcoin_administered h)).trans rfl)
  | updateParams =>
    exact backed_of_congr ((congrArg State.feesAccumulated (of_updateParams_administered h)).trans rfl)

-- A distribution mints no more than the fees that it resets.
theorem Ended.distributed_le {p : Chain} (h : Ended p.ctx p.state s') :
    s'.bank.supply "mlcoin" - p.state.bank.supply "mlcoin" + (s'.feeCounters : ℤ) ≤
      p.state.feeCounters := by
  have ht := total_le_feeCounters (s := p.state)
  rcases h.fees with ⟨hs, hf⟩ | ⟨hs, hf⟩
  · rw [feeCounters_congr hf]
    omega
  · have hz : s'.feeCounters = 0 := by
      rw [feeCounters, State.fees, hf]
      rfl
    omega

theorem step_backed {p p' : Chain} {a : Action} (h : k.act p a = .ok p') (hg : Feeless a) :
    (feeEvent p a p').distributed + p'.state.feeCounters ≤
      p.state.feeCounters + (feeEvent p a p').deducted := by
  cases a with
  | call c =>
    simp only [Keeper.act, Result.bind_eq_ok, Result.pure_eq_ok] at h
    obtain ⟨s', h, rfl⟩ := h
    have hb := (of_call_backed h hg).recorded
    simp only [feeEvent, distributed]
    omega
  | endBlock ctx =>
    simp only [Keeper.act, Result.bind_eq_ok, Result.pure_eq_ok] at h
    obtain ⟨s', h, rfl⟩ := h
    have hd := (of_endBlocker h).distributed_le
    simp only [feeEvent, distributed, Action.deducted]
    omega
  | rest bank =>
    cases h
    have hf : State.feeCounters { p.state with bank } = p.state.feeCounters := feeCounters_congr rfl
    simp only [feeEvent, distributed, Action.deducted, hf]
    omega

-- The fees are minted from what was deducted, as long as no trade records a fee.
theorem fees_backed (k : Keeper) (p₀ : Chain) (q : Chain × List FeeEvent)
    (h : ((chain k (· = p₀)).traced feeEvent).Run (fun _ => Feeless) q) :
    totalDistributed q.2 ≤ p₀.state.feeCounters + totalDeducted q.2 ∧
    ∀ c p', Feeless (.call c) → (chain k (· = p₀)).step q.1 (.call c) p' →
      Backed q.1.state p'.state (Action.call c).deducted := by
  have hinv : ((chain k (· = p₀)).traced feeEvent).Invariant (fun _ => Feeless) fun q =>
      totalDistributed q.2 + q.1.state.feeCounters ≤
        p₀.state.feeCounters + totalDeducted q.2 := by
    refine TransitionSystem.traced_invariant (fun hi => ?_) fun hp hg hs => ?_
    · rw [hi]
      simp [totalDistributed, totalDeducted]
    · have hb := step_backed hs.2 hg
      simp only [totalDistributed, totalDeducted, List.map_cons, List.sum_cons] at hp ⊢
      omega
  have hq := hinv.holds h
  refine ⟨by omega, fun c p' hg hs => ?_⟩
  obtain ⟨_, hs⟩ := hs
  simp only [Keeper.act, Result.bind_eq_ok, Result.pure_eq_ok] at hs
  obtain ⟨s', hs, rfl⟩ := hs
  exact of_call_backed hs hg

namespace Sample

def feesGenesis : GenesisState where
  walletBalanceMap := [{ index := "owner", address := "owner", balance := 2000000 }]
  kesBalanceMap    := [{ address := "trader", balance := 1000000 }]
  emissionState    := some { totalSupply := 670000000, circulating := 1000000, dailyLimit := 100000 }

-- The fees are distributed at the end of this block.
def feesBlock : Chain where
  ctx   := { blockTime := 1000, blockHeight := 12000 }
  state := initGenesis feesGenesis .empty

def feesHistory (a : Action) : Chain × List FeeEvent :=
  let p₁ := keeper.next feesBlock a
  let p₂ := keeper.next p₁ (.endBlock feesBlock.ctx)
  (p₂, [feeEvent p₁ (.endBlock feesBlock.ctx) p₂, feeEvent feesBlock a p₁])

end Sample

-- A buy of 10000 MLCN records a fee of 100 that nobody pays.
theorem buy_fee_not_backed : ¬∀ genState p₀ q, p₀.Genesis genState → p₀.state.feeCounters = 0 →
    ((chain Sample.keeper (· = p₀)).traced feeEvent).Reachable q →
    totalDistributed q.2 ≤ totalDeducted q.2 := by
  intro h
  have h₀ : ((chain Sample.keeper (· = Sample.feesBlock)).traced feeEvent).Reachable
      (Sample.feesBlock, []) := .traced_init rfl
  have h₁ := Sample.traced_step h₀ (.call (.buyMallcoin "trader" 10000)) trivial trivial
    (by decide +kernel)
  have h₂ := Sample.traced_step h₁ (.endBlock Sample.feesBlock.ctx) trivial (by decide +kernel)
    (by decide +kernel)
  have hle := h Sample.feesGenesis _ _ ⟨⟨_, rfl⟩, by decide⟩ (by decide +kernel) h₂
  revert hle
  decide +kernel

theorem sample_fees_backed :
    let q := Sample.feesHistory (.call (.transferMallcoin "owner" "friend" 1000000))
    totalDistributed q.2 = 9 ∧
      totalDistributed q.2 ≤ Sample.feesBlock.state.feeCounters + totalDeducted q.2 := by
  have h₀ : ((chain Sample.keeper (· = Sample.feesBlock)).traced feeEvent).Run (fun _ => Feeless)
      (Sample.feesBlock, []) := .traced_init rfl
  have h₁ := Sample.traced_step h₀ (.call (.transferMallcoin "owner" "friend" 1000000)) trivial
    trivial (by decide +kernel)
  have h₂ := Sample.traced_step h₁ (.endBlock Sample.feesBlock.ctx) trivial (by decide +kernel)
    (by decide +kernel)
  exact ⟨by decide +kernel, (fees_backed Sample.keeper Sample.feesBlock _ h₂).1⟩

end Mlcoin
