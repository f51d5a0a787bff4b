import MallChain.Governance.Deposits

namespace Governance

open Sdk

variable {μ σ : Type} {k : Keeper μ σ} {ctx : Context} {s s₁ s₂ s' : State σ} {c : Call σ}
variable {proposal proposal' : Proposal} {id id' : UInt64} {depositor denom : String}
variable {amount minDeposit : Coins} {e : Event}

-- The amounts that were refunded to a depositor of a proposal, and those that were burned for it.
def Event.refundOf (id : UInt64) (depositor : String) : Event → Option Coins
  | .depositRefunded id' depositor' amount =>
    if id' = id ∧ depositor' = depositor then some amount else none
  | _ => none

def Event.burnOf (id : UInt64) : Event → Option Coins
  | .depositBurned id' amount => if id' = id then some amount else none
  | _ => none

def State.refundsOf (s : State σ) (id : UInt64) (depositor : String) : List Coins :=
  s.events.filterMap (Event.refundOf id depositor)

def State.burnsOf (s : State σ) (id : UInt64) : List Coins :=
  s.events.filterMap (Event.burnOf id)

-- Every deposit of the proposal was refunded once and in full, and nothing was burned.
structure State.Refunded (s : State σ) (id : UInt64) : Prop where
  refunds : ∀ depositor, s.refundsOf id depositor =
    ((s.deposits.get (join id depositor)).map (·.amount)).toList
  burns   : s.burnsOf id = []

-- The deposits of the proposal were burned once, all together, and nothing was refunded.
structure State.Burned (s : State σ) (id : UInt64) : Prop where
  refunds : ∀ depositor, s.refundsOf id depositor = []
  burns   : (s.burnsOf id = [] ∧ ∀ denom, s.deposited id denom = 0) ∨
    ∃ amount, s.burnsOf id = [amount] ∧ ∀ denom, amount.amountOf denom = s.deposited id denom

-- Nothing was refunded or burned.
structure State.Pending (s : State σ) (id : UInt64) : Prop where
  refunds : ∀ depositor, s.refundsOf id depositor = []
  burns   : s.burnsOf id = []

def ProposalStatus.isActive (status : ProposalStatus) : Bool :=
  status = .depositPeriod || status = .votingPeriod

-- The proposal is in its deposit or its voting period.
def State.isActive (s : State σ) (id : UInt64) : Bool :=
  (s.proposals.get id).any (·.status.isActive)

-- What the records of the proposals in the deposit or the voting period add up to.
def State.owed (s : State σ) (denom : String) : ℤ :=
  s.deposits.sum fun key deposit => if s.isActive key.1 then deposit.amount.amountOf denom else 0

-- The deposits of a proposal are settled once when it is over, and the module account holds those
-- of the others.
structure State.Settled (moduleAddr : AccAddress) (s : State σ) : Prop where
  pending  : ∀ id proposal, s.proposals.get id = some proposal → proposal.status.isActive = true →
    s.Pending id
  burned   : ∀ id proposal, s.proposals.get id = some proposal → proposal.status = .passed →
    s.Burned id
  refunded : ∀ id proposal, s.proposals.get id = some proposal →
    proposal.status.isActive = false → proposal.status ≠ .passed → s.Refunded id
  balance  : ∀ denom, s.bank.balances moduleAddr denom = s.owed denom

-- The account keeps its coins, and nobody else gets blocked.
def Untouched (addr : AccAddress) (bank bank' : Bank) : Prop :=
  bank'.balances addr = bank.balances addr ∧ bank'.blockedAddrs = bank.blockedAddrs

namespace Keeper

-- A call leaves the coins of the module account to the deposits. The depositors can be paid back.
def Spares (k : Keeper μ σ) (ctx : Context) (s : State σ) : Call σ → Prop
  | .own (.submitProposal msg) =>
    msg.initialDeposit.isZero = true ∧ s.proposals.get s.proposalID = none
  | .own (.deposit msg) => ∀ addr, k.accAddressFromBech32 msg.depositor = some addr →
    addr ≠ k.moduleAddr ∧ s.bank.blockedAddrs addr = false
  | .own _ => True
  | .other run => ∀ bank rest, run ctx s.bank s.rest = .ok (bank, rest) →
    Untouched k.moduleAddr s.bank bank

-- The messages of every proposal that passes are executed.
def Sparing (k : Keeper μ σ) (s : State σ) : Action σ → Prop
  | .call ctx c => k.Spares ctx s c
  | .endBlock ctx => Fold.Along (k.processProposal ctx) (fun s proposal =>
      ∀ s', k.Passing ctx s proposal s' → ∃ calls, k.callsOf proposal = some calls ∧
        (k.runHandler ctx s' calls).isOk = true ∧
          Fold.Along (k.call ctx) (k.Spares ctx) calls s') s.getProposals s

end Keeper

-- Slashing takes nothing from the account.
def StakingKeeper.SlashSpares (stakingKeeper : StakingKeeper σ) (addr : AccAddress) : Prop :=
  ∀ bank rest valAddr height power fraction bank' rest',
    stakingKeeper.slash bank rest valAddr height power fraction = .ok (bank', rest') →
      Untouched addr bank bank'

-- What the records of a kind of proposals add up to.
def State.owedBy (s : State σ) (active : UInt64 → Bool) (denom : String) : ℤ :=
  s.deposits.sum fun key deposit => if active key.1 then deposit.amount.amountOf denom else 0

namespace State

variable {active active' : UInt64 → Bool}

theorem owedBy_nonneg (h : ∀ key deposit, s.deposits.get key = some deposit →
    0 ≤ deposit.amount.amountOf denom) : 0 ≤ s.owedBy active denom := by
  refine KVStore.sum_nonneg fun key deposit hd => ?_
  split_ifs
  · exact h key deposit hd
  · exact le_rfl

-- A proposal that is left out takes its records with it.
theorem owedBy_without (ha : active id = true) (h : ∀ id', id' ≠ id → active' id' = active id')
    (hn : active' id = false) :
    s.owedBy active denom = s.owedBy active' denom + s.deposited id denom := by
  rw [owedBy, owedBy, deposited, ← KVStore.sum_add]
  refine KVStore.sum_congr fun key deposit _ => ?_
  by_cases hk : key.1 = id
  case pos => simp [hk, ha, hn]
  case neg => simp [hk, h _ hk]

end State

theorem State.refundsOf_append {l : List Event} (h : s'.events = s.events ++ l) :
    s'.refundsOf id depositor =
      s.refundsOf id depositor ++ l.filterMap (Event.refundOf id depositor) := by
  rw [refundsOf, h, List.filterMap_append, refundsOf]

theorem State.burnsOf_append {l : List Event} (h : s'.events = s.events ++ l) :
    s'.burnsOf id = s.burnsOf id ++ l.filterMap (Event.burnOf id) := by
  rw [burnsOf, h, List.filterMap_append, burnsOf]

-- One state has the same deposits and payouts of a proposal as the other one.
structure SameFor (id : UInt64) (s s' : State σ) : Prop where
  deposits  : ∀ depositor, s'.deposits.get (join id depositor) = s.deposits.get (join id depositor)
  deposited : ∀ denom, s'.deposited id denom = s.deposited id denom
  refunds   : ∀ depositor, s'.refundsOf id depositor = s.refundsOf id depositor
  burns     : s'.burnsOf id = s.burnsOf id

namespace SameFor

theorem pending (h : SameFor id s s') (hp : s.Pending id) : s'.Pending id where
  refunds depositor := (h.refunds depositor).trans (hp.refunds depositor)
  burns             := h.burns.trans hp.burns

theorem refunded (h : SameFor id s s') (hr : s.Refunded id) : s'.Refunded id where
  refunds depositor := by rw [h.refunds, h.deposits, hr.refunds]
  burns             := h.burns.trans hr.burns

theorem burned (h : SameFor id s s') (hb : s.Burned id) : s'.Burned id where
  refunds depositor := (h.refunds depositor).trans (hb.refunds depositor)
  burns             := by simpa only [h.burns, h.deposited] using hb.burns

-- The new events are not about the proposal.
theorem of_events {l : List Event} (hd : s'.deposits = s.deposits)
    (he : s'.events = s.events ++ l)
    (hr : ∀ depositor, l.filterMap (Event.refundOf id depositor) = [])
    (hb : l.filterMap (Event.burnOf id) = []) : SameFor id s s' where
  deposits _  := by rw [hd]
  deposited _ := by rw [State.deposited, hd, State.deposited]
  refunds _   := by rw [State.refundsOf_append he, hr, List.append_nil]
  burns       := by rw [State.burnsOf_append he, hb, List.append_nil]

end SameFor

-- The module account receives the coins.
theorem Keeper.balance_of_collect {addr : AccAddress}
    (haddr : k.accAddressFromBech32 depositor = some addr) (hne : addr ≠ k.moduleAddr)
    (h : k.collect s id depositor amount = .ok s₁) :
    (∀ denom, s₁.bank.balances k.moduleAddr denom =
      s.bank.balances k.moduleAddr denom + amount.amountOf denom) ∧
    s₁.bank.blockedAddrs = s.bank.blockedAddrs := by
  rcases Keeper.of_collect h with ⟨hz, rfl⟩ | ⟨addr', bank, ha', hs, rfl⟩
  · exact ⟨fun denom => by rw [Coins.amountOf_of_isZero hz, add_zero], rfl⟩
  · cases haddr.symm.trans ha'
    have hc := Bank.of_sendCoins hs
    refine ⟨fun denom => ?_, hc.blockedAddrs⟩
    have hb := hc.balances k.moduleAddr denom
    simpa [Bank.held, Ne.symm hne, State.emit] using hb

theorem nodup_of_getOrCreateDeposit {record : Deposit} (hv : amount.isValid = true)
    (h : s.getOrCreateDeposit id depositor amount = .ok record) :
    (record.amount.map Coin.denom).Nodup := by
  simp only [State.getOrCreateDeposit] at h
  split at h
  · cases h
    exact Coins.nodup_of_isValid hv
  · simp only [Result.bind_eq_ok, Result.pure_eq_ok] at h
    obtain ⟨_, ha, rfl⟩ := h
    exact (Coins.of_add ha).2

-- The invariant of the deposits: they are accounted for, can be paid back, and are settled.
structure Book (k : Keeper μ σ) (s : State σ) : Prop where
  ledger   : Ledger s
  payable  : ∀ {key deposit}, s.deposits.get key = some deposit →
    ∃ addr, k.accAddressFromBech32 deposit.depositor = some addr ∧ addr ≠ k.moduleAddr ∧
      s.bank.blockedAddrs addr = false
  coins    : ∀ {key deposit}, s.deposits.get key = some deposit →
    (deposit.amount.map Coin.denom).Nodup ∧ ∀ denom, 0 ≤ deposit.amount.amountOf denom
  nodup    : ∀ {id proposal}, s.proposals.get id = some proposal →
    (proposal.totalDeposit.map Coin.denom).Nodup
  absent   : ∀ {id}, s.proposals.get id = none → s.Pending id
  pending  : ∀ {id proposal}, s.proposals.get id = some proposal →
    proposal.status.isActive = true → s.Pending id
  burned   : ∀ {id proposal}, s.proposals.get id = some proposal → proposal.status = .passed →
    s.Burned id
  refunded : ∀ {id proposal}, s.proposals.get id = some proposal →
    proposal.status.isActive = false → proposal.status ≠ .passed → s.Refunded id
  balance  : ∀ denom, s.bank.balances k.moduleAddr denom = s.owed denom

theorem State.isActive_set (hp : s'.proposals = s.proposals.set id proposal) :
    s'.isActive id' = if id' = id then proposal.status.isActive else s.isActive id' := by
  rw [isActive, hp, KVStore.get_set]
  split_ifs <;> rfl

namespace Book

theorem of_empty (h : s.Empty k.moduleAddr) : Book k s where
  ledger         := .of_empty h
  payable hd     := by simp [h.deposits] at hd
  coins hd       := by simp [h.deposits] at hd
  nodup hp       := by simp [h.proposals] at hp
  absent _       := ⟨by simp [State.refundsOf, h.events], by simp [State.burnsOf, h.events]⟩
  pending hp     := by simp [h.proposals] at hp
  burned hp      := by simp [h.proposals] at hp
  refunded hp    := by simp [h.proposals] at hp
  balance denom  := by simp [h.balance, State.owed, h.deposits]

theorem settled (h : Book k s) : s.Settled k.moduleAddr where
  pending _ _  := h.pending
  burned _ _   := h.burned
  refunded _ _ := h.refunded
  balance      := h.balance

theorem framed (h : Book k s) (hf : Framed s s') (hb : Untouched k.moduleAddr s.bank s'.bank) :
    Book k s' := by
  have hl := h.ledger.framed hf
  obtain ⟨hp, hd, he, _⟩ := hf
  obtain ⟨hbal, hblk⟩ := hb
  have hsame : ∀ id, SameFor id s s' := fun id => ⟨fun _ => by rw [hd],
    fun _ => by rw [State.deposited, hd, State.deposited], fun _ => by rw [State.refundsOf, he]; rfl,
    by rw [State.burnsOf, he]; rfl⟩
  refine ⟨hl, ?_, ?_, ?_, ?_, ?_, ?_, ?_, ?_⟩
  · intro key deposit hg
    rw [hblk]
    exact h.payable (hd ▸ hg)
  · exact hd ▸ h.coins
  · exact hp ▸ h.nodup
  · intro id hn
    exact (hsame id).pending (h.absent (hp ▸ hn))
  · intro id p hg ha
    exact (hsame id).pending (h.pending (hp ▸ hg) ha)
  · intro id p hg hst
    exact (hsame id).burned (h.burned (hp ▸ hg) hst)
  · intro id p hg ha hst
    exact (hsame id).refunded (h.refunded (hp ▸ hg) ha hst)
  · intro denom
    have ho : s'.owed denom = s.owed denom := by
      simp only [State.owed, State.isActive, hd, hp]
      rfl
    rw [hbal, ho]
    exact h.balance denom

-- One proposal and its deposits change.
theorem set (h : Book k s) (hl : Ledger s') (hp : s'.proposals = s.proposals.set id proposal)
    (hpay : ∀ {key deposit}, s'.deposits.get key = some deposit →
      (∃ addr, k.accAddressFromBech32 deposit.depositor = some addr ∧ addr ≠ k.moduleAddr ∧
        s'.bank.blockedAddrs addr = false) ∧
      (deposit.amount.map Coin.denom).Nodup ∧ ∀ denom, 0 ≤ deposit.amount.amountOf denom)
    (hn : (proposal.totalDeposit.map Coin.denom).Nodup)
    (hsame : ∀ id', id' ≠ id → SameFor id' s s')
    (hpending : proposal.status.isActive = true → s'.Pending id)
    (hburned : proposal.status = .passed → s'.Burned id)
    (hrefunded : proposal.status.isActive = false → proposal.status ≠ .passed → s'.Refunded id)
    (hb : ∀ denom, s'.bank.balances k.moduleAddr denom = s'.owed denom) : Book k s' := by
  refine ⟨hl, fun hd => (hpay hd).1, fun hd => (hpay hd).2, ?_, ?_, ?_, ?_, ?_, hb⟩
  · intro id' p hg
    rw [hp, KVStore.get_set] at hg
    split_ifs at hg
    · cases hg
      exact hn
    · exact h.nodup hg
  · intro id' hg
    rw [hp, KVStore.get_set] at hg
    split_ifs at hg with hid
    exact (hsame id' hid).pending (h.absent hg)
  · intro id' p hg hst
    rw [hp, KVStore.get_set] at hg
    split_ifs at hg with hid
    · cases hg
      exact hid ▸ hpending hst
    · exact (hsame id' hid).pending (h.pending hg hst)
  · intro id' p hg hst
    rw [hp, KVStore.get_set] at hg
    split_ifs at hg with hid
    · cases hg
      exact hid ▸ hburned hst
    · exact (hsame id' hid).burned (h.burned hg hst)
  · intro id' p hg ha hst
    rw [hp, KVStore.get_set] at hg
    split_ifs at hg with hid
    · cases hg
      exact hid ▸ hrefunded ha hst
    · exact (hsame id' hid).refunded (h.refunded hg ha hst)

theorem depositsPayable (h : Book k s) (hd : s'.deposits = s.deposits)
    (hb : s'.bank.blockedAddrs = s.bank.blockedAddrs) {key : UInt64 ×ₗ String} {deposit : Deposit}
    (hg : s'.deposits.get key = some deposit) :
    (∃ addr, k.accAddressFromBech32 deposit.depositor = some addr ∧ addr ≠ k.moduleAddr ∧
      s'.bank.blockedAddrs addr = false) ∧
    (deposit.amount.map Coin.denom).Nodup ∧ ∀ denom, 0 ≤ deposit.amount.amountOf denom := by
  rw [hd] at hg
  rw [hb]
  exact ⟨h.payable hg, h.coins hg⟩

theorem submitted (h : Book k s) (hn : s.proposals.get s.proposalID = none)
    (hz : proposal.totalDeposit = []) (hs : Submitted s proposal s') : Book k s' := by
  have hl := h.ledger.submitted hn (by simp [hz, Coins.isZero]) hs
  have hact : proposal.status.isActive = true := by simp [hs.status, ProposalStatus.isActive]
  have hev : s'.events = s.events ++ [] := by simp [hs.events]
  have hsame : ∀ id, SameFor id s s' := fun id => .of_events hs.deposits hev (by simp) (by simp)
  refine h.set hl hs.proposals (h.depositsPayable hs.deposits (by rw [hs.bank])) (by simp [hz])
    (fun id _ => hsame id) (fun _ => (hsame _).pending (h.absent (hs.id ▸ hn))) ?_ ?_ ?_
  · intro hst
    simp [hs.status] at hst
  · intro ha
    simp [hact] at ha
  · -- The records of the new proposal are empty.
    intro denom
    have ho : s.owedBy s'.isActive denom = s.owed denom + s.deposited proposal.id denom := by
      refine State.owedBy_without ?_ (fun id hne => ?_) ?_
      · rw [State.isActive_set hs.proposals, if_pos rfl, hact]
      · rw [State.isActive_set hs.proposals, if_neg hne]
      · rw [State.isActive, hs.id, hn]
        rfl
    have hz : s.deposited proposal.id denom = 0 := h.ledger.absent denom (hs.id ▸ hn)
    rw [hs.bank, h.balance, ← add_zero (s.owed denom), ← hz, ← ho, State.owed, State.owedBy,
      hs.deposits]

-- A proposal stays in the deposit or the voting period, and nothing is paid out.
theorem active (h : Book k s) (hl : Ledger s') {q : Proposal} {l : List Event}
    (hq : s.proposals.get id = some q) (hqa : q.status.isActive = true)
    (hp : s'.proposals = s.proposals.set id proposal) (ha : proposal.status.isActive = true)
    (ht : proposal.totalDeposit = q.totalDeposit) (hd : s'.deposits = s.deposits)
    (hb : s'.bank = s.bank) (he : s'.events = s.events ++ l)
    (hr : ∀ id depositor, l.filterMap (Event.refundOf id depositor) = [])
    (hbn : ∀ id, l.filterMap (Event.burnOf id) = []) : Book k s' := by
  have hsame : ∀ id, SameFor id s s' := fun id => .of_events hd he (hr id) (hbn id)
  refine h.set hl hp (h.depositsPayable hd (by rw [hb])) (ht ▸ h.nodup hq) (fun id _ => hsame id)
    (fun _ => (hsame id).pending (h.pending hq hqa)) ?_ ?_ ?_
  · intro hst
    simp [hst, ProposalStatus.isActive] at ha
  · intro hn
    simp [ha] at hn
  · intro denom
    have hact : s'.isActive = s.isActive := by
      funext id'
      rw [State.isActive_set hp]
      split_ifs with hid
      · rw [ha, State.isActive, hid, hq]
        exact hqa.symm
      · rfl
    rw [hb, h.balance, State.owed, State.owed, hact, hd]

theorem deposited (h : Book k s) {addr : AccAddress} {record : Deposit}
    (haddr : k.accAddressFromBech32 depositor = some addr) (hne : addr ≠ k.moduleAddr)
    (hblk : s.bank.blockedAddrs addr = false) (hv : amount.isValid = true)
    (hd : Deposited k ctx s id depositor amount proposal proposal' record s₁ s') : Book k s' := by
  have hn := Coins.amountOf_nonneg_of_isValid hv
  have hl := h.ledger.deposited hn hd
  have hid : proposal.id = id := h.ledger.keyed hd.stored
  obtain ⟨hri, hrd, hra⟩ := h.ledger.of_getOrCreateDeposit hd.record_eq
  have hqa : proposal.status.isActive = true := by simp [hd.status, ProposalStatus.isActive]
  have ha : proposal'.status.isActive = true := by
    rcases hd.entered with ⟨hs, _⟩ | ⟨hs, _⟩ <;> simp [hs, ProposalStatus.isActive]
  have hproposals : s'.proposals = s.proposals.set id proposal' := hid ▸ hd.proposals
  have hbank := Keeper.balance_of_collect haddr hne hd.collect
  rw [← hd.bank] at hbank
  have hev : ∃ l, s'.events = s.events ++ l ∧
      ∀ e ∈ l, ∀ id depositor, e.refundOf id depositor = none ∧ e.burnOf id = none := by
    obtain ⟨received, started, he, hr, hst⟩ := Keeper.events_of_deposited hd
    refine ⟨received ++ started, he, ?_⟩
    intro e hm
    rcases List.mem_append.mp hm with hm | hm
    · rcases hr with ⟨_, rfl⟩ | rfl
      · cases hm
      · rw [List.mem_singleton.mp hm]
        simp [Event.refundOf, Event.burnOf]
    · rcases hst with ⟨_, rfl⟩ | ⟨_, minDeposit, rfl, _⟩
      · cases hm
      · rw [List.mem_singleton.mp hm]
        simp [Event.refundOf, Event.burnOf]
  obtain ⟨l, he, hneutral⟩ := hev
  have hr : ∀ id depositor, l.filterMap (Event.refundOf id depositor) = [] := fun id depositor =>
    List.filterMap_eq_nil_iff.mpr fun e he => (hneutral e he id depositor).1
  have hb : ∀ id, l.filterMap (Event.burnOf id) = [] := fun id =>
    List.filterMap_eq_nil_iff.mpr fun e he => (hneutral e he id "").2
  have hrecord := nodup_of_getOrCreateDeposit hv hd.record_eq
  refine h.set hl hproposals ?_ ?_ ?_ ?_ ?_ ?_ ?_
  · intro key deposit hg
    rw [hd.deposits, KVStore.get_set] at hg
    rw [hbank.2]
    split_ifs at hg
    · cases hg
      refine ⟨⟨addr, hrd ▸ haddr, hne, hblk⟩, hrecord, fun denom => ?_⟩
      rw [hra]
      refine add_nonneg (hn denom) ?_
      cases hg : s.deposits.get (join id depositor) with
      | none => exact le_rfl
      | some deposit => exact (h.coins hg).2 denom
    · exact ⟨h.payable hg, h.coins hg⟩
  · exact (Coins.of_add hd.total_eq).2
  · intro id' hid'
    refine ⟨fun depositor' => ?_, fun denom => ?_, fun depositor' => ?_, ?_⟩
    · rw [hd.deposits, KVStore.get_set_ne]
      intro hk
      exact hid' ((congrArg (·.1) hk).trans hri)
    · rw [h.ledger.deposited_eq hd, if_neg (Ne.symm hid'), add_zero]
    · rw [State.refundsOf_append he, hr, List.append_nil]
    · rw [State.burnsOf_append he, hb, List.append_nil]
  · intro _
    have hp := h.pending hd.stored hqa
    refine ⟨fun depositor => ?_, ?_⟩
    · rw [State.refundsOf_append he, hr, hp.refunds, List.append_nil]
    · rw [State.burnsOf_append he, hb, hp.burns, List.append_nil]
  · intro hst
    simp [hst, ProposalStatus.isActive] at ha
  · intro hn
    simp [ha] at hn
  · intro denom
    have hact : s'.isActive = s.isActive := by
      funext id'
      rw [State.isActive_set hproposals]
      split_ifs with hid
      · rw [ha, State.isActive, hid, hd.stored]
        exact hqa.symm
      · rfl
    have hid : s.isActive id = true := by
      rw [State.isActive, hd.stored]
      exact hqa
    rw [hbank.1, h.balance, State.owed, State.owed, hact, hd.deposits, KVStore.sum_set, hri, hrd,
      KVStore.part_ite]
    simp only [join_fst, hid, if_true, hra]
    ring

theorem called (h : Book k s) (hsl : ∀ stakingKeeper ∈ k.stakingKeeper,
      stakingKeeper.SlashSpares k.moduleAddr) (hsp : k.Spares ctx s c)
    (hc : Called k ctx s s' c) : Book k s' := by
  cases hc with
  | submitted hz hv hs ht =>
    exact h.submitted hsp.2 (ht ▸ Coins.eq_nil_of_isZero hv hz) hs
  | endowed hz => exact absurd hsp.1 (by simp [hz])
  | deposited ha hv hd => exact h.deposited ha (hsp _ ha).1 (hsp _ ha).2 hv hd
  | quiet hf hb => exact h.framed hf (by rw [hb]; exact ⟨rfl, rfl⟩)
  | slashed hf hk hs => exact h.framed hf (hsl _ hk _ _ _ _ _ _ _ _ hs)
  | other hf hr => exact h.framed hf (hsp _ _ hr)

end Book

theorem Keeper.Spares.unpaid (h : k.Spares ctx s c) : Unpaid ctx s c := by
  rintro msg rfl
  exact h

-- What a refund of some records does: each depositor gets the coins of the record.
theorem refundEach_pays {deposits : List Deposit} {err : Option Failure}
    (hpay : ∀ deposit ∈ deposits, (∃ addr, k.accAddressFromBech32 deposit.depositor = some addr ∧
      addr ≠ k.moduleAddr ∧ s.bank.blockedAddrs addr = false) ∧
      (deposit.amount.map Coin.denom).Nodup ∧ ∀ denom, 0 ≤ deposit.amount.amountOf denom)
    (hbal : ∀ denom, (deposits.map (·.amount.amountOf denom)).sum ≤
      s.bank.balances k.moduleAddr denom)
    (h : k.refundEach id deposits s = .ok (s', err)) :
    err = none ∧
      s'.events = s.events ++ deposits.map (fun d => .depositRefunded id d.depositor d.amount) ∧
      (∀ denom, s'.bank.balances k.moduleAddr denom =
        s.bank.balances k.moduleAddr denom - (deposits.map (·.amount.amountOf denom)).sum) ∧
      s'.bank.blockedAddrs = s.bank.blockedAddrs := by
  induction deposits generalizing s err with
  | nil =>
    cases h
    simp
  | cons deposit deposits ih =>
    simp only [Keeper.refundEach, Result.bind_eq_ok, Result.pure_eq_ok, Prod.mk.injEq] at h
    obtain ⟨⟨s₁, err₁⟩, h₁, ⟨s₂, err₂⟩, h₂, rfl, rfl⟩ := h
    obtain ⟨⟨addr, ha, hne, hblk⟩, hn, hnn⟩ := hpay deposit (List.mem_cons_self ..)
    have hrest : ∀ denom, 0 ≤ (deposits.map (·.amount.amountOf denom)).sum := by
      intro denom
      refine List.sum_nonneg fun x hx => ?_
      obtain ⟨d, hd, rfl⟩ := List.mem_map.mp hx
      exact (hpay d (List.mem_cons_of_mem _ hd)).2.2 denom
    have henough : ∀ c ∈ deposit.amount, c.amount ≤ s.bank.balances k.moduleAddr c.denom := by
      intro c hc
      have hb := hbal c.denom
      rw [List.map_cons, List.sum_cons] at hb
      rw [Coins.amount_eq_of_nodup hn hc]
      have := hrest c.denom
      omega
    simp only [Keeper.refundDeposit, ha] at h₁
    split at h₁
    case h_1 bank hs =>
      cases h₁
      have hc := Bank.of_sendCoinsFromModuleToAccount hs
      have hm : ∀ denom, bank.balances k.moduleAddr denom =
          s.bank.balances k.moduleAddr denom - deposit.amount.amountOf denom := by
        intro denom
        have hb := hc.balances k.moduleAddr denom
        simp only [Pi.sub_apply, Bank.held, Ne.symm hne, if_false, if_true] at hb
        omega
      obtain ⟨rfl, he, hb, hbl⟩ := ih (fun d hd => by
          obtain ⟨⟨addr, ha, hne, hblk⟩, hd⟩ := hpay d (List.mem_cons_of_mem _ hd)
          exact ⟨⟨addr, ha, hne, by rw [State.emit, hc.blockedAddrs]; exact hblk⟩, hd⟩)
        (fun denom => by
          have hb := hbal denom
          rw [List.map_cons, List.sum_cons] at hb
          rw [State.emit, hm]
          omega) h₂
      refine ⟨rfl, ?_, fun denom => ?_, hbl.trans hc.blockedAddrs⟩
      · rw [he, State.emit, List.map_cons, List.append_assoc, List.singleton_append]
      · rw [hb, State.emit, hm, List.map_cons, List.sum_cons]
        ring
    case h_2 hs => exact absurd hs (Bank.sendCoinsFromModuleToAccount_ne_error hn henough hblk)
    case h_3 => cases h₁

theorem mem_getDeposits {deposit : Deposit} : deposit ∈ s.getDeposits id ↔
    ∃ key, key.1 = id ∧ s.deposits.get key = some deposit := by
  simp only [State.getDeposits, List.mem_map, List.mem_filter, decide_eq_true_eq]
  constructor
  · rintro ⟨⟨key, deposit⟩, ⟨he, hk⟩, rfl⟩
    exact ⟨key, hk, KVStore.mem_entries_iff.mp he⟩
  · rintro ⟨key, hk, hg⟩
    exact ⟨(key, deposit), ⟨KVStore.mem_entries_iff.mpr hg, hk⟩, rfl⟩

theorem sum_getDeposits : ((s.getDeposits id).map (·.amount.amountOf denom)).sum =
    s.deposited id denom := by
  have h := KVStore.sum_filter (s := s.deposits) (p := fun key => decide (key.1 = id))
    (f := fun _ deposit => deposit.amount.amountOf denom)
  simp only [decide_eq_true_eq] at h
  rw [State.getDeposits, List.map_map, State.deposited, ← h]
  rfl

-- The refunds of a proposal to a depositor are those of the record.
theorem refunds_getDeposits (h : Ledger s) : ((s.getDeposits id).map fun d =>
      Event.depositRefunded id d.depositor d.amount).filterMap (Event.refundOf id depositor) =
    ((s.deposits.get (join id depositor)).map (·.amount)).toList := by
  rw [← KVStore.filterMap_entries, State.getDeposits, List.map_map, List.filterMap_map,
    List.filterMap_filter]
  refine List.filterMap_congr fun e he => ?_
  have hrec := h.recorded (KVStore.mem_entries_iff.mp he)
  have hkey : e.1 = join id depositor ↔ e.1.1 = id ∧ e.2.depositor = depositor := by
    rw [hrec.2]
    constructor
    · intro hk
      rw [hk]
      exact ⟨rfl, rfl⟩
    · rintro ⟨rfl, rfl⟩
      rfl
  by_cases hid : e.1.1 = id <;> by_cases hd : e.2.depositor = depositor <;>
    simp [hkey, hid, hd, Event.refundOf]

namespace Book

theorem deposited_le (h : Book k s) (hp : s.proposals.get id = some proposal)
    (ha : proposal.status.isActive = true) (denom : String) :
    s.deposited id denom ≤ s.bank.balances k.moduleAddr denom := by
  have ho : s.owed denom =
      s.owedBy (fun id' => if id' = id then false else s.isActive id') denom +
        s.deposited id denom := by
    refine State.owedBy_without ?_ (fun id' hne => by simp [hne]) (by simp)
    rw [State.isActive, hp]
    exact ha
  have hnn : 0 ≤ s.owedBy (fun id' => if id' = id then false else s.isActive id') denom :=
    State.owedBy_nonneg fun key deposit hd => (h.coins hd).2 denom
  rw [h.balance, ho]
  omega

-- A proposal is over, and the coins of its deposits have left the module account.
theorem closed (h : Book k s) {q : Proposal} {l : List Event} (hl : Ledger s')
    (hq : s.proposals.get id = some q) (hqa : q.status.isActive = true)
    (hp : s'.proposals = s.proposals.set id proposal) (ha : proposal.status.isActive = false)
    (ht : proposal.totalDeposit = q.totalDeposit) (hd : s'.deposits = s.deposits)
    (hbal : ∀ denom, s'.bank.balances k.moduleAddr denom =
      s.bank.balances k.moduleAddr denom - s.deposited id denom)
    (hblk : s'.bank.blockedAddrs = s.bank.blockedAddrs) (he : s'.events = s.events ++ l)
    (hr : ∀ id' depositor, id' ≠ id → l.filterMap (Event.refundOf id' depositor) = [])
    (hb : ∀ id', id' ≠ id → l.filterMap (Event.burnOf id') = [])
    (hburned : proposal.status = .passed → s'.Burned id)
    (hrefunded : proposal.status ≠ .passed → s'.Refunded id) : Book k s' := by
  refine h.set hl hp (h.depositsPayable hd hblk) (ht ▸ h.nodup hq)
    (fun id' hne => .of_events hd he (hr id' · hne) (hb id' hne)) ?_ hburned
    (fun _ hst => hrefunded hst) fun denom => ?_
  · intro hn
    simp [ha] at hn
  · have ho : s.owed denom = s.owedBy s'.isActive denom + s.deposited id denom := by
      refine State.owedBy_without ?_ (fun id' hne => ?_) ?_
      · rw [State.isActive, hq]
        exact hqa
      · rw [State.isActive_set hp, if_neg hne]
      · rw [State.isActive_set hp, if_pos rfl, ha]
    have ho' : s'.owed denom = s.owedBy s'.isActive denom := by
      rw [State.owed, State.owedBy, hd]
    rw [hbal, h.balance, ho, ho']
    ring

-- The deposits are refunded, and the proposal is over.
theorem refund (h : Book k s) {q : Proposal} (hq : s.proposals.get proposal.id = some q)
    (hqa : q.status.isActive = true) (ht : proposal.totalDeposit = q.totalDeposit)
    (hst : proposal.status = .failed ∨ proposal.status = .rejected)
    (hv : proposal.status.Voted → ∃ minDeposit, .votingStarted proposal.id minDeposit ∈ s.events)
    (hr : k.refundDeposits s proposal.id = .ok s') : Book k (s'.setProposal proposal) := by
  have hpaid := Keeper.of_refundDeposits hr
  simp only [Keeper.refundDeposits, Result.bind_eq_ok, Result.pure_eq_ok] at hr
  obtain ⟨⟨s₁, err⟩, hr, he⟩ := hr
  obtain ⟨rfl, hev, hbal, hblk⟩ := refundEach_pays (fun deposit hd => by
      obtain ⟨key, _, hg⟩ := mem_getDeposits.mp hd
      exact ⟨h.payable hg, h.coins hg⟩)
    (fun denom => by
      rw [sum_getDeposits]
      exact h.deposited_le hq hqa denom) hr
  simp only [Option.isSome_none, Bool.false_eq_true, if_false] at he
  subst he
  have hpend := h.pending hq hqa
  have hev' : (s₁.setProposal proposal).events = s.events ++ (s.getDeposits proposal.id).map
    fun d => Event.depositRefunded proposal.id d.depositor d.amount := hev
  have hq' : s₁.proposals.get proposal.id = some q := hpaid.proposals ▸ hq
  have hle : ∀ e ∈ s.events, e ∈ s₁.events := fun e he => hev ▸ List.mem_append_left _ he
  have hl := (h.ledger.paidOut hpaid).setProposal hq' ht fun hst => by
    obtain ⟨m, hm⟩ := hv hst
    exact ⟨m, hle _ hm⟩
  have ha : proposal.status.isActive = false := by
    rcases hst with hst | hst <;> simp [hst, ProposalStatus.isActive]
  refine h.closed hl hq hqa (congrArg (·.set proposal.id proposal) hpaid.proposals) ha ht
    hpaid.deposits (fun denom => ?_) hblk hev' ?_ ?_ ?_ ?_
  · rw [← sum_getDeposits]
    exact hbal denom
  · intro id' depositor hne
    simp [List.filterMap_eq_nil_iff, Event.refundOf, Ne.symm hne]
  · simp [List.filterMap_eq_nil_iff, Event.burnOf]
  · rcases hst with hst | hst <;> simp [hst]
  · refine fun _ => ⟨fun depositor => ?_, ?_⟩
    · rw [State.refundsOf_append hev', hpend.refunds, List.nil_append, refunds_getDeposits h.ledger]
      rw [← hpaid.deposits]
      rfl
    · rw [State.burnsOf_append hev', hpend.burns]
      simp [List.filterMap_eq_nil_iff, Event.burnOf]

-- The total of a passed proposal is burned.
theorem burn (h : Book k s) {q : Proposal} {err : Option Failure}
    (hq : s.proposals.get proposal.id = some q) (hqs : q.status = .votingPeriod)
    (ht : proposal.totalDeposit = q.totalDeposit) (hst : proposal.status = .passed)
    (hr : k.executeTreasuryTransfer s proposal = .ok (s', err)) :
    Book k (s'.setProposal proposal) := by
  have hqa : q.status.isActive = true := by simp [hqs, ProposalStatus.isActive]
  have ha : proposal.status.isActive = false := by simp [hst, ProposalStatus.isActive]
  have hpaid := Keeper.of_executeTreasuryTransfer hr
  have hpend := h.pending hq hqa
  have hn : (proposal.totalDeposit.map Coin.denom).Nodup := ht ▸ h.nodup hq
  have htotal : ∀ denom, proposal.totalDeposit.amountOf denom = s.deposited proposal.id denom :=
    fun denom => ht ▸ h.ledger.total denom hq
  have henough : ∀ c ∈ proposal.totalDeposit,
      c.amount ≤ s.bank.balances k.moduleAddr c.denom := by
    intro c hc
    rw [Coins.amount_eq_of_nodup hn hc, htotal]
    exact h.deposited_le hq hqa c.denom
  have h₁ := h.ledger.paidOut hpaid
  have hq' : s'.proposals.get proposal.id = some q := hpaid.proposals ▸ hq
  have hl := h₁.setProposal hq' ht fun _ => h₁.started hq' (.inl hqs)
  have hp : (s'.setProposal proposal).proposals = s.proposals.set proposal.id proposal :=
    congrArg (·.set proposal.id proposal) hpaid.proposals
  have hd : (s'.setProposal proposal).deposits = s.deposits := hpaid.deposits
  have hdep : ∀ denom, (s'.setProposal proposal).deposited proposal.id denom =
      s.deposited proposal.id denom := fun _ => by rw [State.deposited, hd, State.deposited]
  simp only [Keeper.executeTreasuryTransfer] at hr
  split_ifs at hr with hz
  · -- Nothing was deposited.
    cases hr
    have hzero : ∀ denom, s.deposited proposal.id denom = 0 := fun denom => by
      rw [← htotal, Coins.amountOf_of_isZero hz]
    have he : (s.setProposal proposal).events = s.events ++ [] := (List.append_nil _).symm
    refine h.closed hl hq hqa hp ha ht hd (fun denom => ?_) rfl he (by simp) (by simp) ?_ ?_
    · rw [hzero, sub_zero]
      rfl
    · exact fun _ => ⟨hpend.refunds, .inl ⟨hpend.burns, fun denom => (hdep denom).trans (hzero denom)⟩⟩
    · exact fun hne => absurd hst hne
  · split at hr
    case h_1 bank hb =>
      cases hr
      have hc := Bank.of_burnCoins hb
      refine h.closed hl hq hqa hp ha ht hd (fun denom => ?_) hc.blockedAddrs rfl ?_ ?_ ?_ ?_
      · have hm := hc.balances k.moduleAddr denom
        simp only [Pi.neg_apply, Bank.held, if_true] at hm
        rw [← htotal]
        exact hm
      · simp [Event.refundOf]
      · simp +contextual [Event.burnOf, eq_comm]
      · refine fun _ => ⟨fun depositor => ?_, .inr ⟨proposal.totalDeposit, ?_, fun denom => ?_⟩⟩
        · rw [State.refundsOf_append (s := s) rfl, hpend.refunds]
          rfl
        · rw [State.burnsOf_append (s := s) rfl, hpend.burns]
          simp [Event.burnOf]
        · rw [hdep, htotal]
      · exact fun hne => absurd hst hne
    case h_2 hb => exact absurd hb (Bank.burnCoins_ne_error hn henough)
    case h_3 => cases hr

theorem tallied (h : Book k s) {tally : TallyResult} (hq : s.proposals.get proposal.id = some proposal)
    (hs : proposal.status = .votingPeriod) (ht : k.tallyVotes s proposal.id = .ok (s', tally)) :
    s' = s.setProposal { proposal with finalTallyResult := tally } ∧ Book k s' := by
  obtain ⟨q, hq', rfl, hl⟩ := h.ledger.tallied ht
  cases hq.symm.trans hq'
  have ha : proposal.status.isActive = true := by simp [hs, ProposalStatus.isActive]
  exact ⟨rfl, h.active hl hq ha rfl ha rfl rfl rfl (List.append_nil _).symm (by simp) (by simp)⟩

theorem run (h : Book k s) {calls : List (Call σ)} (hsl : ∀ stakingKeeper ∈ k.stakingKeeper,
      stakingKeeper.SlashSpares k.moduleAddr) (hsp : Fold.Along (k.call ctx) (k.Spares ctx) calls s)
    (hr : k.runHandler ctx s calls = .ok s') : Book k s' :=
  hsp.holds (I := fun _ s => Book k s) (fun h hsp hc => h.called hsl hsp (Keeper.of_call hc)) h hr

-- A proposal is processed at the end of a block.
theorem processed (h : Book k s) {proposals : List Proposal}
    (hsw : Sweep ctx (proposal :: proposals) s) (hsl : ∀ stakingKeeper ∈ k.stakingKeeper,
      stakingKeeper.SlashSpares k.moduleAddr)
    (hsp : ∀ s₁, k.Passing ctx s proposal s₁ → ∃ calls, k.callsOf proposal = some calls ∧
      (k.runHandler ctx s₁ calls).isOk = true ∧ Fold.Along (k.call ctx) (k.Spares ctx) calls s₁)
    (hl : Ledger s') (hp : Processed k ctx s proposal s') : Book k s' := by
  cases hp with
  | skipped _ _ => exact h
  | @started params hs ht hg =>
    have hst := hsw.stored (.inl ⟨hs, ht⟩)
    have ha : proposal.status.isActive = true := by simp [hs, ProposalStatus.isActive]
    refine h.active hl hst ha rfl rfl rfl rfl rfl rfl ?_ ?_ <;>
      simp [Event.refundOf, Event.burnOf]
  | @expired s₁ hs ht hr =>
    have hst := hsw.stored (.inl ⟨hs, ht⟩)
    have ha : proposal.status.isActive = true := by simp [hs, ProposalStatus.isActive]
    exact h.refund hst ha rfl (.inl rfl) (by simp [ProposalStatus.Voted]) hr
  | @rejected s₁ s₂ tally hs ht hv hr =>
    have hst := hsw.stored (.inr ⟨hs, ht⟩)
    have ha : proposal.status.isActive = true := by simp [hs, ProposalStatus.isActive]
    obtain ⟨rfl, h₁⟩ := h.tallied hst hs hv
    have hev := h₁.ledger.started KVStore.get_set_self (.inl hs)
    exact h₁.refund KVStore.get_set_self ha rfl (.inr rfl) (fun _ => hev) hr
  | @passed s₁ s₂ tally hpass hv he =>
    have hs := hpass.1
    have hst := hsw.stored (.inr ⟨hs, hpass.2.1⟩)
    obtain ⟨calls, hc, ho, hsp⟩ := hsp s₁ hpass
    obtain ⟨rfl, h₁⟩ := h.tallied hst hs hv
    cases he with
    | failed hno _ =>
      obtain ⟨s₃, hr⟩ := Result.isOk_iff.mp ho
      exact absurd hr (hno calls s₃ hc)
    | executed hc' hr ht =>
      cases hc.symm.trans hc'
      have h₂ := h₁.run hsl hsp hr
      have hk := (h₁.ledger.run (hsp.mono fun _ _ => Keeper.Spares.unpaid) hr).2 _ _
        KVStore.get_set_self (.inr ⟨hs, hpass.2.1⟩)
      exact h₂.burn hk hs rfl rfl ht

end Book

theorem Keeper.Sparing.unpaid {s' : State σ} (hsp : ∃ calls, k.callsOf proposal = some calls ∧
      (k.runHandler ctx s' calls).isOk = true ∧ Fold.Along (k.call ctx) (k.Spares ctx) calls s') :
    ∀ calls, k.callsOf proposal = some calls → (k.runHandler ctx s' calls).isOk = true →
      k.UnpaidCalls ctx s' calls := by
  intro calls hc _
  obtain ⟨calls', hc', _, ha⟩ := hsp
  cases hc.symm.trans hc'
  exact ha.mono fun _ _ => Keeper.Spares.unpaid

theorem Book.endBlock (h : Book k s) (hsl : ∀ stakingKeeper ∈ k.stakingKeeper,
      stakingKeeper.SlashSpares k.moduleAddr) (hsp : k.Sparing s (.endBlock ctx))
    (he : k.endBlocker ctx s = .ok s') : Book k s' := by
  refine (hsp.holds (I := fun proposals s => Sweep ctx proposals s ∧ Book k s) ?_
    ⟨.of_ledger h.ledger, h⟩ he).2
  intro proposal proposals s s' h hsp hp
  have hp := Keeper.of_processProposal hp
  have hsw := h.1.processed (fun s₁ calls hpass => Keeper.Sparing.unpaid (hsp s₁ hpass) calls) hp
  exact ⟨hsw, h.2.processed h.1 hsl hsp hsw.ledger hp⟩

theorem book_invariant (k : Keeper μ σ) (hsl : ∀ stakingKeeper ∈ k.stakingKeeper,
      stakingKeeper.SlashSpares k.moduleAddr) :
    (system k).Invariant k.Sparing (Book k) where
  init hi := .of_empty hi
  step {s a s'} h hg hs := by
    cases a with
    | call ctx c => exact h.called hsl hg (Keeper.of_call hs.2)
    | endBlock ctx => exact h.endBlock hsl hg hs.2

-- The deposits are settled once when the messages of passed proposals are executed.
theorem deposits_settled_once (k : Keeper μ σ) (hsl : ∀ stakingKeeper ∈ k.stakingKeeper,
      stakingKeeper.SlashSpares k.moduleAddr) {s : State σ} (hs : (system k).Run k.Sparing s) :
    s.Settled k.moduleAddr :=
  ((book_invariant k hsl).holds hs).settled

namespace Sample

-- The deposit of a proposal stays below the minimal one.
def funded : State Unit :=
  run [submit 2 1 100 [], deposit 5]

theorem funded_run : (system keeper).Run keeper.Sparing funded := by
  have h₁ : (system keeper).Run keeper.Sparing (keeper.next genesis (submit 2 1 100 [])) :=
    run_step (.init genesis_empty) ⟨rfl, rfl⟩ (by decide +kernel)
  have hsp : keeper.Sparing (keeper.next genesis (submit 2 1 100 [])) (deposit 5) := by
    intro addr ha
    cases ha
    exact ⟨by decide, by decide +kernel⟩
  exact run_step h₁ hsp (by decide +kernel)

-- The time of the deposit period is over.
theorem expired_run : (system keeper).Run keeper.Sparing (keeper.next funded endBlock) := by
  refine run_step funded_run (Fold.Along.of_forall fun proposal hp s s' hpass => ?_)
    (by decide +kernel)
  have hst : ∀ proposal ∈ funded.getProposals, proposal.status = .depositPeriod := by
    decide +kernel
  cases (hst proposal hp).symm.trans hpass.1

theorem slash_spares : ∀ stakingKeeper ∈ keeper.stakingKeeper,
    stakingKeeper.SlashSpares keeper.moduleAddr := by
  intro stakingKeeper hk bank rest valAddr height power fraction bank' rest' hs
  cases hk
  cases hs
  exact ⟨rfl, rfl⟩

end Sample

theorem expired_settled : (Sample.keeper.next Sample.funded Sample.endBlock).Settled Sample.gov :=
  deposits_settled_once Sample.keeper Sample.slash_spares Sample.expired_run

namespace Sample

-- The proposer does not have the coins that the proposal sends.
def unpayable : State Unit :=
  run [submit 1 2 200 [], deposit 10, vote, endBlock]

end Sample

-- The execution of a passed proposal fails, and its deposit is neither refunded nor burned.
theorem failed_execution_not_settled : (system Sample.keeper).Reachable Sample.unpayable ∧
    (Sample.unpayable.proposals.get 1).map (·.status) = some .passed ∧
    Sample.unpayable.refundsOf 1 "mallory" = [] ∧ Sample.unpayable.burnsOf 1 = [] ∧
    Sample.unpayable.bank.balances Sample.gov "stake" = 10 ∧
    ¬Sample.unpayable.Settled Sample.gov := by
  refine ⟨Sample.run_reachable (.init Sample.genesis_empty) (by decide +kernel), by decide +kernel,
    by decide +kernel, by decide +kernel, by decide +kernel, fun h => ?_⟩
  have ho : Sample.unpayable.owed "stake" = 0 := by decide +kernel
  have hb : Sample.unpayable.bank.balances Sample.gov "stake" = 10 := by decide +kernel
  have he := h.balance "stake"
  rw [ho, hb] at he
  omega

end Governance
