import MallChain.Governance.Effects

namespace Governance

open Sdk

variable {μ σ : Type} {k : Keeper μ σ} {ctx : Context} {s s₁ s' : State σ} {c : Call σ}
variable {proposal proposal' : Proposal} {id id' : UInt64} {depositor denom : String}
variable {amount minDeposit : Coins} {e : Event}

-- The coins that the records of a proposal add up to.
def State.deposited (s : State σ) (id : UInt64) (denom : String) : ℤ :=
  s.deposits.sum fun key deposit => if key.1 = id then deposit.amount.amountOf denom else 0

-- The coins that the module account has received for a proposal.
def Event.receivedFor (id : UInt64) (denom : String) : Event → ℤ
  | .received id' _ amount => if id' = id then amount.amountOf denom else 0
  | _ => 0

def State.received (s : State σ) (id : UInt64) (denom : String) : ℤ :=
  (s.events.map (Event.receivedFor id denom)).sum

-- The statuses of a proposal whose voting period has started.
def ProposalStatus.Voted (status : ProposalStatus) : Prop :=
  status = .votingPeriod ∨ status = .passed ∨ status = .rejected

-- The total of a proposal is what its records hold and what was received for it, and its voting
-- period has started with the minimal deposit paid.
structure State.Accounted (s : State σ) : Prop where
  total    : ∀ id proposal denom, s.proposals.get id = some proposal →
    proposal.totalDeposit.amountOf denom = s.deposited id denom
  received : ∀ id proposal denom, s.proposals.get id = some proposal →
    s.received id denom = s.deposited id denom
  started  : ∀ id proposal, s.proposals.get id = some proposal →
    proposal.status.Voted → ∃ minDeposit, .votingStarted id minDeposit ∈ s.events
  covered  : ∀ id minDeposit coin, .votingStarted id minDeposit ∈ s.events → coin ∈ minDeposit →
    coin.amount ≤ s.received id coin.denom

-- A proposal comes without an initial deposit, and under an id that is not in use.
def Unpaid (_ : Context) (s : State σ) (c : Call σ) : Prop :=
  ∀ msg, c = .own (.submitProposal msg) →
    msg.initialDeposit.isZero = true ∧ s.proposals.get s.proposalID = none

-- The time of a period of a proposal is over.
def Proposal.Due (ctx : Context) (proposal : Proposal) : Prop :=
  (proposal.status = .depositPeriod ∧ proposal.depositEndTime < ctx.blockTime) ∨
    (proposal.status = .votingPeriod ∧ proposal.votingEndTime < ctx.blockTime)

structure Ledger (s : State σ) : Prop where
  keyed    : ∀ {id proposal}, s.proposals.get id = some proposal → proposal.id = id
  recorded : ∀ {key deposit}, s.deposits.get key = some deposit →
    deposit.proposalId = key.1 ∧ deposit.depositor = key.2
  absent   : ∀ {id} denom, s.proposals.get id = none → s.deposited id denom = 0
  total    : ∀ {id proposal} denom, s.proposals.get id = some proposal →
    proposal.totalDeposit.amountOf denom = s.deposited id denom
  received : ∀ id denom, s.received id denom = s.deposited id denom
  started  : ∀ {id proposal}, s.proposals.get id = some proposal → proposal.status.Voted →
    ∃ minDeposit, .votingStarted id minDeposit ∈ s.events
  covered  : ∀ {id minDeposit coin}, .votingStarted id minDeposit ∈ s.events → coin ∈ minDeposit →
    coin.amount ≤ s.received id coin.denom

theorem Ledger.accounted (h : Ledger s) : s.Accounted where
  total _ _ denom hp    := h.total denom hp
  received id _ denom _ := h.received id denom
  started _ _           := h.started
  covered _ _ _         := h.covered

theorem State.received_append {l : List Event} (h : s'.events = s.events ++ l) :
    s'.received id denom = s.received id denom + (l.map (Event.receivedFor id denom)).sum := by
  simp [State.received, h]

theorem State.received_payouts {l : List Event} (h : s'.events = s.events ++ l)
    (hl : ∀ e ∈ l, e.isPayout = true) : s'.received id denom = s.received id denom := by
  have hz : ∀ x ∈ l.map (Event.receivedFor id denom), x = 0 := by
    simp only [List.mem_map]
    rintro x ⟨e, he, rfl⟩
    have hp := hl e he
    cases e <;> simp_all [Event.receivedFor, Event.isPayout]
  rw [State.received_append h, List.sum_eq_zero hz, add_zero]

namespace Ledger

theorem of_empty {moduleAddr : AccAddress} (h : s.Empty moduleAddr) : Ledger s where
  keyed hp      := by simp [h.proposals] at hp
  recorded hd   := by simp [h.deposits] at hd
  absent _ _    := by simp [State.deposited, h.deposits]
  total _ hp    := by simp [h.proposals] at hp
  received _ _  := by simp [State.received, State.deposited, h.deposits, h.events]
  started hp    := by simp [h.proposals] at hp
  covered he    := by simp [h.events] at he

theorem framed (h : Ledger s) (hf : Framed s s') : Ledger s' := by
  obtain ⟨hp, hd, he, _⟩ := hf
  refine ⟨?_, ?_, ?_, ?_, ?_, ?_, ?_⟩ <;> simp only [State.deposited, State.received, hp, hd, he]
  · exact h.keyed
  · exact h.recorded
  · exact h.absent
  · exact h.total
  · exact h.received
  · exact h.started
  · exact h.covered

theorem paidOut (h : Ledger s) (hp : PaidOut s s') : Ledger s' := by
  obtain ⟨l, he, hl⟩ := hp.events
  have hr : ∀ id denom, s'.received id denom = s.received id denom :=
    fun _ _ => State.received_payouts he hl
  have hm : ∀ id minDeposit, .votingStarted id minDeposit ∈ s'.events ↔
      .votingStarted id minDeposit ∈ s.events := by
    intro id minDeposit
    rw [he, List.mem_append, or_iff_left]
    intro hm
    simpa [Event.isPayout] using hl _ hm
  refine ⟨?_, ?_, ?_, ?_, ?_, ?_, ?_⟩ <;> 
    simp only [hr, hm, State.deposited, hp.proposals, hp.deposits]
  · exact h.keyed
  · exact h.recorded
  · exact h.absent
  · exact h.total
  · exact h.received
  · exact h.started
  · exact h.covered

-- A proposal is written again with the same total.
theorem setProposal (h : Ledger s) (hs : s.proposals.get proposal.id = some proposal')
    (ht : proposal.totalDeposit = proposal'.totalDeposit)
    (hv : proposal.status.Voted → ∃ minDeposit, .votingStarted proposal.id minDeposit ∈ s.events) :
    Ledger (s.setProposal proposal) where
  keyed {id p} hp := by
    rw [State.setProposal, KVStore.get_set] at hp
    split_ifs at hp with hid
    · cases hp
      exact hid.symm
    · exact h.keyed hp
  recorded := h.recorded
  absent {id} denom hp := by
    rw [State.setProposal, KVStore.get_set] at hp
    split_ifs at hp
    exact h.absent denom hp
  total {id p} denom hp := by
    rw [State.setProposal, KVStore.get_set] at hp
    split_ifs at hp with hid
    · cases hp
      rw [ht, hid]
      exact h.total denom hs
    · exact h.total denom hp
  received := h.received
  started {id p} hp hst := by
    rw [State.setProposal, KVStore.get_set] at hp
    split_ifs at hp with hid
    · cases hp
      exact hid ▸ hv hst
    · exact h.started hp hst
  covered := h.covered

-- The voting period of a proposal starts with enough coins.
theorem emit_votingStarted (h : Ledger s)
    (hc : ∀ coin ∈ minDeposit, coin.amount ≤ s.received id coin.denom) :
    Ledger (s.emit (.votingStarted id minDeposit)) := by
  have hr : ∀ id' denom, (s.emit (.votingStarted id minDeposit)).received id' denom =
      s.received id' denom := by
    intro id' denom
    rw [State.received_append rfl]
    simp [Event.receivedFor]
  refine ⟨h.keyed, h.recorded, h.absent, h.total, ?_, ?_, ?_⟩
  · intro id' denom
    rw [hr]
    exact h.received id' denom
  · intro id' p hp hst
    obtain ⟨m, hm⟩ := h.started hp hst
    exact ⟨m, List.mem_append_left _ hm⟩
  · intro id' m coin hm hcoin
    rw [hr]
    rcases List.mem_append.mp hm with hm | hm
    · exact h.covered hm hcoin
    · simp only [List.mem_singleton, Event.votingStarted.injEq] at hm
      obtain ⟨rfl, rfl⟩ := hm
      exact hc coin hcoin

theorem submitted (h : Ledger s) (hn : s.proposals.get s.proposalID = none)
    (hz : proposal.totalDeposit.isZero = true) (hs : Submitted s proposal s') : Ledger s' := by
  have hd : ∀ id denom, s'.deposited id denom = s.deposited id denom := by
    simp [State.deposited, hs.deposits]
  have hr : ∀ id denom, s'.received id denom = s.received id denom := by
    simp [State.received, hs.events]
  refine ⟨?_, hs.deposits ▸ h.recorded, ?_, ?_, ?_, ?_, ?_⟩ <;>
    simp only [hd, hr, hs.proposals, hs.events, KVStore.get_set]
  · intro id p hp
    split_ifs at hp with hid
    · cases hp
      exact hid.symm
    · exact h.keyed hp
  · intro id denom hp
    split_ifs at hp
    exact h.absent denom hp
  · intro id p denom hp
    split_ifs at hp with hid
    · cases hp
      rw [Coins.amountOf_of_isZero hz, hid, hs.id, h.absent denom hn]
    · exact h.total denom hp
  · exact h.received
  · intro id p hp hst
    split_ifs at hp with hid
    · cases hp
      simp [ProposalStatus.Voted, hs.status] at hst
    · exact h.started hp hst
  · exact h.covered

theorem of_getOrCreateDeposit (h : Ledger s) {record : Deposit}
    (hr : s.getOrCreateDeposit id depositor amount = .ok record) :
    record.proposalId = id ∧ record.depositor = depositor ∧ ∀ denom,
      record.amount.amountOf denom = amount.amountOf denom +
        KVStore.part (fun _ deposit => deposit.amount.amountOf denom) (join id depositor)
          (s.deposits.get (join id depositor)) := by
  simp only [State.getOrCreateDeposit] at hr
  split at hr
  case h_1 hn =>
    cases hr
    exact ⟨rfl, rfl, by simp [hn, KVStore.part]⟩
  case h_2 deposit hd =>
    simp only [Result.bind_eq_ok, Result.pure_eq_ok] at hr
    obtain ⟨sum, ha, rfl⟩ := hr
    obtain ⟨hid, hdep⟩ := h.recorded hd
    refine ⟨hid, hdep, fun denom => ?_⟩
    rw [(Coins.of_add ha).1 denom, hd, KVStore.part, add_comm]

-- The coins of a deposit are added to the records of its proposal and to what was received.
theorem deposited_eq (h : Ledger s) {record : Deposit}
    (hd : Deposited k ctx s id depositor amount proposal proposal' record s₁ s')
    (id' : UInt64) (denom : String) : s'.deposited id' denom =
      s.deposited id' denom + if id = id' then amount.amountOf denom else 0 := by
  obtain ⟨hri, hrd, hra⟩ := h.of_getOrCreateDeposit hd.record_eq
  rw [State.deposited, State.deposited, hd.deposits, KVStore.sum_set, hri, hrd, KVStore.part_ite]
  by_cases hid : id = id'
  case pos =>
    simp only [join_fst, hid, if_true, hra]
    ring
  case neg => simp [hid]

theorem received_eq {record : Deposit}
    (hd : Deposited k ctx s id depositor amount proposal proposal' record s₁ s')
    (id' : UInt64) (denom : String) : s'.received id' denom =
      s.received id' denom + if id = id' then amount.amountOf denom else 0 := by
  obtain ⟨received, started, he, hr, hst⟩ := Keeper.events_of_deposited hd
  have hstarted : (started.map (Event.receivedFor id' denom)).sum = 0 := by
    rcases hst with ⟨_, rfl⟩ | ⟨_, minDeposit, rfl, _⟩ <;> simp [Event.receivedFor]
  rw [State.received_append he, List.map_append, List.sum_append, hstarted, add_zero]
  rcases hr with ⟨hz, rfl⟩ | rfl
  · simp [Coins.amountOf_of_isZero hz]
  · simp [Event.receivedFor]

theorem deposited (h : Ledger s) {record : Deposit} (hn : ∀ denom, 0 ≤ amount.amountOf denom)
    (hd : Deposited k ctx s id depositor amount proposal proposal' record s₁ s') : Ledger s' := by
  obtain ⟨hri, hrd, _⟩ := h.of_getOrCreateDeposit hd.record_eq
  have hid : proposal.id = id := h.keyed hd.stored
  have hdep := h.deposited_eq hd
  have hrec := received_eq hd
  have hle : ∀ id' denom, s.received id' denom ≤ s'.received id' denom := by
    intro id' denom
    rw [hrec]
    split_ifs
    · exact le_add_of_nonneg_right (hn denom)
    · exact (add_zero _).ge
  obtain ⟨received, started, he, hr, hst⟩ := Keeper.events_of_deposited hd
  have hmem : ∀ {e}, e ∈ s.events → e ∈ s'.events := by
    intro e hm
    rw [he]
    exact List.mem_append_left _ hm
  have htotal : ∀ denom, proposal'.totalDeposit.amountOf denom = s'.deposited id denom := by
    intro denom
    rw [(Coins.of_add hd.total_eq).1, h.total denom hd.stored, hdep, if_pos rfl]
  refine ⟨?_, ?_, ?_, ?_, ?_, ?_, ?_⟩
  · intro id' p hp
    rw [hd.proposals, KVStore.get_set] at hp
    split_ifs at hp with he
    · cases hp
      exact hd.id_eq.trans he.symm
    · exact h.keyed hp
  · intro key deposit hg
    rw [hd.deposits, KVStore.get_set] at hg
    split_ifs at hg with he
    · cases hg
      rw [he]
      exact ⟨rfl, rfl⟩
    · exact h.recorded hg
  · intro id' denom hp
    rw [hd.proposals, KVStore.get_set] at hp
    split_ifs at hp with he
    rw [hdep, if_neg (hid ▸ Ne.symm he), add_zero]
    exact h.absent denom hp
  · intro id' p denom hp
    rw [hd.proposals, KVStore.get_set] at hp
    split_ifs at hp with he
    · cases hp
      rw [he, hid]
      exact htotal denom
    · rw [hdep, if_neg (hid ▸ Ne.symm he), add_zero]
      exact h.total denom hp
  · intro id' denom
    rw [hrec, hdep, h.received]
  · intro id' p hp hvoted
    rw [hd.proposals, KVStore.get_set] at hp
    split_ifs at hp with heq
    · cases hp
      rcases hst with ⟨hst', _⟩ | ⟨_, minDeposit, rfl, _⟩
      · simp [ProposalStatus.Voted, hst'] at hvoted
      · rw [heq, hid, he]
        exact ⟨minDeposit, by simp⟩
    · obtain ⟨m, hm⟩ := h.started hp hvoted
      exact ⟨m, hmem hm⟩
  · intro id' m coin hm hcoin
    -- The voting period has started before, or with the new total.
    have hcases : .votingStarted id' m ∈ s.events ∨
        (id' = id ∧ proposal'.totalDeposit.isAllGTE m = true) := by
      rw [he] at hm
      rcases List.mem_append.mp hm with hm | hm
      · exact .inl hm
      rcases List.mem_append.mp hm with hm | hm
      · rcases hr with ⟨_, rfl⟩ | rfl <;> simp at hm
      · rcases hst with ⟨_, rfl⟩ | ⟨_, minDeposit, rfl, hg⟩
        · cases hm
        · simp only [List.mem_singleton, Event.votingStarted.injEq] at hm
          obtain ⟨rfl, rfl⟩ := hm
          exact .inr ⟨rfl, hg⟩
    rcases hcases with hm | ⟨rfl, hg⟩
    · exact (h.covered hm hcoin).trans (hle ..)
    · rw [hrec, h.received, ← hdep, ← htotal]
      exact Coins.le_of_isAllGTE hg hcoin

theorem tallied (h : Ledger s) {tally : TallyResult} (ht : k.tallyVotes s id = .ok (s', tally)) :
    ∃ proposal, s.proposals.get id = some proposal ∧
      s' = s.setProposal { proposal with finalTallyResult := tally } ∧ Ledger s' := by
  simp only [Keeper.tallyVotes, Result.bind_eq_ok, orFail_eq_ok, Result.pure_eq_ok,
    Prod.mk.injEq] at ht
  obtain ⟨proposal, hp, tally, _, rfl, rfl⟩ := ht
  have hid := h.keyed hp
  have hs : s.proposals.get proposal.id = some proposal := hid.symm ▸ hp
  have hst := h.started hs
  exact ⟨proposal, hp, rfl, h.setProposal hs rfl hst⟩

theorem called (h : Ledger s) (hu : Unpaid ctx s c) (hc : Called k ctx s s' c) : Ledger s' := by
  cases hc with
  | submitted hz _ hs ht =>
    obtain ⟨hz, hn⟩ := hu _ rfl
    exact h.submitted hn (ht ▸ hz) hs
  | endowed hz => exact absurd ((hu _ rfl).1) (by simp [hz])
  | deposited _ hv hd => exact h.deposited (Coins.amountOf_nonneg_of_isValid hv) hd
  | quiet hf _ => exact h.framed hf
  | slashed hf _ _ => exact h.framed hf
  | other hf _ => exact h.framed hf

end Ledger

-- A proposal whose time is over does not change before it is processed.
theorem Called.keeps (h : Ledger s) (hu : Unpaid ctx s c) (hc : Called k ctx s s' c)
    (hp : s.proposals.get id = some proposal) (hdue : proposal.Due ctx) :
    s'.proposals.get id = some proposal := by
  cases hc with
  | submitted hz _ hs _ =>
    obtain ⟨_, hn⟩ := hu _ rfl
    rw [hs.proposals, hs.id, KVStore.get_set_ne]
    · exact hp
    · rintro rfl
      cases hn.symm.trans hp
  | endowed hz => exact absurd ((hu _ rfl).1) (by simp [hz])
  | deposited _ _ hd =>
    rw [hd.proposals, KVStore.get_set_ne]
    · exact hp
    · rw [h.keyed hd.stored]
      rintro rfl
      cases hd.stored.symm.trans hp
      rcases hdue with ⟨_, ht⟩ | ⟨hs, _⟩
      · exact absurd hd.inTime (not_le.mpr ht)
      · cases hs.symm.trans hd.status
  | quiet hf _ => exact hf.proposals ▸ hp
  | slashed hf _ _ => exact hf.proposals ▸ hp
  | other hf _ => exact hf.proposals ▸ hp

-- What is executed for a proposal under the condition.
def Keeper.UnpaidCalls (k : Keeper μ σ) (ctx : Context) (s : State σ) (calls : List (Call σ)) : Prop :=
  Fold.Along (k.call ctx) (Unpaid ctx) calls s

theorem Ledger.run {calls : List (Call σ)} (h : Ledger s) (hu : k.UnpaidCalls ctx s calls)
    (hr : k.runHandler ctx s calls = .ok s') : Ledger s' ∧ ∀ id proposal,
      s.proposals.get id = some proposal → proposal.Due ctx →
        s'.proposals.get id = some proposal := by
  refine hu.holds (I := fun _ s₁ => Ledger s₁ ∧ ∀ id proposal,
      s.proposals.get id = some proposal → proposal.Due ctx →
        s₁.proposals.get id = some proposal) ?_ ⟨h, fun _ _ hp _ => hp⟩ hr
  rintro c l s₁ s₂ ⟨h₁, hk⟩ hu hc
  have hc := Keeper.of_call hc
  exact ⟨h₁.called hu hc, fun id proposal hp hdue => hc.keeps h₁ hu (hk id proposal hp hdue) hdue⟩

-- The proposals that are still to be processed are as they were read.
structure Sweep (ctx : Context) (proposals : List Proposal) (s : State σ) : Prop where
  ledger : Ledger s
  ids    : (proposals.map (·.id)).Nodup
  fresh  : ∀ proposal ∈ proposals, proposal.Due ctx →
    s.proposals.get proposal.id = some proposal

namespace Sweep

variable {proposals : List Proposal}

theorem of_ledger (h : Ledger s) : Sweep ctx s.getProposals s := by
  have hm : ∀ e ∈ s.proposals.entries, e.2.id = e.1 :=
    fun e he => h.keyed (KVStore.mem_entries_iff.mp he)
  refine ⟨h, ?_, ?_⟩
  · have hids : s.getProposals.map (·.id) = s.proposals.entries.map (·.1) := by
      rw [State.getProposals, List.map_map]
      exact List.map_congr_left hm
    rw [hids]
    exact List.pairwise_map.mpr (s.proposals.sorted.imp fun hlt => hlt.ne)
  · intro proposal hp _
    obtain ⟨e, he, rfl⟩ := List.mem_map.mp hp
    rw [hm e he]
    exact KVStore.mem_entries_iff.mp he

theorem tail (h : Sweep ctx (proposal :: proposals) s) (hl : Ledger s')
    (hk : ∀ id q, id ≠ proposal.id → s.proposals.get id = some q → q.Due ctx →
      s'.proposals.get id = some q) : Sweep ctx proposals s' := by
  obtain ⟨hn, hids⟩ := List.nodup_cons.mp h.ids
  refine ⟨hl, hids, fun q hq hdue => ?_⟩
  refine hk q.id q ?_ (h.fresh q (List.mem_cons_of_mem _ hq) hdue) hdue
  exact fun he => hn (List.mem_map.mpr ⟨q, hq, he⟩)

theorem stored (h : Sweep ctx (proposal :: proposals) s) (hdue : proposal.Due ctx) :
    s.proposals.get proposal.id = some proposal :=
  h.fresh proposal (List.mem_cons_self ..) hdue

end Sweep

-- The messages of a passed proposal are executed, and its deposit is disposed of.
theorem Executed.ledger (he : Executed k ctx s proposal s') (h : Ledger s) {q : Proposal}
    (hq : s.proposals.get proposal.id = some q)
    (ht : proposal.totalDeposit = q.totalDeposit) (hs : q.status = .votingPeriod) (hdue : q.Due ctx)
    (hu : ∀ calls, k.callsOf proposal = some calls → (k.runHandler ctx s calls).isOk = true →
      k.UnpaidCalls ctx s calls) :
    Ledger s' ∧ (∃ q', s'.proposals.get proposal.id = some q' ∧
        proposal.totalDeposit = q'.totalDeposit) ∧
      (∃ minDeposit, .votingStarted proposal.id minDeposit ∈ s'.events) ∧
      ∀ id p, id ≠ proposal.id → s.proposals.get id = some p → p.Due ctx →
        s'.proposals.get id = some p := by
  have hstarted := h.started hq (.inl hs)
  cases he with
  | failed _ he =>
    rcases he with rfl | rfl
    · exact ⟨h, ⟨q, hq, ht⟩, hstarted, fun _ _ _ hp _ => hp⟩
    · refine ⟨h.setProposal hq ht (by simp [ProposalStatus.Voted]), ⟨_, KVStore.get_set_self, rfl⟩,
        hstarted, fun id p hne hp _ => ?_⟩
      exact (KVStore.get_set_ne hne).trans hp
  | executed hc hr htr =>
    obtain ⟨h₁, hk⟩ := h.run (hu _ hc (Result.isOk_iff.mpr ⟨_, hr⟩)) hr
    have hpaid := Keeper.of_executeTreasuryTransfer htr
    have hq' := hpaid.proposals ▸ hk _ _ hq hdue
    have h₂ := h₁.paidOut hpaid
    exact ⟨h₂, ⟨q, hq', ht⟩, h₂.started hq' (.inl hs), fun id p _ hp hd =>
      hpaid.proposals ▸ hk id p hp hd⟩

theorem Sweep.processed {proposals : List Proposal}
    (h : Sweep ctx (proposal :: proposals) s)
    (hu : ∀ s₁ calls, k.Passing ctx s proposal s₁ → k.callsOf proposal = some calls →
      (k.runHandler ctx s₁ calls).isOk = true → k.UnpaidCalls ctx s₁ calls)
    (hp : Processed k ctx s proposal s') : Sweep ctx proposals s' := by
  cases hp with
  | skipped _ _ => exact h.tail h.ledger fun _ _ _ hq _ => hq
  | @started params hs ht hg =>
    have hst := h.stored (.inl ⟨hs, ht⟩)
    have hcov : ∀ coin ∈ params.minDeposit, coin.amount ≤ s.received proposal.id coin.denom := by
      intro coin hc
      rw [h.ledger.received, ← h.ledger.total _ hst]
      exact Coins.le_of_isAllGTE hg hc
    have hl : Ledger ((s.emit (.votingStarted proposal.id params.minDeposit)).setProposal
        (proposal.startVoting ctx params)) :=
      (h.ledger.emit_votingStarted hcov).setProposal hst rfl fun _ =>
        ⟨_, List.mem_append_right _ (List.mem_singleton_self _)⟩
    exact h.tail hl fun id q hne hq _ => (KVStore.get_set_ne hne).trans hq
  | @expired s₁ hs ht hr =>
    have hst := h.stored (.inl ⟨hs, ht⟩)
    have hpaid := Keeper.of_refundDeposits hr
    have hst₁ : s₁.proposals.get proposal.id = some proposal := hpaid.proposals ▸ hst
    refine h.tail ((h.ledger.paidOut hpaid).setProposal hst₁ rfl (by simp [ProposalStatus.Voted]))
      fun id q hne hq _ => ?_
    exact (KVStore.get_set_ne hne).trans (hpaid.proposals ▸ hq)
  | @rejected s₁ s₂ tally hs ht hv hr =>
    have hst := h.stored (.inr ⟨hs, ht⟩)
    obtain ⟨q, hq, rfl, h₁⟩ := h.ledger.tallied hv
    cases hst.symm.trans hq
    have hpaid := Keeper.of_refundDeposits hr
    have hst₂ : s₂.proposals.get proposal.id = some { proposal with finalTallyResult := tally } :=
      hpaid.proposals ▸ KVStore.get_set_self
    have h₂ := h₁.paidOut hpaid
    have hev := h₂.started hst₂ (.inl hs)
    refine h.tail (h₂.setProposal hst₂ rfl fun _ => hev) fun id p hne hp _ => ?_
    refine (KVStore.get_set_ne hne).trans (hpaid.proposals ▸ ?_)
    exact (KVStore.get_set_ne hne).trans hp
  | @passed s₁ s₂ tally hpass hv he =>
    have hs := hpass.1
    have ht := hpass.2.1
    have hst := h.stored (.inr ⟨hs, ht⟩)
    obtain ⟨q, hq, rfl, h₁⟩ := h.ledger.tallied hv
    cases hst.symm.trans hq
    obtain ⟨h₂, ⟨q', hq', ht'⟩, hev, hk⟩ := he.ledger h₁ KVStore.get_set_self rfl hs
      (.inr ⟨hs, ht⟩) (hu _ · hpass)
    refine h.tail (h₂.setProposal hq' ht' fun _ => hev) fun id p hne hp hd => ?_
    refine (KVStore.get_set_ne hne).trans (hk id p hne ?_ hd)
    exact (KVStore.get_set_ne hne).trans hp

-- The end of a block keeps the ledger.
theorem Ledger.endBlock (h : Ledger s)
    (hu : k.Executions k.UnpaidCalls s (.endBlock ctx)) (he : k.endBlocker ctx s = .ok s') :
    Ledger s' := by
  have hs := hu.holds (I := fun proposals s => Sweep ctx proposals s) ?_ (Sweep.of_ledger h) he
  · exact hs.ledger
  · exact fun h₁ hu hp => h₁.processed hu (Keeper.of_processProposal hp)

theorem ledger_invariant (k : Keeper μ σ) : (system k).Invariant (k.Calls Unpaid) Ledger where
  init hi := .of_empty hi
  step {s a s'} h hg hs := by
    cases a with
    | call ctx c => exact h.called (hg.1 ctx c rfl) (Keeper.of_call hs.2)
    | endBlock ctx => exact h.endBlock hg.2 hs.2

-- Without initial deposits the deposits of every proposal are accounted for.
theorem deposits_accounted (k : Keeper μ σ) {s : State σ}
    (hs : (system k).Run (k.Calls Unpaid) s) : s.Accounted :=
  ((ledger_invariant k).holds hs).accounted

namespace Sample

-- The deposit comes with a message of its own.
def deposited : State Unit :=
  run [submit 2 1 100 [], deposit 10, vote]

theorem deposited_run : (system keeper).Run (keeper.Calls Unpaid) deposited := by
  have h₁ : (system keeper).Run (keeper.Calls Unpaid) (keeper.next genesis (submit 2 1 100 [])) := by
    refine run_step (.init genesis_empty) (Keeper.calls_of_call ?_) (by decide +kernel)
    rintro _ he
    cases he
    exact ⟨rfl, rfl⟩
  have h₂ : (system keeper).Run (keeper.Calls Unpaid)
      (keeper.next (keeper.next genesis (submit 2 1 100 [])) (deposit 10)) := by
    refine run_step h₁ (Keeper.calls_of_call ?_) (by decide +kernel)
    rintro _ he
    cases he
  have hv : keeper.Calls Unpaid (keeper.next (keeper.next genesis (submit 2 1 100 [])) (deposit 10))
      vote := by
    refine Keeper.calls_of_call ?_
    rintro _ he
    cases he
  exact run_step h₂ hv (by decide +kernel)

end Sample

theorem deposited_accounted : Sample.deposited.Accounted :=
  deposits_accounted Sample.keeper Sample.deposited_run

namespace Sample

-- A proposal with half of the minimal deposit.
def endowed : State Unit :=
  run [submit 1 2 1 [⟨"stake", 5⟩]]

end Sample

-- The initial deposit is counted twice, and starts the voting period.
theorem initial_deposit_counted_twice : (system Sample.keeper).Reachable Sample.endowed ∧
    ((Sample.endowed.proposals.get 1).map (·.status) = some .votingPeriod ∧
      Sample.endowed.received 1 "stake" = 5) ∧ ¬Sample.endowed.Accounted := by
  refine ⟨Sample.run_reachable (.init Sample.genesis_empty) (by decide +kernel),
    by decide +kernel, fun h => ?_⟩
  have ht : (Sample.endowed.proposals.get 1).map (·.totalDeposit.amountOf "stake") = some 10 := by
    decide +kernel
  have hd : Sample.endowed.deposited 1 "stake" = 5 := by decide +kernel
  obtain ⟨proposal, hp, ht⟩ := Option.map_eq_some_iff.mp ht
  have he := h.total 1 proposal "stake" hp
  rw [ht, hd] at he
  omega

end Governance
