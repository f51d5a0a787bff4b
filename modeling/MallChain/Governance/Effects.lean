import MallChain.Governance.System

namespace Governance

open Sdk

variable {μ σ : Type} {k : Keeper μ σ} {ctx : Context} {s s₁ s' : State σ}
variable {proposal : Proposal} {id : UInt64} {depositor : String} {amount : Coins} {err : Option Failure}

-- What a call does to the store of the module.

-- Votes and parameters may change, and what others keep.
structure Framed (s s' : State σ) : Prop where
  proposals  : s'.proposals = s.proposals
  deposits   : s'.deposits = s.deposits
  events     : s'.events = s.events
  proposalID : s'.proposalID = s.proposalID

-- A proposal is stored under the next id.
structure Submitted (s : State σ) (proposal : Proposal) (s' : State σ) : Prop where
  id         : proposal.id = s.proposalID
  status     : proposal.status = .depositPeriod
  proposals  : s'.proposals = s.proposals.set proposal.id proposal
  deposits   : s'.deposits = s.deposits
  events     : s'.events = s.events
  proposalID : s'.proposalID = s.proposalID + 1
  bank       : s'.bank = s.bank

-- Coins are added to a deposit and to the total of its proposal, which may start its voting period.
structure Deposited (k : Keeper μ σ) (ctx : Context) (s : State σ) (id : UInt64)
    (depositor : String) (amount : Coins) (proposal proposal' : Proposal) (record : Deposit)
    (s₁ s' : State σ) : Prop where
  stored     : s.proposals.get id = some proposal
  status     : proposal.status = .depositPeriod
  inTime     : ctx.blockTime ≤ proposal.depositEndTime
  collect    : k.collect s id depositor amount = .ok s₁
  record_eq  : s.getOrCreateDeposit id depositor amount = .ok record
  total_eq   : proposal.totalDeposit.add amount = .ok proposal'.totalDeposit
  id_eq      : proposal'.id = proposal.id
  proposals  : s'.proposals = s.proposals.set proposal.id proposal'
  deposits   : s'.deposits = s.deposits.set (join record.proposalId record.depositor) record
  bank       : s'.bank = s₁.bank
  proposalID : s'.proposalID = s.proposalID
  entered    : (proposal'.status = .depositPeriod ∧ s'.events = s₁.events) ∨
    (proposal'.status = .votingPeriod ∧ ∃ minDeposit,
      s'.events = s₁.events ++ [.votingStarted id minDeposit] ∧
        proposal'.totalDeposit.isAllGTE minDeposit = true)

-- What can come of a call. A proposal with an initial deposit is stored and paid for at once.
inductive Called (k : Keeper μ σ) (ctx : Context) (s s' : State σ) : Call σ → Prop
  | submitted {msg : MsgSubmitProposal} {proposal : Proposal} :
    msg.initialDeposit.isZero = true → msg.initialDeposit.isValid = true →
    Submitted s proposal s' → proposal.totalDeposit = msg.initialDeposit →
    Called k ctx s s' (.own (.submitProposal msg))
  | endowed {msg : MsgSubmitProposal} :
    msg.initialDeposit.isZero = false → Called k ctx s s' (.own (.submitProposal msg))
  | deposited {msg : MsgDeposit} {addr : AccAddress} {proposal proposal' : Proposal}
    {record : Deposit} {s₁ : State σ} :
    k.accAddressFromBech32 msg.depositor = some addr → msg.amount.isValid = true →
    Deposited k ctx s msg.proposalId msg.depositor msg.amount proposal proposal' record s₁ s' →
    Called k ctx s s' (.own (.deposit msg))
  | quiet {c : Call σ} : Framed s s' → s'.bank = s.bank → Called k ctx s s' c
  | slashed {c : Call σ} {stakingKeeper : StakingKeeper σ} {valAddr : List UInt8}
    {height power : ℤ} {fraction : LegacyDec} {rest : σ} :
    Framed s s' → stakingKeeper ∈ k.stakingKeeper →
    stakingKeeper.slash s.bank s.rest valAddr height power fraction = .ok (s'.bank, rest) →
    Called k ctx s s' c
  | other {run : Context → Bank → σ → Result (Bank × σ)} :
    Framed s s' → run ctx s.bank s.rest = .ok (s'.bank, s'.rest) → Called k ctx s s' (.other run)

namespace Keeper

theorem of_collect (h : k.collect s id depositor amount = .ok s') :
    (amount.isZero = true ∧ s' = s) ∨
      ∃ addr bank, k.accAddressFromBech32 depositor = some addr ∧
        s.bank.sendCoins addr k.moduleAddr amount = .ok bank ∧
          s' = { s with bank }.emit (.received id depositor amount) := by
  simp only [collect] at h
  split_ifs at h with hz
  · cases h
    exact .inl ⟨hz, rfl⟩
  · simp only [Result.bind_eq_ok, orFail_eq_ok, Result.pure_eq_ok] at h
    obtain ⟨addr, ha, bank, hb, he⟩ := h
    exact .inr ⟨addr, bank, ha, hb, he.symm⟩

-- The events of a deposit: what is received, and that the voting starts when the total is enough.
theorem events_of_deposited {record : Deposit} {s₁ : State σ} {proposal proposal' : Proposal}
    (hd : Deposited k ctx s id depositor amount proposal proposal' record s₁ s') :
    ∃ received started, s'.events = s.events ++ (received ++ started) ∧
      (amount.isZero = true ∧ received = [] ∨ received = [.received id depositor amount]) ∧
      (proposal'.status = .depositPeriod ∧ started = [] ∨
        proposal'.status = .votingPeriod ∧ ∃ minDeposit, started = [.votingStarted id minDeposit] ∧
          proposal'.totalDeposit.isAllGTE minDeposit = true) := by
  have hcollect : ∃ received, s₁.events = s.events ++ received ∧
      (amount.isZero = true ∧ received = [] ∨ received = [.received id depositor amount]) := by
    rcases of_collect hd.collect with ⟨hz, rfl⟩ | ⟨_, _, _, _, rfl⟩
    · exact ⟨[], (List.append_nil _).symm, .inl ⟨hz, rfl⟩⟩
    · exact ⟨_, rfl, .inr rfl⟩
  obtain ⟨received, he₁, hr⟩ := hcollect
  rcases hd.entered with ⟨hst, he⟩ | ⟨hst, minDeposit, he, hg⟩
  · exact ⟨received, [], by rw [he, he₁, List.append_nil], hr, .inl ⟨hst, rfl⟩⟩
  · exact ⟨received, _, by rw [he, he₁, List.append_assoc], hr, .inr ⟨hst, minDeposit, rfl, hg⟩⟩

theorem of_addDeposit (h : k.addDeposit ctx s id depositor amount = .ok s') :
    ∃ proposal proposal' record s₁,
      Deposited k ctx s id depositor amount proposal proposal' record s₁ s' := by
  simp only [addDeposit, Result.bind_eq_ok, failIf_eq_ok, orFail_eq_ok, not_not] at h
  obtain ⟨proposal, hp, _, hs, _, ht, record, hr, s₁, hc, total, hd, params, _, h⟩ := h
  have hf : s₁.proposals = s.proposals ∧ s₁.deposits = s.deposits ∧
      s₁.proposalID = s.proposalID := by
    rcases of_collect hc with ⟨_, rfl⟩ | ⟨_, _, _, _, rfl⟩ <;> exact ⟨rfl, rfl, rfl⟩
  obtain ⟨hfp, hfd, hfi⟩ := hf
  let proposal' := { proposal with totalDeposit := total }
  split_ifs at h with hg
  · cases h
    refine ⟨proposal, proposal'.startVoting ctx params, record, s₁, hp, hs, not_lt.mp ht, hc, hr,
      hd, rfl, ?_, ?_, rfl, hfi, .inr ⟨rfl, params.minDeposit, rfl, hg⟩⟩
    · rw [← hfp]
      rfl
    · rw [← hfd]
      rfl
  · cases h
    refine ⟨proposal, proposal', record, s₁, hp, hs, not_lt.mp ht, hc, hr, hd, rfl, ?_, ?_, rfl,
      hfi, .inl ⟨hs, rfl⟩⟩
    · rw [← hfp]
      rfl
    · rw [← hfd]
      rfl

theorem of_submitProposal (h : submitProposal ctx s proposal = .ok (s', id)) :
    ∃ proposal', Submitted s proposal' s' ∧ id = s.proposalID ∧
      proposal'.totalDeposit = proposal.totalDeposit := by
  simp only [submitProposal, Result.bind_eq_ok, orFail_eq_ok, Result.pure_eq_ok,
    Prod.mk.injEq] at h
  obtain ⟨params, _, hs, rfl⟩ := h
  refine ⟨{ proposal with
    id := s.proposalID
    submitTime := ctx.blockTime
    status := .depositPeriod
    depositEndTime := ctx.blockTime + params.getDepositPeriod }, ?_, rfl, rfl⟩
  subst hs
  exact ⟨rfl, rfl, rfl, rfl, rfl, rfl, rfl⟩

theorem of_addVote {voter : String} {options : List WeightedVoteOption} {metadata : String}
    (h : addVote ctx s id voter options metadata = .ok s') :
    Framed s s' ∧ s'.bank = s.bank := by
  simp only [addVote, Result.bind_eq_ok, Result.pure_eq_ok] at h
  obtain ⟨_, _, _, _, _, _, _, _, rfl⟩ := h
  exact ⟨⟨rfl, rfl, rfl, rfl⟩, rfl⟩

theorem of_slashValidatorProposal {validatorAddr : String} {slashPercentage : UInt64}
    (h : k.slashValidatorProposal ctx s validatorAddr slashPercentage = .ok s') :
    Framed s s' ∧ (s'.bank = s.bank ∨ ∃ stakingKeeper ∈ k.stakingKeeper,
      ∃ valAddr height power fraction rest,
        stakingKeeper.slash s.bank s.rest valAddr height power fraction = .ok (s'.bank, rest)) := by
  simp only [slashValidatorProposal, Result.bind_eq_ok, orFail_eq_ok] at h
  obtain ⟨stakingKeeper, hk, _, _, valAddr, _, tokens, _, fraction, _, dec, _, slashAmount, _, h⟩ := h
  split_ifs at h
  · simp only [Result.bind_eq_ok, Result.pure_eq_ok] at h
    obtain ⟨_, _, ⟨bank, rest⟩, hs, rfl⟩ := h
    exact ⟨⟨rfl, rfl, rfl, rfl⟩, .inr ⟨stakingKeeper, hk, _, _, _, _, _, hs⟩⟩
  · cases h
    exact ⟨⟨rfl, rfl, rfl, rfl⟩, .inl rfl⟩

theorem of_validateBasic_submit {msg : MsgSubmitProposal} {u : Unit}
    (h : msg.validateBasic k = .ok u) : msg.initialDeposit.isValid = true := by
  simp only [MsgSubmitProposal.validateBasic, Result.bind_eq_ok, failIf_eq_ok] at h
  obtain ⟨_, _, _, _, _, _, _, _, _, _, _, hv, _⟩ := h
  exact Bool.eq_true_of_not_eq_false hv

theorem of_validateBasic_deposit {msg : MsgDeposit} {u : Unit} (h : msg.validateBasic k = .ok u) :
    (∃ addr, k.accAddressFromBech32 msg.depositor = some addr) ∧ msg.amount.isValid = true := by
  simp only [MsgDeposit.validateBasic, Result.bind_eq_ok, failIf_eq_ok, orFail_eq_ok] at h
  obtain ⟨_, _, addr, ha, _, hv, _⟩ := h
  exact ⟨⟨addr, ha⟩, Bool.eq_true_of_not_eq_false hv⟩

theorem of_call {c : Call σ} (h : k.call ctx s c = .ok s') : Called k ctx s s' c := by
  cases c with
  | other run =>
    simp only [call, Result.bind_eq_ok, Result.pure_eq_ok] at h
    obtain ⟨⟨bank, rest⟩, hr, rfl⟩ := h
    exact .other ⟨rfl, rfl, rfl, rfl⟩ hr
  | own msg =>
    simp only [call, deliver, Result.bind_eq_ok] at h
    obtain ⟨_, hv, h⟩ := h
    cases msg with
    | submitProposal msg =>
      simp only [handle, Result.bind_eq_ok] at h
      obtain ⟨⟨s₁, id⟩, hs, h⟩ := h
      cases hz : msg.initialDeposit.isZero with
      | false => exact .endowed hz
      | true =>
        simp only [hz, if_true, Result.pure_eq_ok] at h
        subst h
        obtain ⟨proposal, hp, _, ht⟩ := of_submitProposal hs
        exact .submitted hz (of_validateBasic_submit hv) hp ht
    | vote msg =>
      obtain ⟨hf, hb⟩ := of_addVote h
      exact .quiet hf hb
    | voteWeighted msg =>
      obtain ⟨hf, hb⟩ := of_addVote h
      exact .quiet hf hb
    | deposit msg =>
      obtain ⟨⟨addr, ha⟩, hm⟩ := of_validateBasic_deposit hv
      obtain ⟨proposal, proposal', record, s₁, hd⟩ := of_addDeposit h
      exact .deposited ha hm hd
    | updateParams msg =>
      simp only [handle, Result.bind_eq_ok, Result.pure_eq_ok] at h
      obtain ⟨_, _, rfl⟩ := h
      exact .quiet ⟨rfl, rfl, rfl, rfl⟩ rfl
    | slashValidator msg =>
      simp only [handle, Result.bind_eq_ok] at h
      obtain ⟨_, _, h⟩ := h
      obtain ⟨hf, hb | ⟨_, hk, _, _, _, _, _, hs⟩⟩ := of_slashValidatorProposal h
      · exact .quiet hf hb
      · exact .slashed hf hk hs

theorem runHandler_append {calls calls' : List (Call σ)} :
    k.runHandler ctx s (calls ++ calls') = .ok s' ↔
      ∃ s₁, k.runHandler ctx s calls = .ok s₁ ∧ k.runHandler ctx s₁ calls' = .ok s' := by
  simp only [runHandler, List.foldlM_append, Result.bind_eq_ok]

theorem mapM_cons_eq_some {router : μ → Option (List (Call σ))} {msgAny : Any}
    {messages : List Any} {handlers : List (List (Call σ))} :
    (msgAny :: messages).mapM (k.handlerOf router) = some handlers ↔
      ∃ handler handlers', k.handlerOf router msgAny = some handler ∧
        messages.mapM (k.handlerOf router) = some handlers' ∧ handlers = handler :: handlers' := by
  simp only [List.mapM_cons, Option.bind_eq_bind, Option.bind_eq_some_iff, Option.pure_def,
    Option.some.injEq, eq_comm (b := handlers), exists_and_left]

-- The messages of a proposal are executed when all of them have a handler and all calls succeed.
theorem runMessages_eq_ok {router : μ → Option (List (Call σ))} {messages : List Any} {i : ℕ} :
    (k.runMessages ctx router i s messages).2 = .ok s' ↔
      ∃ handlers, messages.mapM (k.handlerOf router) = some handlers ∧
        k.runHandler ctx s handlers.flatten = .ok s' := by
  induction messages generalizing i s with
  | nil => simp [runMessages, runHandler, pure, Except.pure]
  | cons msgAny messages ih =>
    simp only [mapM_cons_eq_some, handlerOf]
    cases hu : k.unpackAny msgAny with
    | error _ => simp [runMessages_unpack hu, Except.toOption]
    | ok msg =>
      cases hr : router msg with
      | none => simp [runMessages_noHandler hu hr, hr, Except.toOption]
      | some handler =>
        -- The first handler takes its part of the calls.
        have hcalls : (∃ handlers, (∃ handler' handlers',
            (Except.ok msg : Except String μ).toOption.bind router = some handler' ∧
              messages.mapM (k.handlerOf router) = some handlers' ∧
                handlers = handler' :: handlers') ∧
            k.runHandler ctx s handlers.flatten = .ok s') ↔
            ∃ s₁, k.runHandler ctx s handler = .ok s₁ ∧
              ∃ handlers', messages.mapM (k.handlerOf router) = some handlers' ∧
                k.runHandler ctx s₁ handlers'.flatten = .ok s' := by
          constructor
          · rintro ⟨_, ⟨handler', handlers', hh, hm, rfl⟩, hs⟩
            have he : router msg = some handler' := hh
            cases hr.symm.trans he
            obtain ⟨s₁, h₁, hs⟩ := runHandler_append.mp hs
            exact ⟨s₁, h₁, handlers', hm, hs⟩
          · rintro ⟨s₁, h₁, handlers', hm, hs⟩
            exact ⟨_, ⟨handler, handlers', hr, hm, rfl⟩, runHandler_append.mpr ⟨s₁, h₁, hs⟩⟩
        rw [hcalls]
        cases hs : k.runHandler ctx s handler with
        | error _ => simp [runMessages_handler hu hr hs]
        | ok s₁ => simp [runMessages_ok hu hr hs, ih]

end Keeper

-- Coins are paid out of the module account, or fail to.
def Event.isPayout : Event → Bool
  | .received .. => false
  | .votingStarted .. => false
  | _ => true

structure PaidOut (s s' : State σ) : Prop where
  proposals  : s'.proposals = s.proposals
  deposits   : s'.deposits = s.deposits
  proposalID : s'.proposalID = s.proposalID
  events     : ∃ l, s'.events = s.events ++ l ∧ ∀ e ∈ l, e.isPayout = true

namespace PaidOut

theorem refl (s : State σ) : PaidOut s s :=
  ⟨rfl, rfl, rfl, [], by simp, by simp⟩

theorem trans (h : PaidOut s s₁) (h' : PaidOut s₁ s') : PaidOut s s' := by
  obtain ⟨l, he, hl⟩ := h.events
  obtain ⟨l', he', hl'⟩ := h'.events
  refine ⟨h'.proposals.trans h.proposals, h'.deposits.trans h.deposits,
    h'.proposalID.trans h.proposalID, l ++ l', by rw [he', he, List.append_assoc], ?_⟩
  simp only [List.mem_append]
  rintro e (hm | hm)
  · exact hl e hm
  · exact hl' e hm

theorem emit (h : PaidOut s s') {e : Event} (he : e.isPayout = true) : PaidOut s (s'.emit e) :=
  h.trans ⟨rfl, rfl, rfl, [e], rfl, by simpa using he⟩

end PaidOut

namespace Keeper

theorem of_executeTreasuryTransfer (h : k.executeTreasuryTransfer s proposal = .ok (s', err)) :
    PaidOut s s' := by
  simp only [executeTreasuryTransfer] at h
  split_ifs at h
  · cases h
    exact .refl s
  · split at h
    · cases h
      exact ⟨rfl, rfl, rfl, _, rfl, by simp [Event.isPayout]⟩
    · cases h
      exact ⟨rfl, rfl, rfl, _, rfl, by simp [Event.isPayout]⟩
    · cases h

theorem of_refundDeposit {deposit : Deposit} (h : k.refundDeposit s id deposit = .ok (s', err)) :
    PaidOut s s' := by
  simp only [refundDeposit] at h
  split at h
  · cases h
    exact ⟨rfl, rfl, rfl, _, rfl, by simp [Event.isPayout]⟩
  · split at h
    · cases h
      exact ⟨rfl, rfl, rfl, _, rfl, by simp [Event.isPayout]⟩
    · cases h
      exact ⟨rfl, rfl, rfl, _, rfl, by simp [Event.isPayout]⟩
    · cases h

theorem of_refundEach {deposits : List Deposit} (h : k.refundEach id deposits s = .ok (s', err)) :
    PaidOut s s' := by
  induction deposits generalizing s err with
  | nil =>
    cases h
    exact .refl _
  | cons deposit deposits ih =>
    simp only [refundEach, Result.bind_eq_ok, Result.pure_eq_ok, Prod.mk.injEq] at h
    obtain ⟨⟨s₁, err₁⟩, h₁, ⟨s₂, err₂⟩, h₂, rfl, _⟩ := h
    exact (of_refundDeposit h₁).trans (ih h₂)

theorem of_refundDeposits (h : k.refundDeposits s id = .ok s') : PaidOut s s' := by
  simp only [refundDeposits, Result.bind_eq_ok, Result.pure_eq_ok] at h
  obtain ⟨⟨s₁, err⟩, he, rfl⟩ := h
  split_ifs
  · exact (of_refundEach he).emit rfl
  · exact of_refundEach he

theorem callsOf_eq_some {calls : List (Call σ)} {router : μ → Option (List (Call σ))}
    (hr : k.msgRouter = some router) : k.callsOf proposal = some calls ↔
      ∃ handlers, proposal.messages.mapM (k.handlerOf router) = some handlers ∧
        handlers.flatten = calls := by
  simp [callsOf, hr, Option.bind_eq_some_iff]

-- The calls of the messages are all done, or the state is kept but for the status.
theorem of_executeProposal (h : k.executeProposal ctx s proposal = .ok (s', err)) :
    (err = none ∧ ∃ calls, k.callsOf proposal = some calls ∧ k.runHandler ctx s calls = .ok s') ∨
      (err ≠ none ∧
        (∀ calls s₁, k.callsOf proposal = some calls → k.runHandler ctx s calls ≠ .ok s₁) ∧
        (s' = s ∨ s' = s.setProposal { proposal with status := .failed })) := by
  simp only [executeProposal] at h
  cases hr : k.msgRouter with
  | none =>
    simp only [hr] at h
    cases h
    exact .inr ⟨by simp, by simp [callsOf, hr], .inl rfl⟩
  | some router =>
    simp only [hr] at h
    have hno : ∀ {halt : Halt}, (k.runMessages ctx router 0 s proposal.messages).2 = .error halt →
        ∀ calls s₁, k.callsOf proposal = some calls → k.runHandler ctx s calls ≠ .ok s₁ := by
      intro halt he calls s₁ hc ho
      obtain ⟨handlers, hm, rfl⟩ := (callsOf_eq_some hr).mp hc
      cases he.symm.trans (runMessages_eq_ok.mpr ⟨handlers, hm, ho⟩)
    split at h
    case h_1 he =>
      cases h
      obtain ⟨handlers, hm, ho⟩ := runMessages_eq_ok.mp he
      exact .inl ⟨rfl, handlers.flatten, (callsOf_eq_some hr).mpr ⟨handlers, hm, rfl⟩, ho⟩
    case h_2 he =>
      cases h
      exact .inr ⟨by simp, hno he, .inl rfl⟩
    case h_3 he =>
      cases h
      exact .inr ⟨by simp, hno he, .inl rfl⟩
    case h_4 he =>
      cases h
      exact .inr ⟨by simp, hno he, .inr rfl⟩
    case h_5 => cases h

end Keeper

-- What can come of a passed proposal: its messages are executed and its deposit is disposed of.
inductive Executed (k : Keeper μ σ) (ctx : Context) (s : State σ) (proposal : Proposal) :
    State σ → Prop
  | failed {s' : State σ} :
    (∀ calls s₁, k.callsOf proposal = some calls → k.runHandler ctx s calls ≠ .ok s₁) →
    s' = s ∨ s' = s.setProposal { proposal with status := .failed } →
    Executed k ctx s proposal s'
  | executed {calls : List (Call σ)} {s₁ s₂ : State σ} {err : Option Failure} :
    k.callsOf proposal = some calls → k.runHandler ctx s calls = .ok s₁ →
    k.executeTreasuryTransfer s₁ proposal = .ok (s₂, err) →
    Executed k ctx s proposal s₂

-- What can come of a proposal at the end of a block.
inductive Processed (k : Keeper μ σ) (ctx : Context) (s : State σ) (proposal : Proposal) :
    State σ → Prop
  | skipped : (proposal.status = .depositPeriod → ctx.blockTime ≤ proposal.depositEndTime) →
    (proposal.status = .votingPeriod → ctx.blockTime ≤ proposal.votingEndTime) →
    Processed k ctx s proposal s
  | started {params : Params} :
    proposal.status = .depositPeriod → proposal.depositEndTime < ctx.blockTime →
    proposal.totalDeposit.isAllGTE params.minDeposit = true →
    Processed k ctx s proposal ((s.setProposal (proposal.startVoting ctx params)).emit
      (.votingStarted proposal.id params.minDeposit))
  | expired {s₁ : State σ} :
    proposal.status = .depositPeriod → proposal.depositEndTime < ctx.blockTime →
    k.refundDeposits s proposal.id = .ok s₁ →
    Processed k ctx s proposal (s₁.setProposal { proposal with status := .failed })
  | rejected {s₁ s₂ : State σ} {tally : TallyResult} :
    proposal.status = .votingPeriod → proposal.votingEndTime < ctx.blockTime →
    k.tallyVotes s proposal.id = .ok (s₁, tally) → k.refundDeposits s₁ proposal.id = .ok s₂ →
    Processed k ctx s proposal
      (s₂.setProposal { proposal with status := .rejected, finalTallyResult := tally })
  | passed {s₁ s₂ : State σ} {tally : TallyResult} :
    k.Passing ctx s proposal s₁ → k.tallyVotes s proposal.id = .ok (s₁, tally) →
    Executed k ctx s₁ { proposal with status := .passed, finalTallyResult := tally } s₂ →
    Processed k ctx s proposal
      (s₂.setProposal { proposal with status := .passed, finalTallyResult := tally })

namespace Keeper

theorem of_executePassed (h : k.executePassed ctx s proposal = .ok s') :
    Executed k ctx s proposal s' := by
  simp only [executePassed, Result.bind_eq_ok] at h
  obtain ⟨⟨s₁, err⟩, he, h⟩ := h
  rcases of_executeProposal he with ⟨rfl, calls, hc, hr⟩ | ⟨hn, hno, hs⟩
  · simp only [Result.bind_eq_ok, Result.pure_eq_ok] at h
    obtain ⟨⟨s₂, err⟩, ht, rfl⟩ := h
    exact .executed hc hr ht
  · cases err with
    | none => exact absurd rfl hn
    | some e =>
      simp only [Result.pure_eq_ok] at h
      exact .failed hno (h ▸ hs)

theorem of_determineProposalOutcome {tally : TallyResult} {params : Params}
    {outcome : ProposalStatus} (h : k.determineProposalOutcome s tally params = .ok outcome) :
    outcome = .passed ∨ outcome = .rejected := by
  simp only [determineProposalOutcome, Result.bind_eq_ok] at h
  obtain ⟨_, _, h⟩ := h
  split_ifs at h
  · cases h
    exact .inr rfl
  · simp only [Result.bind_eq_ok] at h
    obtain ⟨_, _, h⟩ := h
    split_ifs at h
    · cases h
      exact .inr rfl
    · simp only [Result.bind_eq_ok] at h
      obtain ⟨_, _, h⟩ := h
      split_ifs at h
      · cases h
        exact .inr rfl
      · simp only [Result.bind_eq_ok, Result.pure_eq_ok] at h
        obtain ⟨_, _, rfl⟩ := h
        split_ifs
        · exact .inl rfl
        · exact .inr rfl

theorem of_processDepositPeriodEnd (hs : proposal.status = .depositPeriod)
    (ht : proposal.depositEndTime < ctx.blockTime)
    (h : k.processDepositPeriodEnd ctx s proposal = .ok s') : Processed k ctx s proposal s' := by
  simp only [processDepositPeriodEnd, Result.bind_eq_ok, orFail_eq_ok] at h
  obtain ⟨params, _, h⟩ := h
  split_ifs at h with hg
  · cases h
    exact .started hs ht hg
  · simp only [Result.bind_eq_ok, Result.pure_eq_ok] at h
    obtain ⟨s₁, hr, rfl⟩ := h
    exact .expired hs ht hr

theorem of_processVotingPeriodEnd (hs : proposal.status = .votingPeriod)
    (ht : proposal.votingEndTime < ctx.blockTime)
    (h : k.processVotingPeriodEnd ctx s proposal = .ok s') : Processed k ctx s proposal s' := by
  simp only [processVotingPeriodEnd, Result.bind_eq_ok, orFail_eq_ok] at h
  obtain ⟨⟨s₁, tally⟩, hv, params, hp, outcome, ho, h⟩ := h
  rcases of_determineProposalOutcome ho with rfl | rfl
  · simp only [if_true, reduceCtorEq, if_false, Result.bind_eq_ok, Result.ok_bind,
      Result.pure_eq_ok] at h
    obtain ⟨s₂, he, rfl⟩ := h
    exact .passed ⟨hs, ht, tally, params, hv, hp, ho⟩ hv (of_executePassed he)
  · simp only [if_true, reduceCtorEq, if_false, Result.bind_eq_ok, Result.ok_bind,
      Result.pure_eq_ok] at h
    obtain ⟨s₂, hr, rfl⟩ := h
    exact .rejected hs ht hv hr

theorem of_processProposal (h : k.processProposal ctx s proposal = .ok s') :
    Processed k ctx s proposal s' := by
  simp only [processProposal] at h
  split at h
  case h_1 hs =>
    split_ifs at h with ht
    · exact of_processDepositPeriodEnd hs ht h
    · cases h
      exact .skipped (fun _ => not_lt.mp ht) (by simp [hs])
  case h_2 hs =>
    split_ifs at h with ht
    · exact of_processVotingPeriodEnd hs ht h
    · cases h
      exact .skipped (by simp [hs]) (fun _ => not_lt.mp ht)
  case h_3 hd hv =>
    cases h
    exact .skipped (fun hs => absurd hs hd) (fun hs => absurd hs hv)

end Keeper

end Governance
