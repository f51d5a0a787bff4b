import MallChain.Governance.Deposits

namespace Governance

open Sdk

variable {μ σ : Type}

-- A block with its transactions. The calls of a transaction are done together or not at all.
structure Block (σ : Type) where
  ctx : Context
  txs : List (List (Call σ))

-- What happens in a block, with the state that it finds: a call is done, or the sweep at the end of
-- the block comes to a proposal.
inductive Moment (σ : Type)
  | called (ctx : Context) (s : State σ) (c : Call σ)
  | swept (ctx : Context) (s : State σ) (proposal : Proposal)

-- The vote that a call adds.
def Call.vote : Call σ → Option Vote
  | .own (.vote msg) =>
    some ⟨msg.proposalId, msg.voter, [⟨msg.option, LegacyDec.ofInt 1⟩], msg.metadata⟩
  | .own (.voteWeighted msg) =>
    some ⟨msg.proposalId, msg.voter, msg.weightedOptions, msg.metadata⟩
  | _ => none

-- The proposal that a call adds a deposit to.
def Call.depositsOn (s : State σ) : Call σ → Option UInt64
  | .own (.submitProposal msg) => if msg.initialDeposit.isZero then none else some s.proposalID
  | .own (.deposit msg) => some msg.proposalId
  | _ => none

namespace Moment

def state : Moment σ → State σ
  | called _ s _ => s
  | swept _ s _ => s

def vote : Moment σ → Option Vote
  | called _ _ c => c.vote
  | swept .. => none

end Moment

-- The last vote of a voter that was accepted, when the latest moment comes first.
def lastVote (id : UInt64) (voter : String) (past : List (Moment σ)) : Option Vote :=
  past.findSome? fun m => m.vote.filter fun vote => vote.proposalId = id ∧ vote.voter = voter

namespace Keeper

-- A transaction that fails is reverted.
def deliverTx (k : Keeper μ σ) (ctx : Context) (s : State σ) (calls : List (Call σ)) :
    Result (State σ) :=
  .ok ((k.runHandler ctx s calls).toOption.getD s)

def runBlock (k : Keeper μ σ) (s : State σ) (b : Block σ) : Result (State σ) := do
  let s ← b.txs.foldlM (k.deliverTx b.ctx) s
  k.endBlocker b.ctx s

-- The calls that are done one after the other, unless one of them fails.
def callMoments (k : Keeper μ σ) (ctx : Context) (s : State σ) (calls : List (Call σ)) :
    List (Moment σ) :=
  if (k.runHandler ctx s calls).isOk then
    Fold.trace (k.call ctx) (fun s c => [.called ctx s c]) calls s
  else []

-- The state in which the messages of a proposal are executed.
def passing (k : Keeper μ σ) (ctx : Context) (s : State σ) (proposal : Proposal) :
    Option (State σ) :=
  if proposal.status = .votingPeriod ∧ proposal.votingEndTime < ctx.blockTime then do
    let (s, tally) ← (k.tallyVotes s proposal.id).toOption
    let params ← s.params
    if k.determineProposalOutcome s tally params = .ok .passed then some s else none
  else none

-- The votes are counted before the messages of a proposal are executed.
def sweepMoments (k : Keeper μ σ) (ctx : Context) (s : State σ) (proposal : Proposal) :
    List (Moment σ) :=
  (match k.passing ctx s proposal, k.callsOf proposal with
    | some s, some calls => k.callMoments ctx s calls
    | _, _ => []) ++ [.swept ctx s proposal]

def moments (k : Keeper μ σ) (s : State σ) (b : Block σ) : List (Moment σ) :=
  match b.txs.foldlM (k.deliverTx b.ctx) s with
  | .ok s₁ =>
    Fold.trace (k.processProposal b.ctx) (k.sweepMoments b.ctx) s₁.getProposals s₁ ++
      Fold.trace (k.deliverTx b.ctx) (k.callMoments b.ctx) b.txs s
  | .error _ => []

end Keeper

-- What is seen of a block: the states at its ends, and what happens in between.
structure Report (σ : Type) where
  before : State σ
  past   : List (Moment σ)
  after  : State σ

-- The module over whole blocks. A block that fails is no step.
def chain (k : Keeper μ σ) : TransitionSystem (State σ) (Block σ) where
  init s      := s.Empty k.moduleAddr ∧ s.votes = .empty
  step s b s' := (∀ tx ∈ b.txs, ∀ c ∈ tx, k.Allowed (.call b.ctx c)) ∧ k.runBlock s b = .ok s'

def journal (k : Keeper μ σ) : TransitionSystem (State σ × List (Report σ)) (Block σ) :=
  (chain k).traced fun s b s' => ⟨s, k.moments s b, s'⟩

def pastOf (reports : List (Report σ)) : List (Moment σ) :=
  reports.flatMap (·.past)

def Moment.Meets (P : Context → State σ → Call σ → Prop) : Moment σ → Prop
  | called ctx s c => P ctx s c
  | swept .. => True

-- Every call that is done in the block, by a transaction or by a proposal, meets the condition.
def Keeper.Done (k : Keeper μ σ) (P : Context → State σ → Call σ → Prop)
    (p : State σ × List (Report σ)) (b : Block σ) : Prop :=
  ∀ m ∈ k.moments p.1 b, m.Meets P

variable {k : Keeper μ σ} {ctx : Context} {s s₁ s' : State σ} {c : Call σ} {calls : List (Call σ)}
variable {proposal : Proposal} {id : UInt64} {voter depositor : String} {amount : Coins}
variable {m : Moment σ} {past : List (Moment σ)} {b : Block σ} {err : Option Failure}
variable {P : Context → State σ → Call σ → Prop}

-- What a call does to the proposals and the votes.
inductive Changed (ctx : Context) (s s' : State σ) : Call σ → Prop
  | voted {c : Call σ} {vote : Vote} {proposal : Proposal} :
    c.vote = some vote → c.depositsOn s = none →
    s.proposals.get vote.proposalId = some proposal → proposal.status = .votingPeriod →
    ctx.blockTime ≤ proposal.votingEndTime →
    checkWeights [] (LegacyDec.ofInt 0) vote.options = .ok () → s'.proposals = s.proposals →
    s'.votes = s.votes.set (join vote.proposalId vote.voter) vote → Changed ctx s s' c
  | deposited {msg : MsgDeposit} {proposal proposal' : Proposal} {total : Coins} {params : Params} :
    s.proposals.get msg.proposalId = some proposal → proposal.status = .depositPeriod →
    ctx.blockTime ≤ proposal.depositEndTime → s.params = some params →
    proposal.totalDeposit.add msg.amount = .ok total →
    proposal' = (if total.isAllGTE params.minDeposit then
      { proposal with totalDeposit := total }.startVoting ctx params
      else { proposal with totalDeposit := total }) →
    s'.proposals = s.proposals.set proposal.id proposal' → s'.votes = s.votes →
    Changed ctx s s' (.own (.deposit msg))
  | submitted {msg : MsgSubmitProposal} {proposal proposal' : Proposal} {params : Params} :
    s.params = some params → proposal.id = s.proposalID → proposal.status = .depositPeriod →
    proposal.depositEndTime = ctx.blockTime + params.getDepositPeriod →
    (msg.initialDeposit.isZero = true ∧ proposal' = proposal ∨ ∃ total,
      msg.initialDeposit.isZero = false ∧ msg.initialDeposit.add msg.initialDeposit = .ok total ∧
        proposal' = (if total.isAllGTE params.minDeposit then
          { proposal with totalDeposit := total }.startVoting ctx params
          else { proposal with totalDeposit := total })) →
    s'.proposals = s.proposals.set s.proposalID proposal' → s'.votes = s.votes →
    Changed ctx s s' (.own (.submitProposal msg))
  | kept {c : Call σ} : c.vote = none → c.depositsOn s = none → s'.proposals = s.proposals →
    s'.votes = s.votes → Changed ctx s s' c

namespace Keeper

theorem addDeposit_proposals (h : k.addDeposit ctx s id depositor amount = .ok s') :
    ∃ proposal params total, s.proposals.get id = some proposal ∧
      proposal.status = .depositPeriod ∧ ctx.blockTime ≤ proposal.depositEndTime ∧
      s.params = some params ∧ proposal.totalDeposit.add amount = .ok total ∧
      s'.proposals = s.proposals.set proposal.id (if total.isAllGTE params.minDeposit then
        { proposal with totalDeposit := total }.startVoting ctx params
        else { proposal with totalDeposit := total }) ∧ s'.votes = s.votes := by
  simp only [addDeposit, Result.bind_eq_ok, failIf_eq_ok, orFail_eq_ok, not_not] at h
  obtain ⟨proposal, hp, _, hs, _, ht, record, _, s₁, hc, total, hd, params, hm, h⟩ := h
  have hf : s₁.proposals = s.proposals ∧ s₁.votes = s.votes ∧ s₁.params = s.params := by
    rcases of_collect hc with ⟨_, rfl⟩ | ⟨_, _, _, _, rfl⟩ <;> exact ⟨rfl, rfl, rfl⟩
  obtain ⟨hfp, hfv, hfm⟩ := hf
  refine ⟨proposal, params, total, hp, hs, not_lt.mp ht, hfm ▸ hm, hd, ?_⟩
  split_ifs at h with hg
  · cases h
    rw [if_pos hg, ← hfp, ← hfv]
    exact ⟨rfl, rfl⟩
  · cases h
    rw [if_neg hg, ← hfp, ← hfv]
    exact ⟨rfl, rfl⟩

theorem addVote_changed {options : List WeightedVoteOption} {metadata : String}
    (hv : c.vote = some ⟨id, voter, options, metadata⟩) (hd : c.depositsOn s = none)
    (h : addVote ctx s id voter options metadata = .ok s') : Changed ctx s s' c := by
  simp only [addVote, Result.bind_eq_ok, failIf_eq_ok, orFail_eq_ok, Result.pure_eq_ok,
    not_not] at h
  obtain ⟨proposal, hp, _, hs, _, ht, _, hw, rfl⟩ := h
  exact .voted hv hd hp hs (not_lt.mp ht) hw rfl rfl

theorem submitProposal_changed {msg : MsgSubmitProposal}
    (h : k.handle ctx s (.submitProposal msg) = .ok s') :
    Changed ctx s s' (.own (.submitProposal msg)) := by
  simp only [handle, submitProposal, Result.bind_eq_ok, orFail_eq_ok, Result.pure_eq_ok] at h
  obtain ⟨_, ⟨params, hm, rfl⟩, h⟩ := h
  let proposal : Proposal := {
    id             := s.proposalID
    title          := msg.title
    summary        := msg.summary
    metadata       := msg.metadata
    proposer       := msg.proposer
    messages       := msg.messages
    totalDeposit   := msg.initialDeposit
    submitTime     := ctx.blockTime
    expedited      := msg.expedited
    status         := .depositPeriod
    depositEndTime := ctx.blockTime + params.getDepositPeriod
  }
  split_ifs at h with hz
  · cases h
    have hp : proposal.id = s.proposalID := rfl
    exact .submitted hm hp rfl rfl (.inl ⟨hz, rfl⟩) rfl rfl
  · obtain ⟨proposal', params', total, hp, _, _, hm', ht, hs, hv⟩ := addDeposit_proposals h
    have he : proposal' = proposal := by
      simpa only [State.setProposal, KVStore.get_set_self, Option.some.injEq, eq_comm] using hp
    subst he
    cases hm.symm.trans hm'
    have hp : proposal.id = s.proposalID := rfl
    refine .submitted hm hp rfl rfl (.inr ⟨total, Bool.eq_false_of_not_eq_true hz, ht, rfl⟩) ?_ hv
    rw [hs]
    exact KVStore.set_set

theorem call_changed (h : k.call ctx s c = .ok s') : Changed ctx s s' c := by
  cases c with
  | other run =>
    simp only [call, Result.bind_eq_ok, Result.pure_eq_ok] at h
    obtain ⟨_, _, rfl⟩ := h
    exact .kept rfl rfl rfl rfl
  | own msg =>
    simp only [call, deliver, Result.bind_eq_ok] at h
    obtain ⟨_, _, h⟩ := h
    cases msg with
    | submitProposal msg => exact submitProposal_changed h
    | vote msg => exact addVote_changed rfl rfl h
    | voteWeighted msg => exact addVote_changed rfl rfl h
    | deposit msg =>
      obtain ⟨proposal, params, total, hp, hst, ht, hm, hd, hs, hv⟩ := addDeposit_proposals h
      exact .deposited hp hst ht hm hd rfl hs hv
    | updateParams msg =>
      simp only [handle, Result.bind_eq_ok, Result.pure_eq_ok] at h
      obtain ⟨_, _, rfl⟩ := h
      exact .kept rfl rfl rfl rfl
    | slashValidator msg =>
      simp only [handle, slashValidatorProposal, Result.bind_eq_ok] at h
      obtain ⟨_, _, _, _, _, _, _, _, _, _, _, _, _, _, _, _, h⟩ := h
      split_ifs at h
      · simp only [Result.bind_eq_ok, Result.pure_eq_ok] at h
        obtain ⟨_, _, _, _, rfl⟩ := h
        exact .kept rfl rfl rfl rfl
      · cases h
        exact .kept rfl rfl rfl rfl

-- Where the coins of a proposal are paid out, only the bank and the events are written.

theorem executeTreasuryTransfer_eq (h : k.executeTreasuryTransfer s proposal = .ok (s', err)) :
    s' = { s with bank := s'.bank, events := s'.events } := by
  simp only [executeTreasuryTransfer] at h
  split_ifs at h
  · cases h
    rfl
  · split at h <;> cases h <;> rfl

theorem refundDeposit_eq {deposit : Deposit} (h : k.refundDeposit s id deposit = .ok (s', err)) :
    s' = { s with bank := s'.bank, events := s'.events } := by
  simp only [refundDeposit] at h
  split at h
  · cases h
    rfl
  · split at h <;> cases h <;> rfl

theorem refundEach_eq {deposits : List Deposit}
    (h : k.refundEach id deposits s = .ok (s', err)) :
    s' = { s with bank := s'.bank, events := s'.events } := by
  induction deposits generalizing s err with
  | nil =>
    cases h
    rfl
  | cons deposit deposits ih =>
    simp only [refundEach, Result.bind_eq_ok, Result.pure_eq_ok, Prod.mk.injEq] at h
    obtain ⟨⟨s₁, _⟩, h₁, ⟨s₂, _⟩, h₂, rfl, _⟩ := h
    have he := refundDeposit_eq h₁
    rw [ih h₂, he]

theorem refundDeposits_eq (h : k.refundDeposits s id = .ok s') :
    s' = { s with bank := s'.bank, events := s'.events } := by
  simp only [refundDeposits, Result.bind_eq_ok, Result.pure_eq_ok] at h
  obtain ⟨⟨s₁, err⟩, he, rfl⟩ := h
  have hs := refundEach_eq he
  split_ifs
  · rw [hs]
    rfl
  · exact hs

end Keeper

-- What the sweep does with a proposal, and what happens meanwhile.
inductive Swept (k : Keeper μ σ) (ctx : Context) (s : State σ) (proposal : Proposal)
    (s' : State σ) : List (Moment σ) → Prop
  | skipped : ¬proposal.Due ctx → s' = s → Swept k ctx s proposal s' [.swept ctx s proposal]
  | deposited {proposal' : Proposal} :
    proposal.status = .depositPeriod → proposal.depositEndTime < ctx.blockTime →
    proposal'.id = proposal.id →
    proposal'.status = .votingPeriod ∨ proposal'.status = .failed →
    s'.proposals = s.proposals.set proposal.id proposal' → s'.votes = s.votes →
    Swept k ctx s proposal s' [.swept ctx s proposal]
  | voted {stored proposal' : Proposal} {tally : TallyResult} {calls : List (Call σ)}
    {s₂ : State σ} :
    proposal.status = .votingPeriod → proposal.votingEndTime < ctx.blockTime →
    s.proposals.get proposal.id = some stored →
    k.runHandler ctx (s.setProposal { stored with finalTallyResult := tally }) calls = .ok s₂ →
    proposal'.id = proposal.id → proposal'.status = .passed ∨ proposal'.status = .rejected →
    s'.proposals = s₂.proposals.set proposal.id proposal' → s'.votes = s₂.votes →
    Swept k ctx s proposal s'
      (k.callMoments ctx (s.setProposal { stored with finalTallyResult := tally }) calls ++
        [.swept ctx s proposal])

namespace Keeper

theorem callMoments_nil : k.callMoments ctx s [] = [] := by
  simp [callMoments, Fold.trace]

theorem tallyVotes_state {tally : TallyResult} (h : k.tallyVotes s id = .ok (s', tally)) :
    ∃ stored, s.proposals.get id = some stored ∧
      s' = s.setProposal { stored with finalTallyResult := tally } := by
  simp only [tallyVotes, Result.bind_eq_ok, orFail_eq_ok, Result.pure_eq_ok, Prod.mk.injEq] at h
  obtain ⟨stored, hs, _, _, he, rfl⟩ := h
  exact ⟨stored, hs, he.symm⟩

theorem sweepMoments_none (h : k.passing ctx s proposal = none) :
    k.sweepMoments ctx s proposal = [.swept ctx s proposal] := by
  simp only [sweepMoments, h, List.nil_append]

theorem passing_none (h : ¬(proposal.status = .votingPeriod ∧
    proposal.votingEndTime < ctx.blockTime)) : k.passing ctx s proposal = none := by
  simp only [passing, if_neg h]

theorem passing_voted {tally : TallyResult} {params : Params} {outcome : ProposalStatus}
    (hs : proposal.status = .votingPeriod) (ht : proposal.votingEndTime < ctx.blockTime)
    (hv : k.tallyVotes s proposal.id = .ok (s₁, tally)) (hp : s₁.params = some params)
    (ho : k.determineProposalOutcome s₁ tally params = .ok outcome) :
    k.passing ctx s proposal = if outcome = .passed then some s₁ else none := by
  simp [passing, hs, ht, hv, hp, ho, Except.toOption]

theorem executePassed_swept {passed : Proposal}
    (hs : proposal.status = .votingPeriod) (ht : proposal.votingEndTime < ctx.blockTime)
    {stored : Proposal} {tally : TallyResult}
    (hg : s.proposals.get proposal.id = some stored)
    (h₁ : s₁ = s.setProposal { stored with finalTallyResult := tally })
    (hp : k.passing ctx s proposal = some s₁) (hi : passed.id = proposal.id)
    (hm : passed.messages = proposal.messages) (hst : passed.status = .passed)
    (h : k.executePassed ctx s₁ passed = .ok s') :
    Swept k ctx s proposal (s'.setProposal passed) (k.sweepMoments ctx s proposal) := by
  have hc : k.callsOf passed = k.callsOf proposal := by
    simp only [callsOf, hm]
  cases of_executePassed h with
  | failed hno he =>
    have hr : (s'.setProposal passed).proposals = s₁.proposals.set proposal.id passed := by
      rcases he with rfl | rfl
      · rw [State.setProposal, hi]
      · simp only [State.setProposal, hi, KVStore.set_set]
    have hv : (s'.setProposal passed).votes = s₁.votes := by
      rcases he with rfl | rfl <;> rfl
    have hn : k.sweepMoments ctx s proposal = [.swept ctx s proposal] := by
      simp only [sweepMoments, hp]
      cases hcalls : k.callsOf proposal with
      | none => rfl
      | some calls =>
        have hnot : (k.runHandler ctx s₁ calls).isOk ≠ true := by
          rw [ne_eq, Result.isOk_iff]
          rintro ⟨s₂, ho⟩
          exact hno calls s₂ (hc.trans hcalls) ho
        simp only [callMoments, if_neg hnot, List.nil_append]
    have hsw : Swept k ctx s proposal (s'.setProposal passed)
        (k.callMoments ctx (s.setProposal { stored with finalTallyResult := tally }) [] ++
          [.swept ctx s proposal]) :=
      .voted hs ht hg rfl hi (.inl hst) (h₁ ▸ hr) (h₁ ▸ hv)
    rw [hn]
    simpa only [callMoments_nil, List.nil_append] using hsw
  | executed hcalls hr he =>
    rename_i calls s₂ _
    have hn : k.sweepMoments ctx s proposal =
        k.callMoments ctx s₁ calls ++ [.swept ctx s proposal] := by
      simp only [sweepMoments, hp, hc.symm.trans hcalls]
    have hpr := (of_executeTreasuryTransfer he).proposals
    have hv := congrArg State.votes (executeTreasuryTransfer_eq he)
    rw [hn]
    subst h₁
    refine .voted hs ht hg hr hi (.inl hst) ?_ hv
    rw [State.setProposal, hpr, hi]

theorem processProposal_swept (h : k.processProposal ctx s proposal = .ok s') :
    Swept k ctx s proposal s' (k.sweepMoments ctx s proposal) := by
  simp only [processProposal] at h
  split at h
  case h_1 hs =>
    have hno : k.passing ctx s proposal = none := passing_none (by simp [hs])
    rw [sweepMoments_none hno]
    split_ifs at h with ht
    · simp only [processDepositPeriodEnd, Result.bind_eq_ok, orFail_eq_ok] at h
      obtain ⟨params, _, h⟩ := h
      split_ifs at h with hg
      · cases h
        have hi : (proposal.startVoting ctx params).id = proposal.id := rfl
        exact .deposited hs ht hi (.inl rfl) rfl rfl
      · simp only [Result.bind_eq_ok, Result.pure_eq_ok] at h
        obtain ⟨s₁, hr, rfl⟩ := h
        have hi : ({ proposal with status := .failed } : Proposal).id = proposal.id := rfl
        have hv : s₁.votes = s.votes := by rw [refundDeposits_eq hr]
        refine .deposited hs ht hi (.inr rfl) ?_ hv
        rw [State.setProposal, (of_refundDeposits hr).proposals]
    · cases h
      exact .skipped (by simp [Proposal.Due, hs, ht]) rfl
  case h_2 hs =>
    split_ifs at h with ht
    · simp only [processVotingPeriodEnd, Result.bind_eq_ok, orFail_eq_ok] at h
      obtain ⟨⟨s₁, tally⟩, hv, params, hp, outcome, ho, h⟩ := h
      obtain ⟨stored, hg, h₁⟩ := tallyVotes_state hv
      have hpass := passing_voted hs ht hv hp ho
      rcases of_determineProposalOutcome ho with rfl | rfl
      · simp only [if_true, reduceCtorEq, if_false, Result.bind_eq_ok, Result.ok_bind,
          Result.pure_eq_ok] at h hpass
        obtain ⟨s₂, he, rfl⟩ := h
        exact executePassed_swept hs ht hg h₁ hpass rfl rfl rfl he
      · simp only [if_true, reduceCtorEq, if_false, Result.bind_eq_ok, Result.ok_bind,
          Result.pure_eq_ok] at h hpass
        obtain ⟨s₂, hr, rfl⟩ := h
        rw [sweepMoments_none hpass]
        subst h₁
        let rejected : Proposal := { proposal with status := .rejected, finalTallyResult := tally }
        have hi : rejected.id = proposal.id := rfl
        have hpr : (s₂.setProposal rejected).proposals =
            (s.setProposal { stored with finalTallyResult := tally }).proposals.set proposal.id
              rejected := by
          rw [State.setProposal, (of_refundDeposits hr).proposals]
        have hrv := congrArg State.votes (refundDeposits_eq hr)
        have hsw : Swept k ctx s proposal (s₂.setProposal rejected)
            (k.callMoments ctx (s.setProposal { stored with finalTallyResult := tally }) [] ++
              [.swept ctx s proposal]) :=
          .voted hs ht hg rfl hi (.inr rfl) hpr hrv
        simpa only [callMoments_nil, List.nil_append] using hsw
    · cases h
      have hno : k.passing ctx s proposal = none := passing_none (by simp [ht])
      rw [sweepMoments_none hno]
      exact .skipped (by simp [Proposal.Due, hs, ht]) rfl
  case h_3 hd hv =>
    cases h
    have hno : k.passing ctx s proposal = none := passing_none fun hs => hv hs.1
    rw [sweepMoments_none hno]
    refine .skipped ?_ rfl
    rintro (⟨hs, _⟩ | ⟨hs, _⟩)
    · exact hd hs
    · exact hv hs

end Keeper

section Runs

variable {I : State σ → List (Moment σ) → Prop}

-- What every call that is done keeps is kept by the calls of a transaction or of a proposal.
theorem calls_keep (hcall : ∀ {s c s' past}, I s past → k.call ctx s c = .ok s' → P ctx s c →
      I s' (.called ctx s c :: past))
    (hI : I s past) (h : k.runHandler ctx s calls = .ok s')
    (hq : ∀ m ∈ k.callMoments ctx s calls, m.Meets P) :
    I s' (k.callMoments ctx s calls ++ past) := by
  have hok : (k.runHandler ctx s calls).isOk = true := Result.isOk_iff.mpr ⟨s', h⟩
  simp only [Keeper.callMoments, hok, if_true] at hq ⊢
  have hstep : ∀ {c : Call σ} {l : List (Call σ)} {s s' : State σ} {past : List (Moment σ)},
      I s past → k.call ctx s c = .ok s' →
      (∀ m ∈ [Moment.called ctx s c], m.Meets P) → I s' ([.called ctx s c] ++ past) :=
    fun hI hc hq => hcall hI hc (hq _ (List.mem_singleton_self _))
  exact Fold.trace_holds (I := fun _ s past => I s past) (hstep (l := calls)) hI h hq

theorem txs_keep {txs : List (List (Call σ))}
    (hcall : ∀ {s c s' past}, I s past → k.call ctx s c = .ok s' → P ctx s c →
      I s' (.called ctx s c :: past))
    (hI : I s past) (h : txs.foldlM (k.deliverTx ctx) s = .ok s')
    (hq : ∀ m ∈ Fold.trace (k.deliverTx ctx) (k.callMoments ctx) txs s, m.Meets P) :
    I s' (Fold.trace (k.deliverTx ctx) (k.callMoments ctx) txs s ++ past) := by
  refine Fold.trace_holds (I := fun _ s past => I s past) ?_ hI h hq
  intro calls _ s s' past hI hd hq
  cases hr : k.runHandler ctx s calls with
  | error e =>
    simp only [Keeper.deliverTx, hr, Except.toOption, Option.getD_none, Except.ok.injEq] at hd
    subst hd
    have hn : k.callMoments ctx s calls = [] := by
      simp [Keeper.callMoments, hr, Except.isOk, Except.toBool]
    rw [hn, List.nil_append]
    exact hI
  | ok s₁ =>
    simp only [Keeper.deliverTx, hr, Except.toOption, Option.getD_some, Except.ok.injEq] at hd
    subst hd
    exact calls_keep hcall hI hr hq

theorem runBlock_eq_ok : k.runBlock s b = .ok s' ↔ ∃ s₁,
    b.txs.foldlM (k.deliverTx b.ctx) s = .ok s₁ ∧
      s₁.getProposals.foldlM (k.processProposal b.ctx) s₁ = .ok s' := by
  simp only [Keeper.runBlock, Keeper.endBlocker, Result.bind_eq_ok]

theorem moments_eq (h : b.txs.foldlM (k.deliverTx b.ctx) s = .ok s₁) : k.moments s b =
    Fold.trace (k.processProposal b.ctx) (k.sweepMoments b.ctx) s₁.getProposals s₁ ++
      Fold.trace (k.deliverTx b.ctx) (k.callMoments b.ctx) b.txs s := by
  simp only [Keeper.moments, h]

-- What is known of the votes and of what has happened is kept when every call that is done keeps it.
theorem journal_votes {J : KVStore (UInt64 ×ₗ String) Vote → List (Moment σ) → Prop}
    (hinit : J .empty [])
    (hcall : ∀ {ctx s c s' past}, J s.votes past → k.call ctx s c = .ok s' → P ctx s c →
      J s'.votes (.called ctx s c :: past))
    (hswept : ∀ {ctx s proposal past}, J s.votes past → J s.votes (.swept ctx s proposal :: past)) :
    (journal k).Invariant (k.Done P) fun p => J p.1.votes (pastOf p.2) := by
  refine TransitionSystem.traced_invariant (fun hi => ?_) fun hJ hg hs => ?_
  · rw [hi.2]
    exact hinit
  · rename_i s reports b s'
    obtain ⟨s₁, htxs, hsweep⟩ := runBlock_eq_ok.mp hs.2
    simp only [Keeper.Done, moments_eq htxs, List.mem_append] at hg
    have h₁ : J s₁.votes (Fold.trace (k.deliverTx b.ctx) (k.callMoments b.ctx) b.txs s ++
        pastOf reports) :=
      txs_keep (I := fun s past => J s.votes past) hcall hJ htxs fun m hm => hg m (.inr hm)
    have hstep : ∀ {proposal : Proposal} {l : List Proposal} {s s' : State σ}
        {past : List (Moment σ)}, J s.votes past → k.processProposal b.ctx s proposal = .ok s' →
        (∀ m ∈ k.sweepMoments b.ctx s proposal, m.Meets P) →
        J s'.votes (k.sweepMoments b.ctx s proposal ++ past) := by
      intro proposal _ s s' past hJ hp hq
      have hsw := Keeper.processProposal_swept hp
      revert hq
      generalize k.sweepMoments b.ctx s proposal = happened at hsw
      intro hq
      cases hsw with
      | skipped _ he =>
        rw [he]
        exact hswept hJ
      | deposited _ _ _ _ _ hv =>
        rw [hv]
        exact hswept hJ
      | voted _ _ _ hr _ _ _ hv =>
        rw [hv, List.append_assoc]
        have hfirst : ∀ {tallied : State σ}, tallied.votes = s.votes →
            J tallied.votes (.swept b.ctx s proposal :: past) := fun he => he ▸ hswept hJ
        exact calls_keep (I := fun s past => J s.votes past) hcall (hfirst rfl) hr
          fun m hm => hq m (List.mem_append_left _ hm)
    have h₂ := Fold.trace_holds (I := fun _ s past => J s.votes past)
      (hstep (l := s₁.getProposals)) h₁ hsweep fun m hm => hg m (.inl hm)
    simpa only [pastOf, List.flatMap_cons, moments_eq htxs, List.append_assoc] using h₂

end Runs

theorem lastVote_called {vote : Vote} (h : c.vote = some vote) :
    lastVote id voter (.called ctx s c :: past) =
      if vote.proposalId = id ∧ vote.voter = voter then some vote else lastVote id voter past := by
  simp only [lastVote, List.findSome?_cons, Moment.vote, h, Option.filter_some, decide_eq_true_eq]
  split_ifs <;> rfl

theorem lastVote_none (h : m.vote = none) :
    lastVote id voter (m :: past) = lastVote id voter past := by
  simp only [lastVote, List.findSome?_cons, h, Option.filter_none]

theorem lastVote_no_vote (h : c.vote = none) :
    lastVote id voter (.called ctx s c :: past) = lastVote id voter past :=
  lastVote_none h

-- The votes that are stored are the last ones that were accepted.
def Kept (votes : KVStore (UInt64 ×ₗ String) Vote) (past : List (Moment σ)) : Prop :=
  ∀ id voter, votes.get (join id voter) = lastVote id voter past

theorem Kept.call (h : Kept s.votes past) (hc : k.call ctx s c = .ok s') :
    Kept s'.votes (.called ctx s c :: past) := by
  intro id voter
  cases Keeper.call_changed hc with
  | voted hv _ _ _ _ _ _ hs =>
    rw [hs, KVStore.get_set, lastVote_called hv, h]
    simp only [join, toLex_inj, Prod.mk.injEq, eq_comm]
  | deposited _ _ _ _ _ _ _ hs => rw [hs, h, lastVote_none rfl]
  | submitted _ _ _ _ _ _ hs => rw [hs, h, lastVote_none rfl]
  | kept hv _ _ hs => rw [hs, h, lastVote_no_vote hv]

theorem Kept.swept (h : Kept s.votes past) : Kept s.votes (.swept ctx s₁ proposal :: past) := by
  intro id voter
  rw [h, lastVote_none rfl]

namespace Keeper

-- The next block of a run that can be evaluated.
def nextBlock (k : Keeper μ σ) (p : State σ × List (Report σ)) (b : Block σ) :
    State σ × List (Report σ) :=
  let s := (k.runBlock p.1 b).toOption.getD p.1
  (s, ⟨p.1, k.moments p.1 b, s⟩ :: p.2)

-- The block goes through, and its messages are signed by somebody else than the module account.
def goesThrough (k : Keeper μ σ) (s : State σ) (b : Block σ) : Bool :=
  (k.runBlock s b).isOk && b.txs.all fun tx => tx.all fun
    | .own msg => k.accAddressFromBech32 msg.signer ≠ some k.moduleAddr
    | .other _ => true

theorem nextBlock_run {guard : State σ × List (Report σ) → Block σ → Prop}
    {p : State σ × List (Report σ)} (hr : (journal k).Run guard p) (hg : guard p b)
    (h : k.goesThrough p.1 b = true) : (journal k).Run guard (k.nextBlock p b) := by
  simp only [goesThrough, Bool.and_eq_true, List.all_eq_true] at h
  obtain ⟨hok, hsigned⟩ := h
  obtain ⟨s', hs⟩ := Result.isOk_iff.mp hok
  have hstep : (chain k).step p.1 b s' := by
    refine ⟨?_, hs⟩
    rintro tx htx c hc ctx msg he
    cases he
    exact of_decide_eq_true (hsigned tx htx _ hc)
  have hn : k.nextBlock p b = (s', ⟨p.1, k.moments p.1 b, s'⟩ :: p.2) := by
    simp only [nextBlock, hs, Except.toOption, Option.getD_some]
  rw [hn]
  exact hr.traced_step hg hstep

end Keeper

end Governance
