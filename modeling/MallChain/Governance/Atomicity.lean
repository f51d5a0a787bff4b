import MallChain.Governance.System

namespace Governance

open Sdk

variable {μ σ : Type} {k : Keeper μ σ} {ctx : Context} {s s₁ s' : State σ} {proposal : Proposal}
variable {router : μ → Option (List (Call σ))} {messages : List Any} {msgAny : Any} {i : ℕ}

-- The messages are unpacked and have handlers, and the handlers run one after the other.
inductive Executes (k : Keeper μ σ) (ctx : Context) (router : μ → Option (List (Call σ))) :
    State σ → List Any → State σ → Prop
  | nil {s : State σ} : Executes k ctx router s [] s
  | cons {s s₁ s' : State σ} {msgAny : Any} {messages : List Any} {msg : μ}
    {handler : List (Call σ)} :
    k.unpackAny msgAny = .ok msg → router msg = some handler →
    k.runHandler ctx s handler = .ok s₁ → Executes k ctx router s₁ messages s' →
    Executes k ctx router s (msgAny :: messages) s'

-- What goes wrong with a message.
inductive Fails (k : Keeper μ σ) (ctx : Context) (router : μ → Option (List (Call σ)))
    (s : State σ) (msgAny : Any) : Prop
  | unpack {err : String} : k.unpackAny msgAny = .error err → Fails k ctx router s msgAny
  | noHandler {msg : μ} : k.unpackAny msgAny = .ok msg → router msg = none →
    Fails k ctx router s msgAny
  | handler {msg : μ} {handler : List (Call σ)} {e : Failure} :
    k.unpackAny msgAny = .ok msg → router msg = some handler →
    k.runHandler ctx s handler = .error e → Fails k ctx router s msgAny

-- A message fails behind messages that are executed.
def Halts (k : Keeper μ σ) (ctx : Context) (router : μ → Option (List (Call σ))) (s : State σ)
    (messages : List Any) : Prop :=
  ∃ earlier msgAny later s₁, messages = earlier ++ msgAny :: later ∧
    Executes k ctx router s earlier s₁ ∧ Fails k ctx router s₁ msgAny

-- Of all that the messages did nothing is left, at most the status of the proposal is written. A
-- panic takes the whole block with it.
inductive Undone (s : State σ) (proposal : Proposal) : Result (State σ × Option Failure) → Prop
  | unchanged {err : Failure} : Undone s proposal (.ok (s, some err))
  | failed {err : Failure} :
    Undone s proposal (.ok (s.setProposal { proposal with status := .failed }, some err))
  | panic {text : String} : Undone s proposal (.error (.panic text))

theorem Halts.cons {msg : μ} {handler : List (Call σ)} (hu : k.unpackAny msgAny = .ok msg)
    (hr : router msg = some handler) (hs : k.runHandler ctx s handler = .ok s₁)
    (h : Halts k ctx router s₁ messages) : Halts k ctx router s (msgAny :: messages) := by
  obtain ⟨earlier, msgAny', later, s₂, rfl, he, hf⟩ := h
  exact ⟨msgAny :: earlier, msgAny', later, s₂, rfl, .cons hu hr hs he, hf⟩

theorem executes_or_halts (k : Keeper μ σ) (ctx : Context) (router : μ → Option (List (Call σ)))
    (s : State σ) (messages : List Any) :
    (∃ s', Executes k ctx router s messages s') ∨ Halts k ctx router s messages := by
  induction messages generalizing s with
  | nil => exact .inl ⟨s, .nil⟩
  | cons msgAny messages ih =>
    have hfirst : Fails k ctx router s msgAny → Halts k ctx router s (msgAny :: messages) :=
      fun hf => ⟨[], msgAny, messages, s, rfl, .nil, hf⟩
    cases hu : k.unpackAny msgAny with
    | error err => exact .inr (hfirst (.unpack hu))
    | ok msg =>
      cases hr : router msg with
      | none => exact .inr (hfirst (.noHandler hu hr))
      | some handler =>
        cases hs : k.runHandler ctx s handler with
        | error e => exact .inr (hfirst (.handler hu hr hs))
        | ok s₁ =>
          rcases ih s₁ with ⟨s', he⟩ | hh
          · exact .inl ⟨s', .cons hu hr hs he⟩
          · exact .inr (hh.cons hu hr hs)

namespace Keeper

theorem runMessages_executes (h : Executes k ctx router s messages s') :
    (k.runMessages ctx router i s messages).2 = .ok s' := by
  induction h generalizing i with
  | nil => rfl
  | cons hu hr hs _ ih =>
    rw [runMessages_ok hu hr hs]
    exact ih

theorem runMessages_fails {later : List Any} (h : Fails k ctx router s msgAny) :
    ∃ halt, (k.runMessages ctx router i s (msgAny :: later)).2 = .error halt := by
  cases h with
  | unpack hu => exact ⟨_, by rw [runMessages_unpack hu]⟩
  | noHandler hu hr => exact ⟨_, by rw [runMessages_noHandler hu hr]⟩
  | handler hu hr hs => exact ⟨_, by rw [runMessages_handler hu hr hs]⟩

-- The messages behind the one that fails are not looked at.
theorem runMessages_halts (h : Halts k ctx router s messages) :
    ∃ halt, (k.runMessages ctx router i s messages).2 = .error halt := by
  obtain ⟨earlier, msgAny, later, s₁, rfl, he, hf⟩ := h
  induction he generalizing i with
  | nil => exact runMessages_fails hf
  | cons hu hr hs _ ih =>
    rw [List.cons_append, runMessages_ok hu hr hs]
    exact ih hf

theorem executeProposal_executes (hr : k.msgRouter = some router)
    (h : Executes k ctx router s proposal.messages s') :
    k.executeProposal ctx s proposal = .ok (s', none) := by
  have he : (k.runMessages ctx router 0 s proposal.messages).2 = .ok s' := runMessages_executes h
  simp only [executeProposal, hr, he]

theorem executeProposal_halts (hr : k.msgRouter = some router)
    (h : Halts k ctx router s proposal.messages) :
    Undone s proposal (k.executeProposal ctx s proposal) := by
  obtain ⟨halt, he⟩ : ∃ halt, (k.runMessages ctx router 0 s proposal.messages).2 = .error halt :=
    runMessages_halts h
  simp only [executeProposal, hr, he]
  cases halt with
  | unpack => exact .unchanged
  | noHandler => exact .unchanged
  | handler index failure =>
    cases failure with
    | error => exact .failed
    | panic => exact .panic

end Keeper

-- The status that a failed execution writes is written over.
theorem State.setProposal_setProposal {proposal' : Proposal} (h : proposal'.id = proposal.id) :
    (s.setProposal proposal').setProposal proposal = s.setProposal proposal := by
  simp only [setProposal, h, KVStore.set_set]

-- What the end of the voting period stores for a proposal that passes.
def Proposal.passedWith (proposal : Proposal) (tally : TallyResult) : Proposal :=
  { proposal with status := .passed, finalTallyResult := tally }

namespace Keeper

theorem processVotingPeriodEnd_passed {tally : TallyResult} {params : Params}
    (ht : k.tallyVotes s proposal.id = .ok (s₁, tally)) (hp : s₁.params = some params)
    (ho : k.determineProposalOutcome s₁ tally params = .ok .passed) :
    k.processVotingPeriodEnd ctx s proposal =
      (k.executePassed ctx s₁ (proposal.passedWith tally)).map
        (·.setProposal (proposal.passedWith tally)) := by
  simp only [processVotingPeriodEnd, ht, hp, ho, orFail, Option.elim_some, Result.ok_bind, if_true,
    reduceCtorEq, if_false]
  change (k.executePassed ctx s₁ (proposal.passedWith tally) >>= _) = _
  cases k.executePassed ctx s₁ (proposal.passedWith tally) <;> rfl

theorem executePassed_executes (hr : k.msgRouter = some router)
    (h : Executes k ctx router s proposal.messages s') :
    k.executePassed ctx s proposal = (k.executeTreasuryTransfer s' proposal).map (·.1) := by
  simp only [executePassed, executeProposal_executes hr h, Result.ok_bind]
  cases k.executeTreasuryTransfer s' proposal <;> rfl

theorem executePassed_halts (hr : k.msgRouter = some router)
    (h : Halts k ctx router s proposal.messages) :
    (∃ text, k.executePassed ctx s proposal = .error (.panic text)) ∨
      ∃ s', k.executePassed ctx s proposal = .ok s' ∧
        (s' = s ∨ s' = s.setProposal { proposal with status := .failed }) := by
  have hu := executeProposal_halts hr h
  simp only [executePassed]
  generalize k.executeProposal ctx s proposal = result at hu
  cases hu with
  | unchanged => exact .inr ⟨s, rfl, .inl rfl⟩
  | failed => exact .inr ⟨_, rfl, .inr rfl⟩
  | panic => exact .inl ⟨_, rfl⟩

theorem processVotingPeriodEnd_executes {tally : TallyResult} {params : Params}
    (hr : k.msgRouter = some router) (ht : k.tallyVotes s proposal.id = .ok (s₁, tally))
    (hp : s₁.params = some params) (ho : k.determineProposalOutcome s₁ tally params = .ok .passed)
    (h : Executes k ctx router s₁ proposal.messages s') :
    k.processVotingPeriodEnd ctx s proposal =
      (k.executeTreasuryTransfer s' (proposal.passedWith tally)).map
        (·.1.setProposal (proposal.passedWith tally)) := by
  have hm : Executes k ctx router s₁ (proposal.passedWith tally).messages s' := h
  rw [processVotingPeriodEnd_passed ht hp ho, executePassed_executes hr hm]
  cases k.executeTreasuryTransfer s' (proposal.passedWith tally) <;> rfl

theorem processVotingPeriodEnd_halts {tally : TallyResult} {params : Params}
    (hr : k.msgRouter = some router) (ht : k.tallyVotes s proposal.id = .ok (s₁, tally))
    (hp : s₁.params = some params) (ho : k.determineProposalOutcome s₁ tally params = .ok .passed)
    (h : Halts k ctx router s₁ proposal.messages) :
    (∃ text, k.processVotingPeriodEnd ctx s proposal = .error (.panic text)) ∨
      k.processVotingPeriodEnd ctx s proposal = .ok (s₁.setProposal (proposal.passedWith tally)) := by
  have hm : Halts k ctx router s₁ (proposal.passedWith tally).messages := h
  rw [processVotingPeriodEnd_passed ht hp ho]
  rcases executePassed_halts hr hm with ⟨text, he⟩ | ⟨s', he, rfl | rfl⟩
  · exact .inl ⟨text, by rw [he]; rfl⟩
  · refine .inr ?_
    rw [he]
    rfl
  · refine .inr ?_
    rw [he]
    exact congrArg Except.ok (State.setProposal_setProposal rfl)

end Keeper

-- A proposal is executed as a whole or not at all, by itself and at the end of its voting period.
theorem execution_atomic (k : Keeper μ σ) (ctx : Context) (s : State σ) (proposal : Proposal)
    {router : μ → Option (List (Call σ))} (hr : k.msgRouter = some router) :
    ((∃ s', Executes k ctx router s proposal.messages s') ∨
      Halts k ctx router s proposal.messages) ∧
    (∀ s', Executes k ctx router s proposal.messages s' →
      k.executeProposal ctx s proposal = .ok (s', none)) ∧
    (Halts k ctx router s proposal.messages →
      Undone s proposal (k.executeProposal ctx s proposal)) ∧
    ∀ s₁ tally params, k.tallyVotes s proposal.id = .ok (s₁, tally) → s₁.params = some params →
      k.determineProposalOutcome s₁ tally params = .ok .passed →
      (∀ s', Executes k ctx router s₁ proposal.messages s' →
        k.processVotingPeriodEnd ctx s proposal =
          (k.executeTreasuryTransfer s' (proposal.passedWith tally)).map
            (·.1.setProposal (proposal.passedWith tally))) ∧
      (Halts k ctx router s₁ proposal.messages →
        (∃ text, k.processVotingPeriodEnd ctx s proposal = .error (.panic text)) ∨
          k.processVotingPeriodEnd ctx s proposal =
            .ok (s₁.setProposal (proposal.passedWith tally))) := by
  refine ⟨executes_or_halts k ctx router s proposal.messages, ?_, ?_, ?_⟩
  · intro s' h
    exact Keeper.executeProposal_executes hr h
  · intro h
    exact Keeper.executeProposal_halts hr h
  · intro s₁ tally params ht hp ho
    constructor
    · intro s' h
      exact Keeper.processVotingPeriodEnd_executes hr ht hp ho h
    · intro h
      exact Keeper.processVotingPeriodEnd_halts hr ht hp ho h

namespace Sample

def send (fromAddr toAddr amount : UInt8) : Any :=
  ⟨"/cosmos.bank.v1beta1.MsgSend", [fromAddr, toAddr, amount]⟩

-- The first message is executed, and the second one sends more than is left.
def overdraft : Proposal where
  id           := 1
  title        := "send"
  summary      := "send"
  metadata     := ""
  proposer     := "mallory"
  messages     := [send 2 1 60, send 2 1 60]
  totalDeposit := []
  submitTime   := 0
  expedited    := false
  status       := .passed

end Sample

-- The victim keeps the coins of the first message.
theorem overdraft_undone :
    Halts Sample.keeper (Sample.block 40) (fun msg => some [msg.handler]) Sample.genesis
      Sample.overdraft.messages ∧
    Undone Sample.genesis Sample.overdraft
      (Sample.keeper.executeProposal (Sample.block 40) Sample.genesis Sample.overdraft) := by
  have h : Halts Sample.keeper (Sample.block 40) (fun msg => some [msg.handler]) Sample.genesis
      Sample.overdraft.messages := by
    refine ⟨[Sample.send 2 1 60], Sample.send 2 1 60, [], _, rfl, .cons rfl rfl rfl .nil,
      .handler rfl rfl rfl⟩
  exact ⟨h, (execution_atomic Sample.keeper (Sample.block 40) Sample.genesis Sample.overdraft
    rfl).2.2.1 h⟩

end Governance
