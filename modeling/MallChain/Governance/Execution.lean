import MallChain.Governance.Keeper

namespace Governance

open Sdk

variable {μ σ : Type}

-- Why the messages of a proposal were not all executed.
inductive Halt
  | unpack (index : ℕ) (text : String)
  | noHandler (index : ℕ) (typeName : String)
  | handler (index : ℕ) (failure : Failure)

namespace Keeper

-- The message server

def handle (k : Keeper μ σ) (ctx : Context) (s : State σ) : Msg → Result (State σ)
  | .submitProposal msg => do
    let proposal := {
      title        := msg.title
      summary      := msg.summary
      metadata     := msg.metadata
      proposer     := msg.proposer
      messages     := msg.messages
      totalDeposit := msg.initialDeposit
      submitTime   := ctx.blockTime
      expedited    := msg.expedited
    }
    let (s, proposalID) ← submitProposal ctx s proposal
    if msg.initialDeposit.isZero then
      return s
    else
      k.addDeposit ctx s proposalID msg.proposer msg.initialDeposit
  | .vote msg =>
    addVote ctx s msg.proposalId msg.voter [⟨msg.option, LegacyDec.ofInt 1⟩] msg.metadata
  | .voteWeighted msg => addVote ctx s msg.proposalId msg.voter msg.weightedOptions msg.metadata
  | .deposit msg => k.addDeposit ctx s msg.proposalId msg.depositor msg.amount
  | .updateParams msg => do
    failIf (msg.authority ≠ k.authorityString) (.error "invalid authority")
    return { s with params := some msg.params }
  | .slashValidator msg => do
    failIf (msg.authority ≠ k.authorityString) (.error "invalid authority")
    k.slashValidatorProposal ctx s msg.validatorAddress msg.slashPercentage

-- A message is validated before its handler sees it, in a transaction and through the router.
def deliver (k : Keeper μ σ) (ctx : Context) (s : State σ) (msg : Msg) : Result (State σ) := do
  msg.validateBasic k
  k.handle ctx s msg

def call (k : Keeper μ σ) (ctx : Context) (s : State σ) : Call σ → Result (State σ)
  | .own msg => k.deliver ctx s msg
  | .other run => do
    let (bank, rest) ← run ctx s.bank s.rest
    return { s with bank, rest }

def runHandler (k : Keeper μ σ) (ctx : Context) (s : State σ) (calls : List (Call σ)) :
    Result (State σ) :=
  calls.foldlM (k.call ctx) s

-- The loop over the messages, with the messages that were given to their handlers.
def runMessages (k : Keeper μ σ) (ctx : Context) (router : μ → Option (List (Call σ))) :
    ℕ → State σ → List Any → List μ × Except Halt (State σ)
  | _, s, [] => ([], .ok s)
  | i, s, msgAny :: messages =>
    match k.unpackAny msgAny with
    | .error err => ([], .error (.unpack i err))
    | .ok msg =>
      match router msg with
      | none => ([], .error (.noHandler i (k.typeName msg)))
      | some handler =>
        match k.runHandler ctx s handler with
        | .error e => ([msg], .error (.handler i e))
        | .ok s =>
          let (handled, result) := k.runMessages ctx router (i + 1) s messages
          (msg :: handled, result)

section RunMessages

variable {k : Keeper μ σ} {ctx : Context} {s s' : State σ} {router : μ → Option (List (Call σ))}
variable {msgAny : Any} {messages : List Any} {msg : μ} {handler : List (Call σ)} {i : ℕ}

theorem runMessages_unpack {err : String} (hu : k.unpackAny msgAny = .error err) :
    k.runMessages ctx router i s (msgAny :: messages) = ([], .error (.unpack i err)) := by
  simp only [runMessages, hu]

theorem runMessages_noHandler (hu : k.unpackAny msgAny = .ok msg) (hr : router msg = none) :
    k.runMessages ctx router i s (msgAny :: messages) =
      ([], .error (.noHandler i (k.typeName msg))) := by
  simp only [runMessages, hu, hr]

theorem runMessages_handler {e : Failure} (hu : k.unpackAny msgAny = .ok msg)
    (hr : router msg = some handler) (hs : k.runHandler ctx s handler = .error e) :
    k.runMessages ctx router i s (msgAny :: messages) = ([msg], .error (.handler i e)) := by
  simp only [runMessages, hu, hr, hs]

theorem runMessages_ok (hu : k.unpackAny msgAny = .ok msg) (hr : router msg = some handler)
    (hs : k.runHandler ctx s handler = .ok s') :
    k.runMessages ctx router i s (msgAny :: messages) =
      (msg :: (k.runMessages ctx router (i + 1) s' messages).1,
        (k.runMessages ctx router (i + 1) s' messages).2) := by
  simp only [runMessages, hu, hr, hs]

end RunMessages

-- The messages run on a cached state that is written when none of them fails.
def executeProposal (k : Keeper μ σ) (ctx : Context) (s : State σ) (proposal : Proposal) :
    Result (State σ × Option Failure) :=
  match k.msgRouter with
  | none => .ok (s, some (.error "message router not configured"))
  | some router =>
    match (k.runMessages ctx router 0 s proposal.messages).2 with
    | .ok s => .ok (s, none)
    | .error (.unpack i err) =>
      .ok (s, some (.error s!"failed to unpack proposal message {i}: {err}"))
    | .error (.noHandler i typeName) =>
      .ok (s, some (.error s!"no handler for proposal message {i}: {typeName}"))
    | .error (.handler i (.error err)) =>
      .ok (s.setProposal { proposal with status := .failed },
        some (.error s!"proposal {proposal.id} message {i} failed: {err}"))
    | .error (.handler _ (.panic text)) => .error (.panic text)

-- The deposit of a passed proposal is burned.
def executeTreasuryTransfer (k : Keeper μ σ) (s : State σ) (proposal : Proposal) :
    Result (State σ × Option Failure) :=
  if proposal.totalDeposit.isZero then
    .ok (s, none)
  else
    match s.bank.burnCoins k.moduleAddr proposal.totalDeposit with
    | .ok bank => .ok ({ s with bank }.emit (.depositBurned proposal.id proposal.totalDeposit), none)
    | .error (.error err) =>
      .ok (s.emit (.depositBurnFailed proposal.id proposal.totalDeposit),
        some (.error s!"failed to burn deposit for proposal {proposal.id}: {err}"))
    | .error (.panic text) => .error (.panic text)

def refundDeposit (k : Keeper μ σ) (s : State σ) (proposalID : UInt64) (deposit : Deposit) :
    Result (State σ × Option Failure) :=
  match k.accAddressFromBech32 deposit.depositor with
  | none =>
    .ok (s.emit (.depositRefundFailed proposalID (some deposit.depositor)),
      some (.error s!"failed to decode depositor {deposit.depositor}"))
  | some depositorAddr =>
    match s.bank.sendCoinsFromModuleToAccount k.moduleAddr depositorAddr deposit.amount with
    | .ok bank =>
      .ok ({ s with bank }.emit (.depositRefunded proposalID deposit.depositor deposit.amount), none)
    | .error (.error err) =>
      .ok (s.emit (.depositRefundFailed proposalID (some deposit.depositor)),
        some (.error s!"failed to refund depositor {deposit.depositor}: {err}"))
    | .error (.panic text) => .error (.panic text)

-- Every deposit is tried, and the first failure is reported.
def refundEach (k : Keeper μ σ) (proposalID : UInt64) :
    List Deposit → State σ → Result (State σ × Option Failure)
  | [], s => .ok (s, none)
  | deposit :: deposits, s => do
    let (s, err) ← k.refundDeposit s proposalID deposit
    let (s, err') ← k.refundEach proposalID deposits s
    return (s, err.or err')

def refundDeposits (k : Keeper μ σ) (s : State σ) (proposalID : UInt64) : Result (State σ) := do
  let (s, err) ← k.refundEach proposalID (s.getDeposits proposalID) s
  return if err.isSome then s.emit (.depositRefundFailed proposalID none) else s

def processDepositPeriodEnd (k : Keeper μ σ) (ctx : Context) (s : State σ) (proposal : Proposal) :
    Result (State σ) := do
  let params ← orFail s.params errNotFound
  if proposal.totalDeposit.isAllGTE params.minDeposit then
    return (s.setProposal (proposal.startVoting ctx params)).emit
      (.votingStarted proposal.id params.minDeposit)
  else
    let s ← k.refundDeposits s proposal.id
    return s.setProposal { proposal with status := .failed }

-- A failure of the execution or of the burn is logged.
def executePassed (k : Keeper μ σ) (ctx : Context) (s : State σ) (proposal : Proposal) :
    Result (State σ) := do
  match ← k.executeProposal ctx s proposal with
  | (s, some _) => return s
  | (s, none) => return (← k.executeTreasuryTransfer s proposal).1

def processVotingPeriodEnd (k : Keeper μ σ) (ctx : Context) (s : State σ) (proposal : Proposal) :
    Result (State σ) := do
  let (s, tally) ← k.tallyVotes s proposal.id
  let params ← orFail s.params errNotFound
  let outcome ← k.determineProposalOutcome s tally params
  let proposal := { proposal with status := outcome, finalTallyResult := tally }
  let s ← if outcome = .passed then k.executePassed ctx s proposal else .ok s
  let s ← if outcome = .rejected then k.refundDeposits s proposal.id else .ok s
  return s.setProposal proposal

def processProposal (k : Keeper μ σ) (ctx : Context) (s : State σ) (proposal : Proposal) :
    Result (State σ) :=
  match proposal.status with
  | .depositPeriod =>
    if proposal.depositEndTime < ctx.blockTime then k.processDepositPeriodEnd ctx s proposal
    else .ok s
  | .votingPeriod =>
    if proposal.votingEndTime < ctx.blockTime then k.processVotingPeriodEnd ctx s proposal
    else .ok s
  | _ => .ok s

-- The proposals are read once before they are processed.
def endBlocker (k : Keeper μ σ) (ctx : Context) (s : State σ) : Result (State σ) :=
  s.getProposals.foldlM (k.processProposal ctx) s

end Keeper

end Governance
