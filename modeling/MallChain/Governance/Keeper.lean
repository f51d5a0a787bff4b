import MallChain.Governance.Types

namespace Governance

open Sdk

variable {μ σ : Type}

-- The basic validation of messages

def MsgSubmitProposal.validateBasic (k : Keeper μ σ) (m : MsgSubmitProposal) : Result Unit := do
  failIf (m.proposer = "") errInvalidProposer
  let _ ← orFail (k.accAddressFromBech32 m.proposer) errInvalidAddress
  failIf (m.title = "") errInvalidProposal
  failIf (m.summary = "") errInvalidProposal
  failIf (m.messages = []) errInvalidProposal
  failIf (m.initialDeposit.isValid = false) errInvalidProposal
  failIf (∃ c ∈ m.initialDeposit, c.amount < 0) errInvalidProposal

-- Each weight lies in (0, 1], no option is given twice, and the weights add up to 1.
def checkWeights (seen : List VoteOption) (totalWeight : LegacyDec) :
    List WeightedVoteOption → Result Unit
  | [] => failIf (totalWeight ≠ LegacyDec.ofInt 1) errInvalidVote
  | wo :: options => do
    failIf (wo.option = .unspecified ∨ wo.option ∈ seen) errInvalidVote
    failIf (wo.weight.i ≤ 0 ∨ (LegacyDec.ofInt 1).i < wo.weight.i) errInvalidVote
    checkWeights (wo.option :: seen) (← totalWeight.add wo.weight) options

def MsgVote.validateBasic (k : Keeper μ σ) (m : MsgVote) : Result Unit := do
  failIf (m.voter = "") errInvalidVoter
  let _ ← orFail (k.accAddressFromBech32 m.voter) errInvalidAddress
  failIf (m.option.toInt ≤ 0) errInvalidVote

def MsgVoteWeighted.validateBasic (k : Keeper μ σ) (m : MsgVoteWeighted) : Result Unit := do
  failIf (m.voter = "") errInvalidVoter
  let _ ← orFail (k.accAddressFromBech32 m.voter) errInvalidAddress
  failIf (m.weightedOptions = []) errInvalidVote
  checkWeights [] (LegacyDec.ofInt 0) m.weightedOptions

def MsgDeposit.validateBasic (k : Keeper μ σ) (m : MsgDeposit) : Result Unit := do
  failIf (m.depositor = "") errInvalidDepositor
  let _ ← orFail (k.accAddressFromBech32 m.depositor) errInvalidAddress
  failIf (m.amount.isValid = false) errInvalidDeposit
  failIf (∃ c ∈ m.amount, c.amount < 0) errInvalidDeposit

def MsgUpdateParams.validateBasic (k : Keeper μ σ) (m : MsgUpdateParams) : Result Unit := do
  failIf (m.authority = "") errInvalidAuthority
  let _ ← orFail (k.accAddressFromBech32 m.authority) errInvalidAddress

def MsgSlashValidator.validateBasic (k : Keeper μ σ) (m : MsgSlashValidator) : Result Unit := do
  failIf (m.authority = "") errInvalidAuthority
  let _ ← orFail (k.accAddressFromBech32 m.authority) errInvalidAddress
  failIf (m.validatorAddress = "") errInvalidProposal
  let _ ← orFail (k.valAddressFromBech32 m.validatorAddress) errInvalidAddress
  failIf (100 < m.slashPercentage) errInvalidProposal

namespace Msg

def validateBasic (k : Keeper μ σ) : Msg → Result Unit
  | submitProposal msg => msg.validateBasic k
  | vote msg => msg.validateBasic k
  | voteWeighted msg => msg.validateBasic k
  | deposit msg => msg.validateBasic k
  | updateParams msg => msg.validateBasic k
  | slashValidator msg => msg.validateBasic k

-- The account that a message names as its signer.
def signer : Msg → String
  | submitProposal msg => msg.proposer
  | vote msg => msg.voter
  | voteWeighted msg => msg.voter
  | deposit msg => msg.depositor
  | updateParams msg => msg.authority
  | slashValidator msg => msg.authority

end Msg

namespace State

def emit (s : State σ) (e : Event) : State σ :=
  { s with events := s.events ++ [e] }

def setProposal (s : State σ) (proposal : Proposal) : State σ :=
  { s with proposals := s.proposals.set proposal.id proposal }

def setVote (s : State σ) (vote : Vote) : State σ :=
  { s with votes := s.votes.set (join vote.proposalId vote.voter) vote }

def setDeposit (s : State σ) (deposit : Deposit) : State σ :=
  { s with deposits := s.deposits.set (join deposit.proposalId deposit.depositor) deposit }

-- The votes and the deposits of a proposal, in the order of their keys.
def getVotes (s : State σ) (proposalID : UInt64) : List Vote :=
  (s.votes.entries.filter (·.1.1 = proposalID)).map (·.2)

def getDeposits (s : State σ) (proposalID : UInt64) : List Deposit :=
  (s.deposits.entries.filter (·.1.1 = proposalID)).map (·.2)

-- A new record for a depositor, or the old one with the coins added.
def getOrCreateDeposit (s : State σ) (proposalID : UInt64) (depositor : String)
    (depositAmount : Coins) : Result Deposit :=
  match s.deposits.get (join proposalID depositor) with
  | none => .ok ⟨proposalID, depositor, depositAmount⟩
  | some deposit => return { deposit with amount := ← deposit.amount.add depositAmount }

def getProposals (s : State σ) : List Proposal :=
  s.proposals.entries.map (·.2)

end State

-- A proposal with enough coins enters its voting period.
def Proposal.startVoting (proposal : Proposal) (ctx : Context) (params : Params) : Proposal :=
  { proposal with
    status          := .votingPeriod
    votingStartTime := ctx.blockTime
    votingEndTime   := ctx.blockTime + params.votingPeriod }

namespace Keeper

def submitProposal (ctx : Context) (s : State σ) (proposal : Proposal) :
    Result (State σ × UInt64) := do
  let proposalID := s.proposalID
  let s := { s with proposalID := proposalID + 1 }
  let params ← orFail s.params errNotFound
  let proposal := { proposal with
    id             := proposalID
    submitTime     := ctx.blockTime
    status         := .depositPeriod
    depositEndTime := ctx.blockTime + params.getDepositPeriod }
  return (s.setProposal proposal, proposalID)

-- The coins of a deposit move to the module account.
def collect (k : Keeper μ σ) (s : State σ) (proposalID : UInt64) (depositor : String)
    (depositAmount : Coins) : Result (State σ) :=
  if depositAmount.isZero then
    .ok s
  else do
    let depositorAddr ← orFail (k.accAddressFromBech32 depositor) errInvalidAddress
    let bank ← s.bank.sendCoins depositorAddr k.moduleAddr depositAmount
    return { s with bank }.emit (.received proposalID depositor depositAmount)

def addDeposit (k : Keeper μ σ) (ctx : Context) (s : State σ) (proposalID : UInt64)
    (depositor : String) (depositAmount : Coins) : Result (State σ) := do
  let proposal ← orFail (s.proposals.get proposalID) errNotFound
  failIf (proposal.status ≠ .depositPeriod) errInvalidProposal
  failIf (proposal.depositEndTime < ctx.blockTime) errInvalidProposal
  let deposit ← s.getOrCreateDeposit proposalID depositor depositAmount
  let s ← k.collect s proposalID depositor depositAmount
  let proposal := { proposal with totalDeposit := ← proposal.totalDeposit.add depositAmount }
  let params ← orFail s.params errNotFound
  let s := s.setDeposit deposit
  if proposal.totalDeposit.isAllGTE params.minDeposit then
    return (s.setProposal (proposal.startVoting ctx params)).emit
      (.votingStarted proposalID params.minDeposit)
  else
    return s.setProposal proposal

def addVote (ctx : Context) (s : State σ) (proposalID : UInt64) (voter : String)
    (options : List WeightedVoteOption) (metadata : String) : Result (State σ) := do
  let proposal ← orFail (s.proposals.get proposalID) errNotFound
  failIf (proposal.status ≠ .votingPeriod) errInvalidProposal
  failIf (proposal.votingEndTime < ctx.blockTime) errVotingPeriodEnded
  checkWeights [] (LegacyDec.ofInt 0) options
  return s.setVote { proposalId := proposalID, voter, options, metadata }

end Keeper

-- The votes for an option are added to its count. Unknown options count for nothing.
def TallyResult.count (tally : TallyResult) (votes : ℤ) : VoteOption → Result TallyResult
  | .yes => return { tally with yesCount := ← MathInt.add tally.yesCount votes }
  | .no => return { tally with noCount := ← MathInt.add tally.noCount votes }
  | .noWithVeto => return { tally with noWithVetoCount := ← MathInt.add tally.noWithVetoCount votes }
  | .abstain => return { tally with abstainCount := ← MathInt.add tally.abstainCount votes }
  | .unspecified => .ok tally
  | .unknown _ => .ok tally

def TallyResult.totalVotes (tally : TallyResult) : Result ℤ := do
  let votes ← MathInt.add tally.yesCount tally.noCount
  let votes ← MathInt.add votes tally.noWithVetoCount
  MathInt.add votes tally.abstainCount

namespace Keeper

-- A voter counts with the delegated stake, and without a staking module once.
def tallyVote (k : Keeper μ σ) (s : State σ) (tally : TallyResult) (vote : Vote) :
    Result TallyResult :=
  match k.stakingKeeper with
  | none =>
    vote.options.foldlM (fun tally wo => do
      tally.count (← wo.weight.truncateInt) wo.option) tally
  | some stakingKeeper => do
    let voterAddr ← orFail (k.accAddressFromBech32 vote.voter) errInvalidAddress
    let delegations ← stakingKeeper.getDelegatorDelegations s.rest voterAddr
    let stakeWeight ← delegations.foldlM (fun stake shares => do
      MathInt.add stake (← shares.truncateInt)) 0
    if stakeWeight = 0 then
      return tally
    vote.options.foldlM (fun tally wo => do
      let votePower ← (← (LegacyDec.ofInt stakeWeight).mul wo.weight).truncateInt
      tally.count votePower wo.option) tally

def tallyVotes (k : Keeper μ σ) (s : State σ) (proposalID : UInt64) :
    Result (State σ × TallyResult) := do
  let proposal ← orFail (s.proposals.get proposalID) errNotFound
  let tally ← (s.getVotes proposalID).foldlM (k.tallyVote s) {}
  return (s.setProposal { proposal with finalTallyResult := tally }, tally)

def hasQuorum (k : Keeper μ σ) (s : State σ) (tally : TallyResult) (params : Params) :
    Result Bool := do
  let totalVotes ← tally.totalVotes
  if totalVotes = 0 then
    return false
  match k.stakingKeeper with
  | none => return false
  | some stakingKeeper =>
    match stakingKeeper.totalBondedTokens s.rest with
    | .error (.error _) => return false
    | .error (.panic text) => .error (.panic text)
    | .ok totalBonded =>
      if totalBonded = 0 then
        return true
      let quorumRatio ← (LegacyDec.ofInt totalVotes).quo (LegacyDec.ofInt totalBonded)
      return params.quorum.i ≤ quorumRatio.i

def determineProposalOutcome (k : Keeper μ σ) (s : State σ) (tally : TallyResult)
    (params : Params) : Result ProposalStatus := do
  let totalVotes ← tally.totalVotes
  if totalVotes = 0 then
    return .rejected
  let vetoRatio ← (LegacyDec.ofInt tally.noWithVetoCount).quo (LegacyDec.ofInt totalVotes)
  if params.vetoThreshold.i < vetoRatio.i then
    return .rejected
  if !(← k.hasQuorum s tally params) then
    return .rejected
  let yesRatio ← (LegacyDec.ofInt tally.yesCount).quo (LegacyDec.ofInt totalVotes)
  return if params.threshold.i < yesRatio.i then .passed else .rejected

-- A share of the stake of a validator is slashed at the current height.
def slashValidatorProposal (k : Keeper μ σ) (ctx : Context) (s : State σ) (validatorAddr : String)
    (slashPercentage : UInt64) : Result (State σ) := do
  let stakingKeeper ← orFail k.stakingKeeper
    (.error "staking keeper not available for validator slashing")
  failIf (100 < slashPercentage) (.error "slash percentage cannot exceed 100")
  let valAddr ← orFail (k.valAddressFromBech32 validatorAddr) errInvalidAddress
  let tokens ← stakingKeeper.validatorTokens s.rest valAddr
  let slashFraction ← (LegacyDec.ofInt slashPercentage.toNat).quo (LegacyDec.ofInt 100)
  let slashAmount ← (← (LegacyDec.ofInt tokens).mul slashFraction).truncateInt
  if 0 < slashAmount then
    failIf (tokens < -2 ^ 63 ∨ 2 ^ 63 ≤ tokens) (.panic "Int64() out of bound")
    let (bank, rest) ← stakingKeeper.slash s.bank s.rest valAddr ctx.blockHeight tokens slashFraction
    return { s with bank, rest }
  return s

end Keeper

end Governance
