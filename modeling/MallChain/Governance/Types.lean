import MallChain.Lib.KVStore
import MallChain.Sdk.Bank

namespace Governance

open Sdk

inductive ProposalStatus
  | unspecified
  | depositPeriod
  | votingPeriod
  | passed
  | rejected
  | failed
  deriving DecidableEq, Repr

-- The enumerations of proto3 are open: a message can hold any other number.
inductive VoteOption
  | unspecified
  | yes
  | abstain
  | no
  | noWithVeto
  | unknown (value : ℤ)
  deriving DecidableEq, Repr

def VoteOption.toInt : VoteOption → ℤ
  | unspecified => 0
  | yes => 1
  | abstain => 2
  | no => 3
  | noWithVeto => 4
  | unknown value => value

structure WeightedVoteOption where
  option : VoteOption
  weight : LegacyDec
  deriving DecidableEq, Repr

structure Vote where
  proposalId : UInt64
  voter      : String
  options    : List WeightedVoteOption
  metadata   : String

structure TallyResult where
  yesCount        : ℤ := 0
  abstainCount    : ℤ := 0
  noCount         : ℤ := 0
  noWithVetoCount : ℤ := 0
  deriving DecidableEq, Repr

-- A message as it is stored: the name of its type and its encoding.
structure Any where
  typeUrl : String
  value   : List UInt8
  deriving DecidableEq, Repr

-- Times are in nanoseconds.
structure Proposal where
  id               : UInt64 := 0
  title            : String
  summary          : String
  metadata         : String
  proposer         : String
  messages         : List Any
  totalDeposit     : Coins
  submitTime       : ℤ
  expedited        : Bool
  status           : ProposalStatus := .unspecified
  depositEndTime   : ℤ := 0
  votingStartTime  : ℤ := 0
  votingEndTime    : ℤ := 0
  finalTallyResult : TallyResult := {}

structure Deposit where
  proposalId : UInt64
  depositor  : String
  amount     : Coins

structure Params where
  minDeposit    : Coins
  votingPeriod  : ℤ
  quorum        : LegacyDec
  threshold     : LegacyDec
  vetoThreshold : LegacyDec

def defaultDepositPeriod : ℤ := 2 * 24 * 3600 * 1000000000

-- A third of the voting period.
def Params.getDepositPeriod (p : Params) : ℤ :=
  if p.votingPeriod = 0 then defaultDepositPeriod
  else if p.votingPeriod.tdiv 3 ≤ 0 then defaultDepositPeriod
  else p.votingPeriod.tdiv 3

structure MsgSubmitProposal where
  proposer       : String
  metadata       : String
  title          : String
  summary        : String
  messages       : List Any
  initialDeposit : Coins
  expedited      : Bool

structure MsgVote where
  proposalId : UInt64
  voter      : String
  option     : VoteOption
  metadata   : String

structure MsgVoteWeighted where
  proposalId      : UInt64
  voter           : String
  weightedOptions : List WeightedVoteOption
  metadata        : String

structure MsgDeposit where
  proposalId : UInt64
  depositor  : String
  amount     : Coins

structure MsgUpdateParams where
  authority : String
  params    : Params

structure MsgSlashValidator where
  authority        : String
  validatorAddress : String
  slashPercentage  : UInt64

inductive Msg
  | submitProposal (msg : MsgSubmitProposal)
  | vote (msg : MsgVote)
  | voteWeighted (msg : MsgVoteWeighted)
  | deposit (msg : MsgDeposit)
  | updateParams (msg : MsgUpdateParams)
  | slashValidator (msg : MsgSlashValidator)

def errInvalidProposal : Failure := .error "invalid proposal"
def errVotingPeriodEnded : Failure := .error "voting period ended"
def errInvalidAuthority : Failure := .error "invalid authority"
def errInvalidVote : Failure := .error "invalid vote"
def errInvalidDepositor : Failure := .error "invalid depositor"
def errInvalidProposer : Failure := .error "invalid proposer"
def errInvalidVoter : Failure := .error "invalid voter"
def errInvalidDeposit : Failure := .error "invalid deposit"

-- Errors of other modules that reach this one.
def errNotFound : Failure := .error "collections: not found"
def errInvalidAddress : Failure := .error "decoding bech32 failed"

-- What happens to the deposits of a proposal: the module account receives, returns and burns
-- coins for it, or fails to, and the proposal enters its voting period.
inductive Event
  | received (proposalId : UInt64) (depositor : String) (amount : Coins)
  | votingStarted (proposalId : UInt64) (minDeposit : Coins)
  | depositRefunded (proposalId : UInt64) (depositor : String) (amount : Coins)
  | depositRefundFailed (proposalId : UInt64) (depositor : Option String)
  | depositBurned (proposalId : UInt64) (amount : Coins)
  | depositBurnFailed (proposalId : UInt64) (amount : Coins)
  deriving DecidableEq, Repr

structure Context where
  blockHeight : ℤ
  blockTime   : ℤ

-- The key of a pair: `collections.Join`
def join (proposalID : UInt64) (addr : String) : UInt64 ×ₗ String :=
  toLex (proposalID, addr)

@[simp]
theorem join_fst {proposalID : UInt64} {addr : String} : (join proposalID addr).1 = proposalID :=
  rfl

@[simp]
theorem join_snd {proposalID : UInt64} {addr : String} : (join proposalID addr).2 = addr :=
  rfl

-- The collections of the module, the bank, and what the other modules of the chain keep.
structure State (σ : Type) where
  bank       : Bank
  proposals  : KVStore UInt64 Proposal := .empty
  votes      : KVStore (UInt64 ×ₗ String) Vote := .empty
  deposits   : KVStore (UInt64 ×ₗ String) Deposit := .empty
  params     : Option Params
  proposalID : UInt64
  events     : List Event := []
  rest       : σ

-- What the module asks of the staking module, which keeps its own state with the rest.
structure StakingKeeper (σ : Type) where
  getDelegatorDelegations : σ → AccAddress → Result (List LegacyDec)
  totalBondedTokens       : σ → Result ℤ
  validatorTokens         : σ → List UInt8 → Result ℤ
  slash                   : Bank → σ → List UInt8 → ℤ → ℤ → LegacyDec → Result (Bank × σ)

-- What a handler does, one after the other: a message of this module, or something that leaves the
-- store of this module alone.
inductive Call (σ : Type)
  | own (msg : Msg)
  | other (run : Context → Bank → σ → Result (Bank × σ))

-- The messages of the chain with their handlers. A message is unpacked from what is stored, and the
-- router has a handler for the types that are registered.
structure App (μ σ : Type) where
  unpackAny  : Any → Except String μ
  getSigners : μ → List AccAddress
  typeName   : μ → String
  msgRouter  : Option (μ → Option (List (Call σ)))

structure Keeper (μ σ : Type) extends App μ σ where
  authority            : AccAddress
  authorityString      : String
  moduleAddr           : AccAddress
  accAddressFromBech32 : String → Option AccAddress
  valAddressFromBech32 : String → Option (List UInt8)
  stakingKeeper        : Option (StakingKeeper σ)

end Governance
