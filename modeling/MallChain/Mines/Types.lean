import MallChain.Lib.Binary64
import MallChain.Lib.Interleaving
import MallChain.Lib.KVStore
import MallChain.Sdk.Json

namespace Mines

open Sdk Interleaving

structure User where
  mlptsBalance : ℚ := 0
  deriving DecidableEq, Repr

inductive StakeStatus
  | unstaked
  | active
  | suspended
  deriving DecidableEq, Repr

structure MinesReviewer where
  stakedAmount     : ℚ := 0
  minRequiredStake : ℚ := 50
  stakeStatus      : StakeStatus := .unstaked
  missedVoteStreak : ℕ := 0
  tasksAssigned    : ℕ := 0
  tasksVoted       : ℕ := 0
  tasksApproved    : ℕ := 0
  tasksRejected    : ℕ := 0
  miningReputation : ℚ := 50
  totalEarnings    : ℚ := 0
  deriving DecidableEq, Repr

structure Campaign where
  creatorId             : String
  platform              : String
  status                : String := "active"
  ratePerTask           : ℚ
  budgetRemaining       : ℚ
  completionsCount      : ℕ := 0
  maxCompletionsPerUser : ℕ := 1
  cooldownSeconds       : ℤ := 3600
  deriving DecidableEq, Repr

abbrev Votes := KVStore String String

-- A document of the collection. An empty object of votes is not stored. The content is what only the
-- people who review it look at.
structure TaskSubmission where
  minerId            : String
  campaignId         : Option String := none
  status             : String := "manual_review"
  assignedValidators : List String := []
  assignmentStatus   : String := "none"
  validatorVotes     : Option Votes := none
  votesRequired      : ℚ := 6
  votesYes           : ℚ := 0
  votesNo            : ℚ := 0
  votesYesWeight     : ℚ := 0
  votesNoWeight      : ℚ := 0
  votingDeadline     : Option ℤ := none
  rewardAmount       : ℚ := 0
  rewardCurrency     : String := "MLPTS"
  createdAt          : ℤ
  content            : JsonObject := []

inductive TransactionType
  | credit
  | debit
  deriving DecidableEq, Repr

structure WalletTransaction where
  userId   : String
  type     : TransactionType
  amount   : ℚ
  currency : String
  deriving DecidableEq, Repr

inductive Event
  -- the budget of a new campaign, taken from its creator
  | funded (campaign : String) (budget : ℚ)
  -- a credit to the miner of a submission
  | rewarded (submission : String) (campaign : Option String) (amount : ℚ)
  -- what is taken off the budget of a campaign
  | charged (campaign : String) (amount : ℚ)
  -- the answer to an administrator who rejected a submission
  | rejected (submission : String)
  -- the answer to a reviewer whose vote is recorded
  | acknowledged (submission reviewer vote : String) (weight : ℚ)
  -- a change of a balance that is neither of a stake nor of a campaign
  | adjusted (user : String) (amount : ℚ)
  deriving DecidableEq, Repr

-- The collections, and what happened so far, the latest first.
structure World where
  users        : KVStore String User := .empty
  reviewers    : KVStore String MinesReviewer := .empty
  campaigns    : KVStore String Campaign := .empty
  submissions  : KVStore String TaskSubmission := .empty
  transactions : List WalletTransaction := []
  events       : List Event := []

-- The numbers that are set by the environment, and the tables of the rates.
structure Config where
  voteReward        : ℚ
  approvalThreshold : ℚ
  baseRate          : String → String → Option ℚ
  dailyCapMlpts     : String → ℚ

namespace World

variable (w : World)

def record (e : Event) : World :=
  { w with events := e :: w.events }

def addTransaction (t : WalletTransaction) : World :=
  { w with transactions := t :: w.transactions }

-- An update of a document that is not there does nothing.
def updateUser (id : String) (f : User → User) : World :=
  match w.users.get id with
  | some user => { w with users := w.users.set id (f user) }
  | none      => w

def updateReviewer (id : String) (f : MinesReviewer → MinesReviewer) : World :=
  match w.reviewers.get id with
  | some reviewer => { w with reviewers := w.reviewers.set id (f reviewer) }
  | none          => w

def updateCampaign (id : String) (f : Campaign → Campaign) : World :=
  match w.campaigns.get id with
  | some campaign => { w with campaigns := w.campaigns.set id (f campaign) }
  | none          => w

def updateSubmission (id : String) (f : TaskSubmission → TaskSubmission) : World :=
  match w.submissions.get id with
  | some submission => { w with submissions := w.submissions.set id (f submission) }
  | none            => w

-- `$inc: { mlpts_balance: amount }`
def incBalance (id : String) (amount : ℚ) : World :=
  w.updateUser id fun user => { user with mlptsBalance := Binary64.add user.mlptsBalance amount }

-- `$inc: { completions_count: 1, budget_remaining: -amount }`
def chargeCampaign (id : String) (amount : ℚ) : World :=
  (w.updateCampaign id fun campaign => { campaign with
    completionsCount := campaign.completionsCount + 1
    budgetRemaining  := Binary64.add campaign.budgetRemaining (-amount)
  }).record (.charged id amount)

end World

-- A submission in the memory of a handler, with what it was when it was read or saved last. A change
-- inside the votes is not noticed, unless they were not stored.
structure Doc where
  loaded      : TaskSubmission
  current     : TaskSubmission
  votesMarked : Bool := false

namespace Doc

variable (d : Doc)

def read (s : TaskSubmission) : Doc where
  loaded      := s
  current     := { s with validatorVotes := some (s.validatorVotes.getD .empty) }
  votesMarked := s.validatorVotes.isNone

def votes : Votes :=
  d.current.validatorVotes.getD .empty

-- A field is written if it has another value than before.
def written {α : Type} [DecidableEq α] (field : TaskSubmission → α) (stored : TaskSubmission) : α :=
  if field d.current = field d.loaded then field stored else field d.current

-- `save` on what is stored.
def save (stored : TaskSubmission) : TaskSubmission := { stored with
  status             := d.written (·.status) stored
  assignedValidators := d.written (·.assignedValidators) stored
  assignmentStatus   := d.written (·.assignmentStatus) stored
  validatorVotes     :=
    if d.votesMarked then (if d.votes.entries = [] then none else some d.votes)
    else stored.validatorVotes
  votesRequired      := d.written (·.votesRequired) stored
  votesYes           := d.written (·.votesYes) stored
  votesNo            := d.written (·.votesNo) stored
  votesYesWeight     := d.written (·.votesYesWeight) stored
  votesNoWeight      := d.written (·.votesNoWeight) stored
  votingDeadline     := d.written (·.votingDeadline) stored
  rewardAmount       := d.written (·.rewardAmount) stored
}

-- The document after it has been saved.
def saved : Doc where
  loaded  := d.current
  current := d.current

end Doc

-- The steps of the handlers.
inductive Label
  | read
  | write
  -- a new submission that was admitted at some time
  | inserting (id : String) (row : TaskSubmission) (now : ℤ)
  | updating (id : String) (update : TaskSubmission → TaskSubmission)
  -- an administrator approves or rejects a submission
  | deciding (submission : String) (approved : Bool)
  -- a review is settled with the outcome in the document
  | settling (submission : String) (task : Doc) (reward : ℚ)
  | rewarding (campaign : Option String) (reward : ℚ)
  | charging (campaign : String) (reward : ℚ)
  | saveVote (submission : String) (task : Doc)
  -- a step that fails, after which the handler answers with an error
  | failing
  | staking (user : String) (amount : ℚ)
  | unstaking (user : String) (read amount : ℚ) (retries : ℕ)
  | adjusting (user : String) (amount : ℚ)

abbrev Handler := Prog Label World

-- The attempts of a transaction: for each that is retried, whether it had saved the document before, and
-- whether the last one is committed.
structure Attempts where
  retried : List Bool := []
  commits : Bool := true
  deriving DecidableEq, Repr

end Mines
