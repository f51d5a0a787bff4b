import MallChain.Mines.Review

namespace Mines

open Sdk Interleaving Backend

-- What a client writes into a submission: the fields that the review works with, one after another,
-- and all others.
inductive Assignment
  | minerId (minerId : String)
  | campaignId (campaignId : Option String)
  | status (status : String)
  | assignedValidators (assignedValidators : List String)
  | assignmentStatus (assignmentStatus : String)
  | validatorVotes (validatorVotes : Votes)
  | validatorVote (validatorId vote : String)
  | votesRequired (votesRequired : ℚ)
  | votesYes (votesYes : ℚ)
  | votesNo (votesNo : ℚ)
  | votesYesWeight (votesYesWeight : ℚ)
  | votesNoWeight (votesNoWeight : ℚ)
  | votingDeadline (votingDeadline : Option ℤ)
  | rewardAmount (rewardAmount : ℚ)
  | rewardCurrency (rewardCurrency : String)
  | createdAt (createdAt : ℤ)

structure SubmissionBody where
  named   : List Assignment := []
  content : JsonObject := []

def Assignment.apply (s : TaskSubmission) : Assignment → TaskSubmission
  | .minerId v                      => { s with minerId := v }
  | .campaignId v                   => { s with campaignId := v }
  | .status v                       => { s with status := v }
  | .assignedValidators v           => { s with assignedValidators := v }
  | .assignmentStatus v             => { s with assignmentStatus := v }
  | .validatorVotes v               =>
    { s with validatorVotes := if v.entries = [] then none else some v }
  | .validatorVote validatorId vote =>
    { s with validatorVotes := some ((s.validatorVotes.getD .empty).set validatorId vote) }
  | .votesRequired v                => { s with votesRequired := v }
  | .votesYes v                     => { s with votesYes := v }
  | .votesNo v                      => { s with votesNo := v }
  | .votesYesWeight v               => { s with votesYesWeight := v }
  | .votesNoWeight v                => { s with votesNoWeight := v }
  | .votingDeadline v               => { s with votingDeadline := v }
  | .rewardAmount v                 => { s with rewardAmount := v }
  | .rewardCurrency v               => { s with rewardCurrency := v }
  | .createdAt v                    => { s with createdAt := v }

def SubmissionBody.apply (body : SubmissionBody) (s : TaskSubmission) : TaskSubmission :=
  let s := body.named.foldl Assignment.apply s
  { s with content := s.content ++ body.content }

def assignmentStatuses : List String :=
  ["none", "pending_assignment", "assigned", "voting", "vote_complete", "admin_review", "approved",
    "rejected"]

section Campaigns

variable (cfg : Config)

def minCampaignMultiplier : ℚ := 1 / 2
def maxCampaignMultiplier : ℚ := 5

def clampMultiplier (multiplier : ℚ) : ℚ :=
  min maxCampaignMultiplier (max minCampaignMultiplier multiplier)

def computeCampaignRate (platform activity : String) (multiplier : ℚ) : Option ℚ :=
  (cfg.baseRate platform activity).map fun baseRate =>
    Binary64.div (mathRound (Binary64.mul (Binary64.mul baseRate (clampMultiplier multiplier)) 10000))
      10000

-- The transaction of `POST /campaigns/create`. The id is a new one.
def fundCampaign (userId id platform : String) (ratePerTask budget : ℚ) (w : World) : World :=
  match w.users.get userId, w.campaigns.get id with
  | some user, none =>
    if user.mlptsBalance ≥ budget then
      (({ w.incBalance userId (-budget) with
        campaigns := w.campaigns.set id {
          creatorId       := userId
          platform        := platform
          ratePerTask     := ratePerTask
          budgetRemaining := budget
        }
      } : World).addTransaction {
        userId   := userId
        type     := .debit
        amount   := budget
        currency := "MLPTS"
      }).record (.funded id budget)
    else w
  | _, _ => w

def campaignsCreate (userId id platform activity : String) (multiplier budget : ℚ) :
    Handler Unit := do
  match computeCampaignRate cfg platform activity multiplier with
  | none => return
  | some ratePerTask =>
    if budget ≤ 0 ∨ budget < ratePerTask then return
    .write .write (fundCampaign userId id platform ratePerTask budget)

end Campaigns

section Submissions

variable (cfg : Config)

-- The check in the snapshot that the transaction reads. The id of a campaign in a submission is a
-- string, which the join of the daily cap does not find among the ids of the campaigns.
def checkCampaignAbuseLimits (userId : String) (campaignId : Option String) (now : ℤ) (w : World) :
    Bool :=
  match campaignId with
  | none            => true
  | some campaignId =>
    match w.campaigns.get campaignId with
    | none          => false
    | some campaign =>
      let existing := w.submissions.values.filter fun s =>
        s.minerId = userId ∧ s.campaignId = some campaignId ∧ s.status ≠ "rejected"
      let maxPerUser :=
        if campaign.maxCompletionsPerUser = 0 then 1 else campaign.maxCompletionsPerUser
      let cooldownMs := campaign.cooldownSeconds * 1000
      let recentSamePlatform := 0
      campaign.status = "active" ∧ campaign.budgetRemaining > 0 ∧ existing.length < maxPerUser ∧
        (cooldownMs > 0 → ∀ s ∈ existing, now - s.createdAt ≥ cooldownMs) ∧
        Binary64.add recentSamePlatform campaign.ratePerTask ≤ cfg.dailyCapMlpts campaign.platform

def created (userId : String) (body : SubmissionBody) (now : ℤ) : TaskSubmission :=
  { body.apply { minerId := userId, createdAt := now } with minerId := userId }

def insertSubmission (id : String) (row : TaskSubmission) (w : World) : World :=
  if (w.submissions.get id).isNone then { w with submissions := w.submissions.set id row } else w

-- `POST /submissions`. The insertion is in conflict with nothing that the check has read.
def submit (userId id : String) (body : SubmissionBody) (now : ℤ) (shuffled : List String) :
    Handler Unit := do
  let row := created userId body now
  let admitted ← .read .read (checkCampaignAbuseLimits cfg userId row.campaignId now)
  if !admitted ∨ row.assignmentStatus ∉ assignmentStatuses then return
  let isNew ← .act (.inserting id row now) (insertSubmission id row) fun w =>
    (w.submissions.get id).isNone
  if isNew then autoAssignReviewers id { Doc.read row with votesMarked := false } shuffled now

-- `PUT /submissions/:id`
def update (userId id : String) (body : SubmissionBody) : Handler Unit := do
  let some stored ← .read .read (·.submissions.get id) | return
  if stored.minerId ≠ userId then return
  .write (.updating id body.apply) (·.updateSubmission id body.apply)

-- `POST /submissions/:id/approve`. An amount of zero is none.
def approve (id : String) (rewardAmount : ℚ) (commits : Bool) : Handler Unit := do
  let some stored ← .read .read (·.submissions.get id) | return
  let campaign ← .read .read fun w => stored.campaignId.bind w.campaigns.get
  let finalReward :=
    if rewardAmount = 0 then (campaign.map (·.ratePerTask)).getD 0 else rewardAmount
  .write (.deciding id true) (·.updateSubmission id fun s =>
    { s with status := "auto_approved", rewardAmount := finalReward })
  if !commits then
    .skip .failing
    return
  .write (.rewarding stored.campaignId finalReward) (reward id stored "MLPTS" finalReward)
  match stored.campaignId with
  | none            => return
  | some campaignId =>
    .write (.charging campaignId finalReward) (·.chargeCampaign campaignId finalReward)

-- `POST /submissions/:id/reject`, through both routers
def reject (id : String) : Handler Unit :=
  .write (.deciding id false) fun w =>
    match w.submissions.get id with
    | none   => w
    | some _ => (w.updateSubmission id fun s => { s with status := "rejected" }).record (.rejected id)

-- `POST /mining/submissions/:id/approve`. The balance of the miner stays as it is.
def panelApprove (id : String) (rewardAmount : ℚ) : Handler Unit := do
  let some stored ← .read .read (·.submissions.get id) | return
  .write (.deciding id true) (·.updateSubmission id fun s => { s with status := "auto_approved" })
  .write (.rewarding stored.campaignId rewardAmount) fun w =>
    (w.addTransaction {
      userId   := stored.minerId
      type     := .credit
      amount   := rewardAmount
      currency := "MLPTS"
    }).record (.rewarded id stored.campaignId rewardAmount)
  match stored.campaignId with
  | none            => return
  | some campaignId =>
    .write (.charging campaignId rewardAmount) (·.chargeCampaign campaignId rewardAmount)

end Submissions

section Stakes

variable (user : String)

def stakeStatusOf (stakedAmount : ℚ) (reviewer : MinesReviewer) : StakeStatus :=
  if stakedAmount ≥ reviewer.minRequiredStake then .active else .unstaked

-- The transaction of `POST /reviewer/stake`
def addStake (amount : ℚ) (w : World) : World :=
  match w.users.get user with
  | none   => w
  | some u =>
    if u.mlptsBalance ≥ amount then
      let reviewer := (w.reviewers.get user).getD {}
      let stakedAmount := Binary64.add reviewer.stakedAmount amount
      { w.incBalance user (-amount) with
        reviewers := w.reviewers.set user { reviewer with
          stakedAmount
          stakeStatus := stakeStatusOf stakedAmount reviewer
        }
      }
    else w

def stake (amount : ℚ) (commits : Bool) : Handler Unit := do
  if amount ≤ 0 then return
  if commits then .write (.staking user amount) (addStake user amount)

-- The reviewer in the memory of the handler after the callback has run once more: its stake, and whether
-- its status is marked.
structure StakeDoc where
  stakedAmount : ℚ
  stakeStatus  : StakeStatus
  statusMarked : Bool := false
  deriving DecidableEq, Repr

def StakeDoc.withdraw (reviewer : MinesReviewer) (amount : ℚ) (d : StakeDoc) : StakeDoc :=
  let stakedAmount := Binary64.sub d.stakedAmount amount
  let stakeStatus := stakeStatusOf stakedAmount reviewer
  { stakedAmount, stakeStatus, statusMarked := d.statusMarked || stakeStatus ≠ d.stakeStatus }

-- A callback that is run again finds the document as the run before has left it.
def StakeDoc.retry (reviewer : MinesReviewer) (amount : ℚ) (d : StakeDoc) (saved : Bool) : StakeDoc :=
  let d := d.withdraw reviewer amount
  if saved then { d with statusMarked := false } else d

def removeStake (amount : ℚ) (d : StakeDoc) (w : World) : World :=
  (w.updateReviewer user fun reviewer => { reviewer with
    stakedAmount := d.stakedAmount
    stakeStatus  := if d.statusMarked then d.stakeStatus else reviewer.stakeStatus
  }).incBalance user amount

-- A vote that the reviewer still owes.
def pendingVote (now : ℤ) (w : World) : Bool :=
  w.submissions.values.any fun s =>
    user ∈ s.assignedValidators ∧ s.assignmentStatus ∈ ["assigned", "voting"] ∧
      s.votingDeadline.any (· > now) ∧ ((s.validatorVotes.getD .empty).get user).isNone

-- `POST /reviewer/unstake`. An amount of zero is none.
def unstake (amount : ℚ) (now : ℤ) (attempts : Attempts) : Handler Unit := do
  let some reviewer ← .read .read (·.reviewers.get user) | return
  if reviewer.stakedAmount ≤ 0 then return
  let pending ← .read .read (pendingVote user now)
  if pending then return
  let amount := if amount = 0 then reviewer.stakedAmount else amount
  if amount ≤ 0 ∨ amount > reviewer.stakedAmount then return
  let d : StakeDoc := { stakedAmount := reviewer.stakedAmount, stakeStatus := reviewer.stakeStatus }
  let d := (attempts.retried.foldl (StakeDoc.retry reviewer amount) d).withdraw reviewer amount
  if attempts.commits then
    .write (.unstaking user reviewer.stakedAmount amount attempts.retried.length)
      (removeStake user amount d)

-- Any other credit or debit. A debit finds what it takes.
def adjust (amount : ℚ) : Handler Unit :=
  .write (.adjusting user amount) fun w =>
    match w.users.get user with
    | none   => w
    | some u =>
      if u.mlptsBalance + amount ≥ 0 then
        (w.incBalance user amount).record (.adjusted user amount)
      else w

end Stakes

end Mines
