import MallChain.Backend.Number
import MallChain.Mines.Types

namespace Mines

open Interleaving Backend

def missedVotePenalty : ℚ := 5
def suspendAfterMisses : ℕ := 3
def reviewersPerTask : ℕ := 6
def votingWindowMs : ℤ := 48 * 60 * 60 * 1000

section Reputation

def computeWeight (reviewer : MinesReviewer) : ℚ :=
  max (Binary64.round (1 / 5)) (Binary64.div reviewer.miningReputation 100)

-- The reputation of a reviewer who has voted.
def computeReputationStats (reviewer : MinesReviewer) : Option ℚ :=
  if reviewer.tasksVoted > 0 then
    let tasksVoted : ℚ := reviewer.tasksVoted
    let tasksAssigned : ℚ :=
      if reviewer.tasksAssigned = 0 then tasksVoted else reviewer.tasksAssigned
    let approvalRate : ℚ :=
      mathRound (Binary64.mul (Binary64.div reviewer.tasksApproved tasksVoted) 100)
    let responseRate : ℚ := mathRound (Binary64.mul (Binary64.div tasksVoted tasksAssigned) 100)
    let consistencyScore := 100 - |approvalRate - 60|
    let volumeScore := min (tasksVoted * 5) 100
    some (mathRound (Binary64.add
      (Binary64.add (Binary64.mul responseRate (Binary64.round (2 / 5)))
        (Binary64.mul consistencyScore (Binary64.round (3 / 10))))
      (Binary64.mul volumeScore (Binary64.round (3 / 10)))))
  else none

def refreshReviewerStats (validatorId : String) : Handler Unit := do
  let reviewer ← .read .read (·.reviewers.get validatorId)
  match reviewer.bind computeReputationStats with
  | none => return
  | some miningReputation =>
    .write .write (·.updateReviewer validatorId fun reviewer => { reviewer with miningReputation })

end Reputation

section Assignment

def reviewerPool (minerId : String) (w : World) : List String :=
  (w.reviewers.entries.filter fun e => e.2.stakeStatus = .active ∧ e.1 ≠ minerId).map (·.1)

def Doc.assign (task : Doc) (picked : List String) (now : ℤ) : Doc :=
  { task with
    current := { task.current with
      assignedValidators := picked
      assignmentStatus   := "assigned"
      validatorVotes     := some .empty
      votesRequired      := picked.length
      votesYesWeight     := 0
      votesNoWeight      := 0
      votingDeadline     := some (now + votingWindowMs)
    }
    votesMarked := task.votesMarked || !task.votes.entries.isEmpty
  }

-- The reviewers are picked in a random order. Their statistics are refreshed side by side, each by a
-- program of its own.
def autoAssignReviewers (id : String) (task : Doc) (shuffled : List String) (now : ℤ) :
    Handler Unit := do
  let pool ← .read .read (reviewerPool task.current.minerId)
  if pool = [] then return
  let picked := (shuffled.filter (· ∈ pool)).take reviewersPerTask
  let task := task.assign picked now
  .write .write (·.updateSubmission id task.save)
  .write .write fun w => picked.foldl (fun w validatorId =>
    w.updateReviewer validatorId fun reviewer =>
      { reviewer with tasksAssigned := reviewer.tasksAssigned + 1 }) w

end Assignment

section Settlement

variable (cfg : Config)

-- `mlpts_balance` of the miner, with the row in its history.
def reward (id : String) (submission : TaskSubmission) (currency : String) (amount : ℚ)
    (w : World) : World :=
  ((w.addTransaction {
    userId   := submission.minerId
    type     := .credit
    amount   := amount
    currency := currency
  }).incBalance submission.minerId amount).record (.rewarded id submission.campaignId amount)

def penalize (reviewer : MinesReviewer) : MinesReviewer :=
  let missedVoteStreak := reviewer.missedVoteStreak + 1
  let miningReputation := if reviewer.miningReputation = 0 then 50 else reviewer.miningReputation
  { reviewer with
    missedVoteStreak := missedVoteStreak
    miningReputation := max 0 (Binary64.sub miningReputation missedVotePenalty)
    stakeStatus      :=
      if missedVoteStreak ≥ suspendAfterMisses then .suspended else reviewer.stakeStatus
  }

def settleReviewer (votes : Votes) (approved : Bool) (w : World) (reviewerId : String) : World :=
  match votes.get reviewerId with
  | none => w.updateReviewer reviewerId penalize
  | some cast =>
    if decide (cast = "yes") = approved then
      match w.reviewers.get reviewerId with
      | none   => w
      | some _ => (w.updateReviewer reviewerId fun reviewer => { reviewer with
          totalEarnings    := Binary64.add reviewer.totalEarnings cfg.voteReward
          missedVoteStreak := 0
        }).incBalance reviewerId cfg.voteReward
    else w.updateReviewer reviewerId fun reviewer => { reviewer with missedVoteStreak := 0 }

def Doc.decide (task : Doc) (approved : Bool) (finalReward : ℚ) : Doc :=
  { task with current := { task.current with
      status           := if approved then "auto_approved" else "rejected"
      assignmentStatus := if approved then "approved" else "rejected"
      rewardAmount     := finalReward
    } }

-- What the transaction does when it is committed.
def commitSettlement (id : String) (task : Doc) (approved : Bool) (finalReward : ℚ) (w : World) :
    World :=
  let w := w.updateSubmission id task.save
  let w :=
    if approved ∧ finalReward > 0 then reward id task.current task.current.rewardCurrency finalReward w
    else w
  let w :=
    match task.current.campaignId with
    | some campaignId => if approved then w.chargeCampaign campaignId finalReward else w
    | none            => w
  task.current.assignedValidators.foldl (settleReviewer cfg task.votes approved) w

-- A callback that is run again does not write what an earlier run has saved.
def settle (id : String) (task : Doc) (approved : Bool) (attempts : Attempts) :
    Handler (Option Doc) := do
  let campaign ← .read .read fun w => task.current.campaignId.bind w.campaigns.get
  let ratePerTask := (campaign.map (·.ratePerTask)).getD 0
  let finalReward :=
    if approved then if ratePerTask ≠ 0 then ratePerTask else task.current.rewardAmount else 0
  let task := task.decide approved finalReward
  let task := if true ∈ attempts.retried then task.saved else task
  if attempts.commits then
    .write (.settling id task finalReward) (commitSettlement cfg id task approved finalReward)
    return some task.saved
  else
    .skip .failing
    return none

inductive Resolution
  | unresolved
  | resolved (task : Doc)
  | failed

def checkAndResolve (id : String) (task : Doc) (now : ℤ) (attempts : Attempts) :
    Handler Resolution := do
  let assignedIds := task.current.assignedValidators
  let votedCount := task.votes.entries.length
  let deadlinePassed := task.current.votingDeadline.any (· < now)
  let quorum := (assignedIds.length * 2 + 2) / 3
  let weightedTotal := Binary64.add task.current.votesYesWeight task.current.votesNoWeight
  let ratio := if weightedTotal > 0 then Binary64.div task.current.votesYesWeight weightedTotal else 0
  let approved := decide (ratio ≥ cfg.approvalThreshold)
  if task.current.assignmentStatus ∉ ["assigned", "voting"] ∨ assignedIds = [] then
    return .unresolved
  let verdict :=
    if votedCount ≥ assignedIds.length ∨ deadlinePassed ∧ votedCount ≥ quorum then some approved
    else if deadlinePassed ∧ votedCount < quorum then some false
    else none
  match verdict with
  | none          => return .unresolved
  | some approved =>
    let task ← settle cfg id task approved attempts
    return task.elim .failed .resolved

end Settlement

section Routes

variable (cfg : Config)

-- The update of the reviewer inserts one who is not there.
def countVote (userId vote : String) (w : World) : World :=
  let reviewer := (w.reviewers.get userId).getD {}
  { w with reviewers := w.reviewers.set userId { reviewer with
      tasksVoted    := reviewer.tasksVoted + 1
      tasksApproved := reviewer.tasksApproved + if vote = "yes" then 1 else 0
      tasksRejected := reviewer.tasksRejected + if vote = "yes" then 0 else 1
    } }

-- The vote is set inside the object that is there.
def Doc.vote (task : Doc) (userId vote : String) (weight : ℚ) : Doc :=
  let validatorVotes := some (task.votes.set userId vote)
  { task with current :=
      if vote = "yes" then { task.current with
        validatorVotes
        votesYes         := Binary64.add task.current.votesYes 1
        votesYesWeight   := Binary64.add task.current.votesYesWeight weight
        assignmentStatus := "voting"
      }
      else { task.current with
        validatorVotes
        votesNo          := Binary64.add task.current.votesNo 1
        votesNoWeight    := Binary64.add task.current.votesNoWeight weight
        assignmentStatus := "voting"
      } }

-- `POST /tasks/:id/vote`
def vote (id userId vote : String) (now : ℤ) (audited : Bool) (attempts : Attempts) :
    Handler Unit := do
  if vote ∉ ["yes", "no"] then return
  let some stored ← .read .read (·.submissions.get id) | return
  let task := Doc.read stored
  if userId ∉ task.current.assignedValidators then return
  if (task.votes.get userId).getD "" ≠ "" then return
  if task.current.votingDeadline.any (· < now) then return
  let weight ← .act .write (countVote userId vote) fun w =>
    computeWeight ((w.reviewers.get userId).getD {})
  refreshReviewerStats userId
  let task := task.vote userId vote weight
  .write (.saveVote id task) (·.updateSubmission id task.save)
  if !audited then
    .skip .failing
    return
  match ← checkAndResolve cfg id task.saved now attempts with
  | .failed => return
  | _       => .write .write (·.record (.acknowledged id userId vote weight))

-- `GET /my-assigned`, which resolves what is due on the way. Each candidate comes with its attempts.
def myAssigned (userId : String) (candidates : List (String × Attempts)) (now : ℤ) :
    Handler Unit := do
  let tasks ← .read .read fun w => candidates.filterMap fun (id, attempts) =>
    (w.submissions.get id).bind fun stored =>
      if userId ∈ stored.assignedValidators ∧ stored.assignmentStatus ∈ ["assigned", "voting"] then
        some (id, Doc.read stored, attempts)
      else none
  resolveAll tasks
where
  resolveAll : List (String × Doc × Attempts) → Handler Unit
    | [] => return
    | (id, task, attempts) :: tasks => do
      match ← checkAndResolve cfg id task now attempts with
      | .failed => return
      | _       => resolveAll tasks

-- `POST /tasks/:id/final-reject`
def finalReject (id : String) : Handler Unit := do
  let some stored ← .read .read (·.submissions.get id) | return
  let task := Doc.read stored
  let task := { task with current := { task.current with
    status           := "rejected"
    assignmentStatus := "rejected"
  } }
  .write (.deciding id false) fun w => (w.updateSubmission id task.save).record (.rejected id)

end Routes

end Mines
