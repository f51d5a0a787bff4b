import MallChain.Mines.Routes

namespace Mines

open Interleaving

-- The requests to the routes, and the refreshes of the statistics that follow an assignment.
inductive Request
  | campaignsCreate (userId id platform activity : String) (multiplier budget : ℚ)
  | submit (userId id : String) (body : SubmissionBody) (now : ℤ) (shuffled : List String)
  | update (userId id : String) (body : SubmissionBody)
  | vote (id userId vote : String) (now : ℤ) (audited : Bool) (attempts : Attempts)
  | myAssigned (userId : String) (candidates : List (String × Attempts)) (now : ℤ)
  | finalReject (id : String)
  | approve (id : String) (rewardAmount : ℚ) (commits : Bool)
  | reject (id : String)
  | panelApprove (id : String) (rewardAmount : ℚ)
  | stake (userId : String) (amount : ℚ) (commits : Bool)
  | unstake (userId : String) (amount : ℚ) (now : ℤ) (attempts : Attempts)
  | adjust (userId : String) (amount : ℚ)
  | refreshReviewerStats (validatorId : String)

def Request.handler (cfg : Config) : Request → Handler Unit
  | .campaignsCreate userId id platform activity multiplier budget =>
    Mines.campaignsCreate cfg userId id platform activity multiplier budget
  | .submit userId id body now shuffled    => Mines.submit cfg userId id body now shuffled
  | .update userId id body                 => Mines.update userId id body
  | .vote id userId v now audited attempts => Mines.vote cfg id userId v now audited attempts
  | .myAssigned userId candidates now      => Mines.myAssigned cfg userId candidates now
  | .finalReject id                        => Mines.finalReject id
  | .approve id rewardAmount commits       => Mines.approve id rewardAmount commits
  | .reject id                             => Mines.reject id
  | .panelApprove id rewardAmount          => Mines.panelApprove id rewardAmount
  | .stake userId amount commits           => Mines.stake userId amount commits
  | .unstake userId amount now attempts    => Mines.unstake userId amount now attempts
  | .adjust userId amount                  => Mines.adjust userId amount
  | .refreshReviewerStats validatorId      => Mines.refreshReviewerStats validatorId

-- What the steps of the reviews do.
inductive ReviewEffect (cfg : Config) : Label → (World → World) → Prop
  | silent {label : Label} : ReviewEffect cfg label id
  | reviewers {update : World → World} : (∀ w, ∃ reviewers, update w = { w with reviewers }) →
    ReviewEffect cfg .write update
  | saveVote {id : String} {task : Doc} : task.current.status = task.loaded.status →
    ReviewEffect cfg (.saveVote id task) (·.updateSubmission id task.save)
  | settle {id : String} {task : Doc} {approved : Bool} {finalReward : ℚ} :
    (task.current.status = if approved then "auto_approved" else "rejected") →
    ReviewEffect cfg (.settling id task finalReward) (commitSettlement cfg id task approved finalReward)
  | acknowledge {id userId vote : String} {weight : ℚ} :
    ReviewEffect cfg .write (·.record (.acknowledged id userId vote weight))

-- What the steps of all handlers do.
inductive Effect (cfg : Config) : Label → (World → World) → Prop
  | review {label : Label} {update : World → World} : ReviewEffect cfg label update →
    Effect cfg label update
  | submissions {label : Label} {update : World → World} :
    (∀ w, ∃ submissions, update w = { w with submissions }) → Effect cfg label update
  | fund {userId id platform : String} {ratePerTask budget : ℚ} : 0 < budget →
    Effect cfg .write (fundCampaign userId id platform ratePerTask budget)
  | decide {id : String} {approved : Bool} {update : World → World} : (∀ w, ∃ submissions,
      update w = { w with submissions } ∨ update w = { w with submissions }.record (.rejected id)) →
    Effect cfg (.deciding id approved) update
  | reward {id currency : String} {submission : TaskSubmission} {amount : ℚ} :
    Effect cfg (.rewarding submission.campaignId amount) (reward id submission currency amount)
  | panelReward {id : String} {campaign : Option String} {amount : ℚ} {t : WalletTransaction} :
    Effect cfg (.rewarding campaign amount)
      fun w => (w.addTransaction t).record (.rewarded id campaign amount)
  | charge {id : String} {amount : ℚ} :
    Effect cfg (.charging id amount) (·.chargeCampaign id amount)
  | stake {user : String} {amount : ℚ} : Effect cfg (.staking user amount) (addStake user amount)
  | unstake {user : String} {read amount : ℚ} {retries : ℕ} {d : StakeDoc} :
    Effect cfg (.unstaking user read amount retries) (removeStake user amount d)
  | adjust {user : String} {amount : ℚ} : Effect cfg (.adjusting user amount) fun w =>
      match w.users.get user with
      | none   => w
      | some u =>
        if u.mlptsBalance + amount ≥ 0 then
          (w.incBalance user amount).record (.adjusted user amount)
        else w

theorem Effect.silent {cfg : Config} {label : Label} : Effect cfg label id :=
  .review .silent

variable {cfg : Config}

theorem updateReviewer_eq (id : String) (f : MinesReviewer → MinesReviewer) (w : World) :
    ∃ reviewers, w.updateReviewer id f = { w with reviewers } := by
  rw [World.updateReviewer]
  split <;> exact ⟨_, rfl⟩

theorem updateSubmission_eq (id : String) (f : TaskSubmission → TaskSubmission) (w : World) :
    ∃ submissions, w.updateSubmission id f = { w with submissions } := by
  rw [World.updateSubmission]
  split <;> exact ⟨_, rfl⟩

theorem incBalance_eq (id : String) (amount : ℚ) (w : World) :
    ∃ users, w.incBalance id amount = { w with users } := by
  rw [World.incBalance, World.updateUser]
  split <;> exact ⟨_, rfl⟩

theorem settleReviewer_eq (cfg : Config) (votes : Votes) (approved : Bool) (w : World) (reviewerId : String) :
    ∃ users reviewers, settleReviewer cfg votes approved w reviewerId =
      { w with users, reviewers } := by
  rw [settleReviewer]
  split
  case h_1 =>
    obtain ⟨reviewers, hr⟩ := updateReviewer_eq reviewerId penalize w
    exact ⟨_, reviewers, hr⟩
  case h_2 =>
    split
    case isTrue =>
      split
      case h_1 => exact ⟨_, _, rfl⟩
      case h_2 =>
        obtain ⟨reviewers, hr⟩ := updateReviewer_eq reviewerId _ w
        obtain ⟨users, hu⟩ := incBalance_eq reviewerId cfg.voteReward { w with reviewers }
        rw [hr]
        exact ⟨users, reviewers, hu⟩
    case isFalse =>
      obtain ⟨reviewers, hr⟩ := updateReviewer_eq reviewerId _ w
      exact ⟨_, reviewers, hr⟩

theorem settleReviewers_eq (cfg : Config) (votes : Votes) (approved : Bool) (ids : List String) (w : World) :
    ∃ users reviewers, ids.foldl (settleReviewer cfg votes approved) w =
      { w with users, reviewers } := by
  induction ids generalizing w with
  | nil => exact ⟨_, _, rfl⟩
  | cons reviewerId ids ih =>
    obtain ⟨users, reviewers, hw⟩ := settleReviewer_eq cfg votes approved w reviewerId
    obtain ⟨users', reviewers', hw'⟩ := ih { w with users, reviewers }
    rw [List.foldl_cons, hw]
    exact ⟨users', reviewers', hw'⟩

theorem addStake_eq (user : String) (amount : ℚ) (w : World) :
    ∃ users reviewers, addStake user amount w = { w with users, reviewers } := by
  rw [addStake]
  split
  case h_1 => exact ⟨_, _, rfl⟩
  case h_2 =>
    split_ifs
    case neg => exact ⟨_, _, rfl⟩
    case pos =>
      obtain ⟨users, hu⟩ := incBalance_eq user (-amount) w
      rw [hu]
      exact ⟨users, _, rfl⟩

theorem removeStake_eq (user : String) (amount : ℚ) (d : StakeDoc) (w : World) :
    ∃ users reviewers, removeStake user amount d w = { w with users, reviewers } := by
  obtain ⟨reviewers, hr⟩ := updateReviewer_eq user (fun reviewer => { reviewer with
    stakedAmount := d.stakedAmount
    stakeStatus  := if d.statusMarked then d.stakeStatus else reviewer.stakeStatus }) w
  obtain ⟨users, hu⟩ := incBalance_eq user amount { w with reviewers }
  rw [removeStake, hr]
  exact ⟨users, reviewers, hu⟩

theorem reward_eq (id currency : String) (submission : TaskSubmission) (amount : ℚ) (w : World) :
    ∃ users transactions, reward id submission currency amount w =
      { w with users, transactions }.record (.rewarded id submission.campaignId amount) := by
  obtain ⟨users, hu⟩ := incBalance_eq submission.minerId amount (w.addTransaction {
    userId := submission.minerId, type := .credit, amount := amount, currency := currency })
  rw [reward, hu]
  exact ⟨users, _, rfl⟩

theorem chargeCampaign_eq (id : String) (amount : ℚ) (w : World) :
    ∃ campaigns, w.chargeCampaign id amount = { w with campaigns }.record (.charged id amount) := by
  rw [World.chargeCampaign, World.updateCampaign]
  split <;> exact ⟨_, rfl⟩

theorem commitSettlement_rejected (cfg : Config) (id : String) (task : Doc) (finalReward : ℚ) (w : World) :
    ∃ users reviewers, commitSettlement cfg id task false finalReward w =
      { w.updateSubmission id task.save with users, reviewers } := by
  rw [commitSettlement]
  cases task.current.campaignId <;>
    simpa using settleReviewers_eq cfg task.votes false task.current.assignedValidators
      (w.updateSubmission id task.save)

-- The miner is credited, then the campaign is charged.
theorem commitSettlement_approved (cfg : Config) (id : String) (task : Doc) (finalReward : ℚ) (w : World) :
    ∃ w₁ w₂ users reviewers,
      (w₁ = if finalReward > 0 then
        reward id task.current task.current.rewardCurrency finalReward (w.updateSubmission id task.save)
        else w.updateSubmission id task.save) ∧
      w₂ = task.current.campaignId.elim w₁ (w₁.chargeCampaign · finalReward) ∧
      commitSettlement cfg id task true finalReward w = { w₂ with users, reviewers } := by
  rw [commitSettlement]
  cases task.current.campaignId with
  | none =>
    obtain ⟨users, reviewers, hw⟩ := settleReviewers_eq cfg task.votes true
      task.current.assignedValidators _
    exact ⟨_, _, users, reviewers, rfl, rfl, by simpa using hw⟩
  | some campaignId =>
    obtain ⟨users, reviewers, hw⟩ := settleReviewers_eq cfg task.votes true
      task.current.assignedValidators _
    exact ⟨_, _, users, reviewers, rfl, rfl, by simpa using hw⟩

theorem refreshReviewerStats_steps {validatorId : String} :
    (refreshReviewerStats validatorId).Steps (ReviewEffect cfg) := by
  apply Prog.Steps.bind (.read .silent)
  intro reviewer
  split
  case h_1 => trivial
  case h_2 => exact .write (.reviewers (updateReviewer_eq validatorId _))

theorem countAssigned_eq (picked : List String) (w : World) :
    ∃ reviewers, picked.foldl (fun w validatorId =>
      w.updateReviewer validatorId fun reviewer =>
        { reviewer with tasksAssigned := reviewer.tasksAssigned + 1 }) w = { w with reviewers } := by
  induction picked generalizing w with
  | nil => exact ⟨_, rfl⟩
  | cons validatorId picked ih =>
    obtain ⟨reviewers, hr⟩ := updateReviewer_eq validatorId (fun reviewer =>
      { reviewer with tasksAssigned := reviewer.tasksAssigned + 1 }) w
    obtain ⟨reviewers', hr'⟩ := ih { w with reviewers }
    rw [List.foldl_cons, hr]
    exact ⟨reviewers', hr'⟩

theorem autoAssignReviewers_steps {id : String} {task : Doc} {shuffled : List String} {now : ℤ} :
    (autoAssignReviewers id task shuffled now).Steps (Effect cfg) := by
  apply Prog.Steps.bind (.read .silent)
  intro pool
  apply Prog.Steps.ite
  case hp =>
    intro _
    trivial
  case hq =>
    intro _
    apply Prog.Steps.bind (.write (.submissions (updateSubmission_eq id _)))
    intro _
    exact .write (.review (.reviewers (countAssigned_eq _)))

theorem settle_steps {id : String} {task : Doc} {approved : Bool} {attempts : Attempts} :
    (settle cfg id task approved attempts).Steps (ReviewEffect cfg) := by
  apply Prog.Steps.bind (.read .silent)
  intro campaign
  apply Prog.Steps.ite
  case hp =>
    intro _
    refine .bind (.write (.settle ?_)) ?_
    case refine_1 => split <;> rfl
    case refine_2 =>
      intro _
      trivial
  case hq =>
    intro _
    refine .bind (.skip .silent) ?_
    intro _
    trivial

theorem checkAndResolve_steps {id : String} {task : Doc} {now : ℤ} {attempts : Attempts} :
    (checkAndResolve cfg id task now attempts).Steps (ReviewEffect cfg) := by
  apply Prog.Steps.ite
  case hp =>
    intro _
    trivial
  case hq =>
    intro _
    split
    case h_1 => trivial
    case h_2 =>
      apply Prog.Steps.bind settle_steps
      intro _
      trivial

theorem Doc.vote_status (task : Doc) (userId v : String) (weight : ℚ) :
    (task.vote userId v weight).current.status = task.current.status := by
  rw [Doc.vote]
  split <;> rfl

theorem vote_steps {id userId v : String} {now : ℤ} {audited : Bool} {attempts : Attempts} :
    (vote cfg id userId v now audited attempts).Steps (ReviewEffect cfg) := by
  refine .ite (fun _ => trivial) fun _ => ?_
  refine .bind (.read .silent) fun stored => ?_
  split
  case h_2 => trivial
  case h_1 stored =>
    refine .ite (fun _ => trivial) fun _ => ?_
    refine .ite (fun _ => trivial) fun _ => ?_
    refine .ite (fun _ => trivial) fun _ => ?_
    refine .bind (.act (.reviewers fun w => ⟨_, rfl⟩)) fun weight => ?_
    refine .bind refreshReviewerStats_steps fun _ => ?_
    refine .bind (.write (.saveVote (Doc.vote_status _ _ _ _))) fun _ => ?_
    refine .ite (fun _ => .bind (.skip .silent) fun _ => trivial) fun _ => ?_
    refine .bind checkAndResolve_steps fun resolution => ?_
    split
    case h_1 => trivial
    case h_2 => exact .write .acknowledge

theorem myAssigned_steps {userId : String} {candidates : List (String × Attempts)} {now : ℤ} :
    (myAssigned cfg userId candidates now).Steps (ReviewEffect cfg) := by
  refine .bind (.read .silent) fun tasks => ?_
  induction tasks with
  | nil => trivial
  | cons head tasks ih =>
    refine .bind checkAndResolve_steps fun resolution => ?_
    split
    case h_1 => trivial
    case h_2 => exact ih

theorem finalReject_steps {id : String} : (finalReject id).Steps (Effect cfg) := by
  refine .bind (.read .silent) fun stored => ?_
  split
  case h_2 => trivial
  case h_1 stored =>
    refine .write (.decide fun w => ?_)
    obtain ⟨submissions, hs⟩ := updateSubmission_eq id _ w
    exact ⟨submissions, .inr (congrArg (World.record · _) hs)⟩

theorem campaignsCreate_steps {userId id platform activity : String} {multiplier budget : ℚ} :
    (campaignsCreate cfg userId id platform activity multiplier budget).Steps (Effect cfg) := by
  rw [campaignsCreate]
  split
  case h_1 => trivial
  case h_2 =>
    refine .ite (fun _ => trivial) fun hb => ?_
    exact .write (.fund (not_le.mp (not_or.mp hb).1))

theorem submit_steps {userId id : String} {body : SubmissionBody} {now : ℤ}
    {shuffled : List String} : (submit cfg userId id body now shuffled).Steps (Effect cfg) := by
  refine .bind (.read .silent) fun admitted => ?_
  refine .ite (fun _ => trivial) fun _ => ?_
  refine .bind (.act (.submissions fun w => ?_)) fun isNew => ?_
  case refine_1 =>
    rw [insertSubmission]
    split <;> exact ⟨_, rfl⟩
  case refine_2 => exact .ite (fun _ => autoAssignReviewers_steps) fun _ => trivial

theorem update_steps {userId id : String} {body : SubmissionBody} :
    (Mines.update userId id body).Steps (Effect cfg) := by
  refine .bind (.read .silent) fun stored => ?_
  split
  case h_2 => trivial
  case h_1 stored =>
    refine .ite (fun _ => trivial) fun _ => ?_
    exact .write (.submissions (updateSubmission_eq id _))

theorem approve_steps {id : String} {rewardAmount : ℚ} {commits : Bool} :
    (approve id rewardAmount commits).Steps (Effect cfg) := by
  refine .bind (.read .silent) fun stored => ?_
  split
  case h_2 => trivial
  case h_1 stored =>
    refine .bind (.read .silent) fun campaign => ?_
    refine .bind (.write (.decide fun w => ?_)) fun _ => ?_
    case refine_1 =>
      obtain ⟨submissions, hs⟩ := updateSubmission_eq id _ w
      exact ⟨submissions, .inl hs⟩
    case refine_2 =>
      refine .ite (fun _ => .bind (.skip .silent) fun _ => trivial) fun _ => ?_
      refine .bind (.write .reward) fun _ => ?_
      split
      case h_1 => trivial
      case h_2 => exact .write .charge

theorem reject_steps {id : String} : (reject id).Steps (Effect cfg) := by
  refine .write (.decide fun w => ?_)
  split
  case h_1 => exact ⟨_, .inl rfl⟩
  case h_2 =>
    obtain ⟨submissions, hs⟩ := updateSubmission_eq id _ w
    exact ⟨submissions, .inr (congrArg (World.record · _) hs)⟩

theorem panelApprove_steps {id : String} {rewardAmount : ℚ} :
    (panelApprove id rewardAmount).Steps (Effect cfg) := by
  refine .bind (.read .silent) fun stored => ?_
  split
  case h_2 => trivial
  case h_1 stored =>
    refine .bind (.write (.decide fun w => ?_)) fun _ => ?_
    case refine_1 =>
      obtain ⟨submissions, hs⟩ := updateSubmission_eq id _ w
      exact ⟨submissions, .inl hs⟩
    case refine_2 =>
      refine .bind (.write .panelReward) fun _ => ?_
      split
      case h_1 => trivial
      case h_2 => exact .write .charge

theorem stake_steps {user : String} {amount : ℚ} {commits : Bool} :
    (Mines.stake user amount commits).Steps (Effect cfg) := by
  refine .ite (fun _ => trivial) fun _ => ?_
  exact .ite (fun _ => .write .stake) fun _ => trivial

theorem unstake_steps {user : String} {amount : ℚ} {now : ℤ} {attempts : Attempts} :
    (Mines.unstake user amount now attempts).Steps (Effect cfg) := by
  refine .bind (.read .silent) fun reviewer => ?_
  split
  case h_2 => trivial
  case h_1 reviewer =>
    refine .ite (fun _ => trivial) fun _ => ?_
    refine .bind (.read .silent) fun pending => ?_
    refine .ite (fun _ => trivial) fun _ => ?_
    refine .ite (fun _ => trivial) fun _ => ?_
    exact .ite (fun _ => .write .unstake) fun _ => trivial

theorem handler_steps (cfg : Config) (request : Request) :
    (request.handler cfg).Steps (Effect cfg) := by
  cases request with
  | campaignsCreate userId id platform activity multiplier budget => exact campaignsCreate_steps
  | submit userId id body now shuffled => exact submit_steps
  | update userId id body => exact update_steps
  | vote id userId v now audited attempts => exact vote_steps.mono .review
  | myAssigned userId candidates now => exact myAssigned_steps.mono .review
  | finalReject id => exact finalReject_steps
  | approve id rewardAmount commits => exact approve_steps
  | reject id => exact reject_steps
  | panelApprove id rewardAmount => exact panelApprove_steps
  | stake userId amount commits => exact stake_steps
  | unstake userId amount now attempts => exact unstake_steps
  | adjust userId amount => exact .write .adjust
  | refreshReviewerStats validatorId => exact refreshReviewerStats_steps.mono .review

def Sample.config : Config where
  voteReward        := 1 / 2
  approvalThreshold := Binary64.round (3 / 5)
  baseRate _ _      := some 1
  dailyCapMlpts _   := 20

end Mines
