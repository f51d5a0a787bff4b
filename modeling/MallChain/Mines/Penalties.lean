import MallChain.Lib.Zoom
import MallChain.Mines.Reputation

namespace Mines

open Interleaving

section Assignment

-- An update that inserts the reviewer if there is none.
def World.upsertReviewer (w : World) (id : String) (f : MinesReviewer → MinesReviewer) : World :=
  { w with reviewers := w.reviewers.set id (f ((w.reviewers.get id).getD {})) }

def Doc.assignManually (task : Doc) (validatorIds : List String) (votingDeadline : ℤ) : Doc :=
  { task with
    current := { task.current with
      assignedValidators := validatorIds
      assignmentStatus   := "assigned"
      validatorVotes     := some .empty
      votesRequired      := 6
      votingDeadline     := some votingDeadline
    }
    votesMarked := task.votesMarked || !task.votes.entries.isEmpty
  }

def countAssigned : List String → Handler Unit
  | []                  => return
  | vid :: validatorIds => do
    .write .write (·.upsertReviewer vid fun reviewer =>
      { reviewer with tasksAssigned := reviewer.tasksAssigned + 1 })
    countAssigned validatorIds

-- `POST /tasks/:id/assign`
def assign (id : String) (validatorIds : List String) (votingDeadline : ℤ) : Handler Unit := do
  if validatorIds.length ≠ 6 then return
  let some stored ← .read .read (·.submissions.get id) | return
  if stored.assignmentStatus ∉ ["none", "pending_assignment"] then return
  let task := (Doc.read stored).assignManually validatorIds votingDeadline
  .write .write (·.updateSubmission id task.save)
  countAssigned validatorIds

end Assignment

-- The requests to the routes, with the one that assigns a task by hand.
inductive PenaltyRequest
  | route (request : Request)
  | assign (id : String) (validatorIds : List String) (votingDeadline : ℤ)

def PenaltyRequest.handler (cfg : Config) : PenaltyRequest → Handler Unit
  | .route request                          => request.handler cfg
  | .assign id validatorIds votingDeadline => Mines.assign id validatorIds votingDeadline

-- There are no reviewers before the first request.
def reviewSystem (cfg : Config) : TransitionSystem (Pool Label World) (Action PenaltyRequest) :=
  system (fun w => w.reviewers = .empty) (PenaltyRequest.handler cfg)

namespace World

variable (w : World) (id : String)

def reviewer : MinesReviewer :=
  (w.reviewers.get id).getD {}

def Sound : Prop :=
  ∀ id, (w.reviewer id).Sound

def Counted : Prop :=
  ∀ reviewer ∈ w.reviewers.values, reviewer.Counted

end World

namespace Label

def settles : Label → Bool
  | .settling _ _ _ => true
  | _               => false

-- A stake request that finds the balance that it asks for.
def stakes (id : String) : Label → World → Bool
  | .staking user amount, w => user = id ∧ (w.users.get user).any (amount ≤ ·.mlptsBalance)
  | _, _                    => false

end Label

-- What is left of a stake, as many times as the callback is run.
def leftAfter (read amount : ℚ) (retries : ℕ) : ℚ :=
  (Binary64.sub · amount)^[retries + 1] read

-- A settlement takes no penalty from a reputation of nothing, and a withdrawal that leaves the minimum
-- finds the reviewer active.
def penaltyGuard : Label → World → Prop
  | .settling _ task _, w => Affordable task.votes task.current.assignedValidators w
  | .unstaking user read amount retries, w =>
    (w.reviewer user).stakeStatus = .active ∨
      leftAfter read amount retries < (w.reviewer user).minRequiredStake
  | _, _ => True

-- Nobody has voted more often than was asked for, and the step meets its guard.
def Fair (p : Pool Label World) (a : Action PenaltyRequest) : Prop :=
  p.store.Counted ∧ p.Meets penaltyGuard a

instance decidableCounted (w : World) : Decidable w.Counted :=
  inferInstanceAs (Decidable (∀ reviewer ∈ w.reviewers.values, reviewer.Counted))

instance decidablePenaltyGuard : (label : Label) → (w : World) → Decidable (penaltyGuard label w)
  | .settling _ task _, w =>
    inferInstanceAs (Decidable (Affordable task.votes task.current.assignedValidators w))
  | .unstaking user read amount retries, w => inferInstanceAs (Decidable
    ((w.reviewer user).stakeStatus = .active ∨
      leftAfter read amount retries < (w.reviewer user).minRequiredStake))
  | .read, _ | .write, _ | .inserting _ _ _, _ | .updating _ _, _ | .deciding _ _, _ | .rewarding _ _, _
  | .charging _ _, _ | .saveVote _ _, _ | .failing, _ | .staking _ _, _ | .adjusting _ _, _ => .isTrue trivial

instance decidableFair (p : Pool Label World) (a : Action PenaltyRequest) : Decidable (Fair p a) :=
  inferInstanceAs (Decidable (p.store.Counted ∧ p.Meets penaltyGuard a))

-- The step that is taken.
def stepLabel (p : Pool Label World) : Action PenaltyRequest → Option Label
  | .start _ => none
  | .run i   =>
    match p.running[i]? with
    | some (.step label _ _) => some label
    | _                      => none

-- The three laws, in a state and in the runs from it on whose steps meet a condition.
structure PenaltiesBite (cfg : Config) (condition : Pool Label World → Action PenaltyRequest → Prop)
    (p : Pool Label World) : Prop where
  bounded  : ∀ id, 0 ≤ (p.store.reviewer id).miningReputation ∧
    (p.store.reviewer id).miningReputation ≤ 100
  settling : ∀ a, condition p a → (stepLabel p a).any Label.settles = true → ∀ id,
    ((p.exec (PenaltyRequest.handler cfg) a).store.reviewer id).miningReputation ≤
      (p.store.reviewer id).miningReputation
  restaked : ∀ id actions, p.Along (PenaltyRequest.handler cfg) condition actions →
    (p.store.reviewer id).stakeStatus = .suspended →
    ((p.execs (PenaltyRequest.handler cfg) actions).store.reviewer id).stakeStatus = .active →
    ∃ before a after, actions = before ++ a :: after ∧
      (stepLabel (p.execs (PenaltyRequest.handler cfg) before) a).any
        (·.stakes id (p.execs (PenaltyRequest.handler cfg) before).store) = true

section Tame

variable {r r' r'' : MinesReviewer} {w w' w'' : World} {id : String} {f : MinesReviewer → MinesReviewer}

-- The reviewer stays sound and does not become active.
structure MinesReviewer.Tame (r r' : MinesReviewer) : Prop where
  sound  : r.Sound → r'.Sound
  active : r'.stakeStatus = .active → r.stakeStatus = .active

def World.Tame (w w' : World) : Prop :=
  ∀ id, (w.reviewer id).Tame (w'.reviewer id)

theorem MinesReviewer.Tame.refl : r.Tame r :=
  ⟨id, id⟩

theorem MinesReviewer.Tame.trans (h : r.Tame r') (h' : r'.Tame r'') : r.Tame r'' :=
  ⟨fun hs => h'.sound (h.sound hs), fun ha => h.active (h'.active ha)⟩

theorem World.Tame.of_reviewers (h : w'.reviewers = w.reviewers) : w.Tame w' := by
  intro id
  rw [World.reviewer, World.reviewer, h]
  exact .refl

theorem World.Tame.trans (h : w.Tame w') (h' : w'.Tame w'') : w.Tame w'' :=
  fun id => (h id).trans (h' id)

theorem updateReviewer_tame (hf : (w.reviewer id).Tame (f (w.reviewer id))) :
    w.Tame (w.updateReviewer id f) := by
  intro other
  rw [World.reviewer, World.reviewer, get_updateReviewer]
  by_cases heq : other = id
  case neg =>
    rw [if_neg heq]
    exact .refl
  case pos =>
    rw [if_pos heq, heq]
    rw [World.reviewer] at hf
    cases hget : w.reviewers.get id with
    | none   => exact .refl
    | some r =>
      rw [hget] at hf
      exact hf

theorem upsertReviewer_tame (hf : (w.reviewer id).Tame (f (w.reviewer id))) :
    w.Tame (w.upsertReviewer id f) := by
  intro other
  rw [World.upsertReviewer, World.reviewer, World.reviewer, KVStore.get_set]
  by_cases heq : other = id
  case neg =>
    rw [if_neg heq]
    exact .refl
  case pos =>
    rw [if_pos heq, heq]
    exact hf

theorem settled_tame {cfg : Config} {votes : Votes} {approved : Bool} {n : ℕ} :
    r.Tame ((settled cfg votes approved id)^[n] r) := by
  induction n with
  | zero => exact .refl
  | succ n ih =>
    rw [Function.iterate_succ_apply']
    exact ih.trans ⟨fun hs => hs.settled, settled_stakeStatus⟩

theorem foldl_tame {ids : List String} {g : World → String → World}
    (h : ∀ (w : World) id, w.Tame (g w id)) : w.Tame (ids.foldl g w) := by
  induction ids generalizing w with
  | nil => exact .of_reviewers rfl
  | cons id ids ih => exact (h w id).trans ih

end Tame

-- What a step does to the reviewers.
structure Lawful (label : Label) (w w' : World) : Prop where
  sound    : w'.Sound
  settling : label.settles = true → ∀ id,
    (w'.reviewer id).miningReputation ≤ (w.reviewer id).miningReputation
  active   : ∀ id, (w'.reviewer id).stakeStatus = .active →
    (w.reviewer id).stakeStatus = .active ∨ label.stakes id w = true

def Keeps (label : Label) (update : World → World) : Prop :=
  ∀ w, w.Sound → penaltyGuard label w → Lawful label w (update w)

-- What a program finds.
def Seen (w : World) : Prop :=
  w.Sound ∧ w.Counted

section Steps

variable {cfg : Config} {label : Label} {update : World → World} {id user : String} {task : Doc}
  {attempts : Attempts} {now : ℤ}

theorem Lawful.of_tame {w w' : World} (hl : label.settles = false) (hs : w.Sound) (h : w.Tame w') :
    Lawful label w w' where
  sound id     := (h id).sound (hs id)
  settling hl' := absurd (hl.symm.trans hl') Bool.false_ne_true
  active id ha := .inl ((h id).active ha)

theorem Keeps.of_tame (hl : label.settles = false) (h : ∀ w : World, w.Tame (update w)) :
    Keeps label update :=
  fun w hs _ => .of_tame hl hs (h w)

theorem Keeps.frame (h : ∀ w, (update w).reviewers = w.reviewers) : Keeps label update := by
  intro w hs _
  have hsame : ∀ id, (update w).reviewer id = w.reviewer id := by
    intro id
    rw [World.reviewer, World.reviewer, h]
  constructor
  case sound    => exact fun id => hsame id ▸ hs id
  case settling => exact fun _ id => (congrArg _ (hsame id)).le
  case active   => exact fun id ha => .inl (hsame id ▸ ha)

theorem Keeps.silent : Keeps label fun w => w :=
  .frame fun _ => rfl

theorem reviewers_updateSubmission {f : TaskSubmission → TaskSubmission} {w : World} :
    (w.updateSubmission id f).reviewers = w.reviewers := by
  obtain ⟨submissions, hs⟩ := updateSubmission_eq id f w
  rw [hs]

theorem Keeps.updateSubmission {f : TaskSubmission → TaskSubmission} :
    Keeps label (·.updateSubmission id f) :=
  .frame fun _ => reviewers_updateSubmission

theorem Keeps.updateReviewer {f : MinesReviewer → MinesReviewer} (hl : label.settles = false)
    (hf : ∀ r : MinesReviewer, r.Tame (f r)) : Keeps label (·.updateReviewer id f) :=
  .of_tame hl fun _ => updateReviewer_tame (hf _)

theorem refreshReviewerStats_keeps : (refreshReviewerStats id).StepsIn Seen Keeps := by
  refine .read_bind .silent fun w hw => ?_
  split
  case h_1 => trivial
  case h_2 miningReputation hstats =>
    obtain ⟨reviewer, hget, hstats⟩ := Option.bind_eq_some_iff.mp hstats
    have hreviewer : w.reviewer id = reviewer := by rw [World.reviewer, hget, Option.getD_some]
    have hsound := hreviewer ▸ hw.1 id
    have hcounted := hw.2 reviewer (KVStore.mem_values_iff.mpr ⟨id, hget⟩)
    have hscore := computeReputationStats_score hcounted hsound.approved hstats
    exact .write (.updateReviewer rfl fun r => ⟨fun h => ⟨h.minimum, h.approved, hscore⟩, fun h => h⟩)

theorem autoAssignReviewers_keeps {shuffled : List String} :
    (autoAssignReviewers id task shuffled now).Steps Keeps := by
  refine .bind (.read .silent) fun pool => ?_
  refine .ite (fun _ => trivial) fun _ => ?_
  refine .bind (.write .updateSubmission) fun _ => .write (.of_tame rfl fun w => ?_)
  refine foldl_tame fun w validatorId => updateReviewer_tame ?_
  exact ⟨fun h => ⟨h.minimum, h.approved, h.score⟩, fun h => h⟩

theorem countAssigned_keeps (validatorIds : List String) : (countAssigned validatorIds).Steps Keeps := by
  induction validatorIds with
  | nil => trivial
  | cons vid validatorIds ih =>
    refine .bind (.write (.of_tame rfl fun w => upsertReviewer_tame ?_)) fun _ => ih
    exact ⟨fun h => ⟨h.minimum, h.approved, h.score⟩, fun h => h⟩

theorem assign_keeps {validatorIds : List String} {votingDeadline : ℤ} :
    (assign id validatorIds votingDeadline).Steps Keeps := by
  refine .ite (fun _ => trivial) fun _ => ?_
  refine .bind (.read .silent) fun stored => ?_
  split
  case h_2 => trivial
  case h_1 =>
    refine .ite (fun _ => trivial) fun _ => ?_
    exact .bind (.write .updateSubmission) fun _ => countAssigned_keeps validatorIds

theorem reviewers_chargeCampaign {amount : ℚ} {w : World} :
    (w.chargeCampaign id amount).reviewers = w.reviewers := by
  obtain ⟨campaigns, hc⟩ := chargeCampaign_eq id amount w
  rw [hc]
  rfl

theorem reviewers_reward {currency : String} {submission : TaskSubmission} {amount : ℚ} {w : World} :
    (reward id submission currency amount w).reviewers = w.reviewers := by
  obtain ⟨users, transactions, hr⟩ := reward_eq id currency submission amount w
  rw [hr]
  rfl

-- What a settlement does to the reviewers.
theorem get_commitSettlement {approved : Bool} {finalReward : ℚ} {w : World} :
    (commitSettlement cfg id task approved finalReward w).reviewers.get user =
      (w.reviewers.get user).map
        (settled cfg task.votes approved user)^[task.current.assignedValidators.count user] := by
  rw [commitSettlement, get_settleReviewers]
  congr 2
  split
  case h_1 =>
    split_ifs
    case pos => rw [reviewers_chargeCampaign, reviewers_reward, reviewers_updateSubmission]
    case neg => rw [reviewers_chargeCampaign, reviewers_updateSubmission]
    case pos => rw [reviewers_reward, reviewers_updateSubmission]
    case neg => exact reviewers_updateSubmission
  case h_2 =>
    split_ifs
    case pos => rw [reviewers_reward, reviewers_updateSubmission]
    case neg => exact reviewers_updateSubmission

-- A settlement keeps the laws when its penalties can be paid.
theorem commitSettlement_keeps {approved : Bool} {finalReward : ℚ} :
    Keeps (.settling id task finalReward) (commitSettlement cfg id task approved finalReward) := by
  intro w hs hg
  have hcases : ∀ user, (commitSettlement cfg id task approved finalReward w).reviewer user =
      w.reviewer user ∨ ∃ reviewer, w.reviewers.get user = some reviewer ∧ w.reviewer user = reviewer ∧
        (commitSettlement cfg id task approved finalReward w).reviewer user =
          (settled cfg task.votes approved user)^[task.current.assignedValidators.count user] reviewer := by
    intro user
    rw [World.reviewer, World.reviewer, get_commitSettlement]
    cases hget : w.reviewers.get user with
    | none          => exact .inl rfl
    | some reviewer => exact .inr ⟨reviewer, rfl, rfl, rfl⟩
  have htame : w.Tame (commitSettlement cfg id task approved finalReward w) := by
    intro user
    obtain hsame | ⟨reviewer, _, hbefore, hafter⟩ := hcases user
    case inl => exact hsame ▸ .refl
    case inr =>
      rw [hbefore, hafter]
      exact settled_tame
  constructor
  case sound  => exact fun user => (htame user).sound (hs user)
  case active => exact fun user ha => .inl ((htame user).active ha)
  case settling =>
    intro _ user
    obtain hsame | ⟨reviewer, hget, hbefore, hafter⟩ := hcases user
    case inl => rw [hsame]
    case inr =>
      rw [hbefore, hafter]
      exact Affordable.settled_le hg (hbefore ▸ hs user) hget

theorem settle_keeps {approved : Bool} : (settle cfg id task approved attempts).Steps Keeps := by
  refine .bind (.read .silent) fun campaign => ?_
  refine .ite (fun _ => ?_) fun _ => .bind (.skip .silent) fun _ => trivial
  exact .bind (.write commitSettlement_keeps) fun _ => trivial

theorem checkAndResolve_keeps : (checkAndResolve cfg id task now attempts).Steps Keeps := by
  refine .ite (fun _ => trivial) fun _ => ?_
  split
  case h_1 => trivial
  case h_2 => exact .bind settle_keeps fun _ => trivial

theorem countVote_keeps {v : String} : Keeps .write (countVote user v) := by
  refine .of_tame rfl fun w => ?_
  have heq : countVote user v w = w.upsertReviewer user fun reviewer => { reviewer with
      tasksVoted    := reviewer.tasksVoted + 1
      tasksApproved := reviewer.tasksApproved + if v = "yes" then 1 else 0
      tasksRejected := reviewer.tasksRejected + if v = "yes" then 0 else 1 } := rfl
  rw [heq]
  refine upsertReviewer_tame ⟨fun h => ⟨h.minimum, ?_, h.score⟩, fun h => h⟩
  have happroved := h.approved
  dsimp only
  split_ifs <;> omega

theorem vote_keeps {v : String} {audited : Bool} :
    (vote cfg id user v now audited attempts).StepsIn Seen Keeps := by
  refine .ite (fun _ => trivial) fun _ => ?_
  refine .read_bind .silent fun w _ => ?_
  split
  case h_2 => trivial
  case h_1 stored =>
    refine .ite (fun _ => trivial) fun _ => ?_
    refine .ite (fun _ => trivial) fun _ => ?_
    refine .ite (fun _ => trivial) fun _ => ?_
    refine .act_bind countVote_keeps fun w _ => ?_
    refine .bind refreshReviewerStats_keeps fun _ => ?_
    refine .bind (.write .updateSubmission) fun _ => ?_
    refine .ite (fun _ => .bind (.write .silent) fun _ => trivial) fun _ => ?_
    refine .bind checkAndResolve_keeps.stepsIn fun resolution => ?_
    split
    case h_1 => trivial
    case h_2 => exact .write (.frame fun _ => rfl)

theorem myAssigned_keeps {candidates : List (String × Attempts)} :
    (myAssigned cfg user candidates now).Steps Keeps := by
  refine .bind (.read .silent) fun tasks => ?_
  induction tasks with
  | nil => trivial
  | cons head tasks ih =>
    refine .bind checkAndResolve_keeps fun resolution => ?_
    split
    case h_1 => trivial
    case h_2 => exact ih

theorem addStake_keeps {amount : ℚ} : Keeps (.staking user amount) (addStake user amount) := by
  intro w hs _
  rw [addStake]
  cases hu : w.users.get user with
  | none => exact .of_tame rfl hs (.of_reviewers rfl)
  | some u =>
    dsimp only
    by_cases hle : u.mlptsBalance ≥ amount
    case neg =>
      rw [if_neg hle]
      exact .of_tame rfl hs (.of_reviewers rfl)
    case pos =>
      rw [if_pos hle]
      constructor
      case settling => exact fun h => absurd h Bool.false_ne_true
      case sound =>
        intro id
        rw [World.reviewer, KVStore.get_set]
        split_ifs
        case pos => exact ⟨(hs user).minimum, (hs user).approved, (hs user).score⟩
        case neg => exact hs id
      case active =>
        intro id ha
        by_cases heq : id = user
        case pos =>
          refine .inr ?_
          simp only [Label.stakes, hu, Option.any_some, decide_eq_true_eq]
          exact ⟨heq.symm, hle⟩
        case neg =>
          rw [World.reviewer, KVStore.get_set_ne heq] at ha
          exact .inl ha

-- The reviewer in the memory of a withdrawal: its stake, and its status as that stake gives it.
theorem withdraw_eq {reviewer : MinesReviewer} {amount : ℚ} {d : StakeDoc} (retried : List Bool) :
    ((retried.foldl (StakeDoc.retry reviewer amount) d).withdraw reviewer amount).stakedAmount =
        leftAfter d.stakedAmount amount retried.length ∧
      ((retried.foldl (StakeDoc.retry reviewer amount) d).withdraw reviewer amount).stakeStatus =
        stakeStatusOf (leftAfter d.stakedAmount amount retried.length) reviewer := by
  induction retried generalizing d with
  | nil => exact ⟨rfl, rfl⟩
  | cons saved retried ih =>
    have hretry : (d.retry reviewer amount saved).stakedAmount = Binary64.sub d.stakedAmount amount := by
      rw [StakeDoc.retry]
      split <;> rfl
    have hleft : leftAfter (Binary64.sub d.stakedAmount amount) amount retried.length =
        leftAfter d.stakedAmount amount (saved :: retried).length :=
      rfl
    rw [List.foldl_cons, ← hleft, ← hretry]
    exact ih

-- A withdrawal makes nobody active who was not.
theorem removeStake_keeps {read amount : ℚ} {retries : ℕ} {d : StakeDoc} {reviewer : MinesReviewer}
    (hminimum : reviewer.minRequiredStake = 50)
    (hd : d.stakeStatus = stakeStatusOf (leftAfter read amount retries) reviewer) :
    Keeps (.unstaking user read amount retries) (removeStake user amount d) := by
  intro w hs hg
  have htame : w.Tame (removeStake user amount d w) := by
    rw [removeStake]
    refine (updateReviewer_tame ⟨fun h => ⟨h.minimum, h.approved, h.score⟩, fun ha => ?_⟩).trans
      (.of_reviewers incBalance_frame.1)
    dsimp only at ha
    split_ifs at ha
    case pos =>
      refine hg.resolve_right fun hlt => ?_
      rw [(hs user).minimum] at hlt
      rw [hd, stakeStatusOf, hminimum, if_neg (not_le.mpr hlt)] at ha
      cases ha
    case neg => exact ha
  exact .of_tame rfl hs htame

theorem stake_keeps {amount : ℚ} {commits : Bool} : (stake user amount commits).Steps Keeps :=
  .ite (fun _ => trivial) fun _ => .ite (fun _ => .write addStake_keeps) fun _ => trivial

theorem unstake_keeps {amount : ℚ} : (unstake user amount now attempts).StepsIn Seen Keeps := by
  refine .read_bind .silent fun w hw => ?_
  split
  case h_2 => trivial
  case h_1 reviewer hget =>
    have hreviewer : w.reviewer user = reviewer := by rw [World.reviewer, hget, Option.getD_some]
    have hminimum := (hreviewer ▸ hw.1 user).minimum
    refine .ite (fun _ => trivial) fun _ => ?_
    refine .read_bind .silent fun _ _ => ?_
    refine .ite (fun _ => trivial) fun _ => ?_
    refine .ite (fun _ => trivial) fun _ => ?_
    exact .ite (fun _ => .write (removeStake_keeps hminimum (withdraw_eq attempts.retried).2)) fun _ => trivial

theorem submit_keeps {body : SubmissionBody} {shuffled : List String} :
    (submit cfg user id body now shuffled).Steps Keeps := by
  refine .bind (.read .silent) fun admitted => ?_
  refine .ite (fun _ => trivial) fun _ => ?_
  refine .bind (.act (.frame fun w => ?_)) fun isNew => ?_
  case refine_1 =>
    rw [insertSubmission]
    split_ifs <;> rfl
  case refine_2 => exact .ite (fun _ => autoAssignReviewers_keeps) fun _ => trivial

theorem fundCampaign_keeps {platform : String} {ratePerTask budget : ℚ} :
    Keeps .write (fundCampaign user id platform ratePerTask budget) := by
  refine .frame fun w => ?_
  rw [fundCampaign]
  split
  case h_1 =>
    split_ifs
    case pos => exact incBalance_frame.1
    case neg => rfl
  case h_2 => rfl

-- The requests that do not touch the reviewers.
theorem campaignsCreate_keeps {platform activity : String} {multiplier budget : ℚ} :
    (campaignsCreate cfg user id platform activity multiplier budget).Steps Keeps := by
  rw [campaignsCreate]
  split
  case h_1 => trivial
  case h_2 => exact .ite (fun _ => trivial) fun _ => .write fundCampaign_keeps

theorem update_keeps {body : SubmissionBody} : (Mines.update user id body).Steps Keeps := by
  refine .bind (.read .silent) fun stored => ?_
  split
  case h_2 => trivial
  case h_1 => exact .ite (fun _ => trivial) fun _ => .write .updateSubmission

theorem finalReject_keeps : (finalReject id).Steps Keeps := by
  refine .bind (.read .silent) fun stored => ?_
  split
  case h_2 => trivial
  case h_1 => exact .write (.frame fun w => reviewers_updateSubmission)

theorem approve_keeps {rewardAmount : ℚ} {commits : Bool} :
    (approve id rewardAmount commits).Steps Keeps := by
  refine .bind (.read .silent) fun stored => ?_
  split
  case h_2 => trivial
  case h_1 stored =>
    refine .bind (.read .silent) fun campaign => ?_
    refine .bind (.write .updateSubmission) fun _ => ?_
    refine .ite (fun _ => .bind (.skip .silent) fun _ => trivial) fun _ => ?_
    refine .bind (.write (.frame fun w => reviewers_reward)) fun _ => ?_
    split
    case h_1 => trivial
    case h_2 => exact .write (.frame fun w => reviewers_chargeCampaign)

theorem reject_keeps : (reject id).Steps Keeps := by
  refine .write (.frame fun w => ?_)
  split
  case h_1 => rfl
  case h_2 => exact reviewers_updateSubmission

theorem panelApprove_keeps {rewardAmount : ℚ} : (panelApprove id rewardAmount).Steps Keeps := by
  refine .bind (.read .silent) fun stored => ?_
  split
  case h_2 => trivial
  case h_1 stored =>
    refine .bind (.write .updateSubmission) fun _ => ?_
    refine .bind (.write (.frame fun w => rfl)) fun _ => ?_
    split
    case h_1 => trivial
    case h_2 => exact .write (.frame fun w => reviewers_chargeCampaign)

theorem adjust_keeps {amount : ℚ} : (adjust user amount).Steps Keeps := by
  refine .write (.frame fun w => ?_)
  split
  case h_1 => rfl
  case h_2 =>
    split_ifs
    case pos => exact incBalance_frame.1
    case neg => rfl

theorem handler_keeps (cfg : Config) (request : PenaltyRequest) :
    (request.handler cfg).StepsIn Seen Keeps := by
  cases request with
  | assign id validatorIds votingDeadline => exact assign_keeps.stepsIn
  | route request =>
    cases request with
    | campaignsCreate userId id platform activity multiplier budget => exact campaignsCreate_keeps.stepsIn
    | submit userId id body now shuffled => exact submit_keeps.stepsIn
    | update userId id body => exact update_keeps.stepsIn
    | vote id userId v now audited attempts => exact vote_keeps
    | myAssigned userId candidates now => exact myAssigned_keeps.stepsIn
    | finalReject id => exact finalReject_keeps.stepsIn
    | approve id rewardAmount commits => exact approve_keeps.stepsIn
    | reject id => exact reject_keeps.stepsIn
    | panelApprove id rewardAmount => exact panelApprove_keeps.stepsIn
    | stake userId amount commits => exact stake_keeps.stepsIn
    | unstake userId amount now attempts => exact unstake_keeps
    | adjust userId amount => exact adjust_keeps.stepsIn
    | refreshReviewerStats validatorId => exact refreshReviewerStats_keeps

end Steps

section Runs

variable {cfg : Config} {p : Pool Label World} {a : Action PenaltyRequest}

-- What is known along a run.
structure Kept (p : Pool Label World) : Prop where
  sound : p.store.Sound
  steps : ∀ q ∈ p.running, q.StepsIn Seen Keeps

-- A step leaves the store as it is, or keeps the laws.
theorem Kept.exec (cfg : Config) (h : Kept p) (hc : Fair p a) : Kept (p.exec (PenaltyRequest.handler cfg) a) ∧
    (stepLabel p a = none ∧ (p.exec (PenaltyRequest.handler cfg) a).store = p.store ∨
      ∃ label, stepLabel p a = some label ∧
        Lawful label p.store (p.exec (PenaltyRequest.handler cfg) a).store) := by
  have hlawful : stepLabel p a = none ∧ (p.exec (PenaltyRequest.handler cfg) a).store = p.store ∨
      ∃ label, stepLabel p a = some label ∧
        Lawful label p.store (p.exec (PenaltyRequest.handler cfg) a).store := by
    cases a with
    | start request => exact .inl ⟨rfl, rfl⟩
    | run i =>
      have hguard := hc.2
      simp only [Pool.Meets] at hguard
      simp only [stepLabel, Pool.exec]
      cases hi : p.running[i]? with
      | none => exact .inl ⟨rfl, rfl⟩
      | some q =>
        cases q with
        | done _ => exact .inl ⟨rfl, rfl⟩
        | step label update next =>
          rw [hi] at hguard
          have hkeeps := (h.steps _ (List.mem_of_getElem? hi)).1
          exact .inr ⟨label, rfl, hkeeps p.store h.sound hguard⟩
  refine ⟨?_, hlawful⟩
  constructor
  case steps => exact exec_running_in (handler_keeps cfg) h.steps ⟨h.sound, hc.1⟩
  case sound =>
    obtain ⟨_, hsame⟩ | ⟨label, _, hl⟩ := hlawful
    case inl => exact hsame ▸ h.sound
    case inr => exact hl.sound

theorem sound_empty {w : World} (h : w.reviewers = .empty) : w.Sound := by
  intro id
  rw [World.reviewer, h]
  exact sound_default

theorem kept_of_run (h : (reviewSystem cfg).Run Fair p) : Kept p := by
  have hinv : (reviewSystem cfg).Invariant Fair Kept := {
    init := fun hi => ⟨sound_empty hi.1, by simp [hi.2]⟩
    step := fun hk hc hs => hs ▸ (hk.exec cfg hc).1
  }
  exact hinv.holds h

-- Who becomes active in the course of a run does so by a stake.
theorem Kept.restaked (h : Kept p) {id : String} {actions : List (Action PenaltyRequest)}
    (hc : p.Along (PenaltyRequest.handler cfg) Fair actions)
    (hbefore : (p.store.reviewer id).stakeStatus ≠ .active)
    (hafter : ((p.execs (PenaltyRequest.handler cfg) actions).store.reviewer id).stakeStatus = .active) :
    ∃ before a after, actions = before ++ a :: after ∧
      (stepLabel (p.execs (PenaltyRequest.handler cfg) before) a).any
        (·.stakes id (p.execs (PenaltyRequest.handler cfg) before).store) = true := by
  induction actions generalizing p with
  | nil => exact absurd hafter hbefore
  | cons a actions ih =>
    obtain ⟨hkept, hstep⟩ := h.exec cfg hc.1
    by_cases hactive : ((p.exec (PenaltyRequest.handler cfg) a).store.reviewer id).stakeStatus = .active
    case pos =>
      obtain ⟨_, hsame⟩ | ⟨label, hlabel, hlawful⟩ := hstep
      case inl => exact absurd (hsame ▸ hactive) hbefore
      case inr =>
        have hstakes := (hlawful.active id hactive).resolve_left hbefore
        exact ⟨[], a, actions, rfl, by simpa [Pool.execs, hlabel] using hstakes⟩
    case neg =>
      obtain ⟨before, b, after, rfl, hstakes⟩ := ih hkept hc.2 hactive hafter
      exact ⟨a :: before, b, after, rfl, hstakes⟩

theorem Kept.bite (h : Kept p) : PenaltiesBite cfg Fair p where
  bounded id   := ⟨(h.sound id).score.nonneg, (h.sound id).score.le⟩
  settling a hc hsettles id := by
    obtain ⟨hnone, _⟩ | ⟨label, hlabel, hlawful⟩ := (h.exec cfg hc).2
    case inl =>
      rw [hnone] at hsettles
      cases hsettles
    case inr =>
      rw [hlabel, Option.any_some] at hsettles
      exact hlawful.settling hsettles id
  restaked id actions hc hsuspended hactive := by
    refine h.restaked hc ?_ hactive
    simp [hsuspended]

end Runs

namespace Sample

def tasks : List String :=
  ["t01", "t02", "t03", "t04", "t05", "t06", "t07", "t08", "t09", "t10", "t11"]

-- Tasks that wait for their reviewers, and the balance of one who wants to be one.
def unreviewed : World where
  users       := KVStore.empty.set "bob" { mlptsBalance := 60 }
  submissions := tasks.foldl (fun s id => s.set id { minerId := "alice", createdAt := 0 }) .empty

def panel : List String :=
  ["bob", "r2", "r3", "r4", "r5", "r6"]

def assignments : List PenaltyRequest :=
  .route (.stake "bob" 60 true) :: tasks.map fun id => .assign id panel 10

-- Nobody votes, and the tasks are settled after their deadline.
def overdue : List PenaltyRequest :=
  assignments ++ [.route (.myAssigned "bob" (tasks.map fun id => (id, {})) 11)]

-- The second vote on a task is not stored.
def votedTwice : List PenaltyRequest :=
  [.assign "t01" panel 10, .route (.vote "t01" "bob" "yes" 0 true {}),
    .route (.vote "t01" "r2" "yes" 0 true {}), .route (.vote "t01" "r2" "no" 0 true {})]

def served (requests : List PenaltyRequest) (actions : List (Action PenaltyRequest)) : Pool Label World :=
  Pool.execs (PenaltyRequest.handler config) { store := unreviewed, running := [] }
    (inTurn 8 requests ++ actions)

end Sample

-- The laws hold in a run whose settlements find a reputation to deduct from, whose withdrawals leave less
-- than the minimum unless the reviewer is active, and in which nobody votes more often than was asked for.
theorem penalties_bite (cfg : Config) (p : Pool Label World) (h : (reviewSystem cfg).Run Fair p) :
    PenaltiesBite cfg Fair p :=
  (kept_of_run h).bite

-- Three missed votes are settled, and the reviewer is suspended.
theorem sample_penalties_bite :
    ((Sample.served Sample.overdue []).store.reviewer "bob").stakeStatus = .suspended ∧
      PenaltiesBite Sample.config Fair (Sample.served Sample.overdue []) :=
  ⟨by decide +kernel, penalties_bite Sample.config _ (run_along (.init ⟨rfl, rfl⟩) (by decide +kernel))⟩

-- The eleventh missed vote raises a reputation of 0 to 45, a withdrawal makes a suspended reviewer active,
-- and a reviewer whose vote was lost votes once more and gets above 100.
theorem penalties_do_not_bite :
    (¬∀ (cfg : Config) (p : Pool Label World), (reviewSystem cfg).Reachable p →
      PenaltiesBite cfg (fun _ _ => True) p) ∧
    ((Sample.served Sample.overdue []).store.reviewer "bob").stakeStatus = .suspended ∧
    ((Sample.served (Sample.overdue ++ [.route (.unstake "bob" 5 11 {})]) []).store.reviewer
      "bob").stakeStatus = .active ∧
    100 < ((Sample.served Sample.votedTwice []).store.reviewer "r2").miningReputation := by
  refine ⟨fun h => ?_, by decide +kernel, by decide +kernel, by decide +kernel⟩
  have hreachable : (reviewSystem Sample.config).Reachable
      (Sample.served Sample.overdue (List.replicate 14 (.run 12))) :=
    reachable_execs (.init ⟨rfl, rfl⟩)
  have hraised := (h _ _ hreachable).settling (.run 12) trivial (by decide +kernel) "bob"
  exact absurd hraised (by decide +kernel)

end Mines
