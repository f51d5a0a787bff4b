import MallChain.Lib.Erasure
import MallChain.Mines.System

namespace Mines

open Sdk Interleaving

section Erasure

-- What is left when nobody looks at the content.

def TaskSubmission.erase (s : TaskSubmission) : TaskSubmission :=
  { s with content := [] }

def Doc.erase (d : Doc) : Doc where
  loaded      := d.loaded.erase
  current     := d.current.erase
  votesMarked := d.votesMarked

def Resolution.erase : Resolution → Resolution
  | unresolved    => unresolved
  | resolved task => resolved task.erase
  | failed        => failed

def World.erase (w : World) : World :=
  { w with submissions := w.submissions.mapValues TaskSubmission.erase }

def SubmissionBody.erase (body : SubmissionBody) : SubmissionBody :=
  { body with content := [] }

def Request.erase : Request → Request
  | submit userId id body now shuffled => submit userId id body.erase now shuffled
  | update userId id body              => update userId id body.erase
  | request                            => request

end Erasure

variable {cfg : Config} {w : World} {id userId minerId : String} {now : ℤ} {task : Doc}
  {attempts : Attempts} {body : SubmissionBody} {R : Type}

-- A program and one for which the content is erased.
abbrev Blind {α α' : Type} (R : α → α' → Prop) (p : Handler α) (p' : Handler α') : Prop :=
  p.Erases World.erase R p'

section Store

variable {f g : TaskSubmission → TaskSubmission} {s : TaskSubmission}

@[simp]
theorem erase_updateUser {f : User → User} :
    (w.updateUser id f).erase = w.erase.updateUser id f := by
  simp only [World.updateUser, World.erase]
  cases w.users.get id <;> rfl

@[simp]
theorem erase_updateReviewer {f : MinesReviewer → MinesReviewer} :
    (w.updateReviewer id f).erase = w.erase.updateReviewer id f := by
  simp only [World.updateReviewer, World.erase]
  cases w.reviewers.get id <;> rfl

@[simp]
theorem erase_updateCampaign {f : Campaign → Campaign} :
    (w.updateCampaign id f).erase = w.erase.updateCampaign id f := by
  simp only [World.updateCampaign, World.erase]
  cases w.campaigns.get id <;> rfl

theorem erase_updateSubmission (h : ∀ s, (f s).erase = g s.erase) :
    (w.updateSubmission id f).erase = w.erase.updateSubmission id g := by
  simp only [World.updateSubmission, World.erase, KVStore.get_mapValues]
  cases w.submissions.get id with
  | none => rfl
  | some s => simp only [Option.map_some, ← h, KVStore.set_mapValues]

@[simp]
theorem erase_record {e : Event} : (w.record e).erase = w.erase.record e :=
  rfl

@[simp]
theorem erase_addTransaction {t : WalletTransaction} :
    (w.addTransaction t).erase = w.erase.addTransaction t :=
  rfl

@[simp]
theorem erase_incBalance {amount : ℚ} : (w.incBalance id amount).erase = w.erase.incBalance id amount :=
  erase_updateUser

@[simp]
theorem erase_chargeCampaign {amount : ℚ} :
    (w.chargeCampaign id amount).erase = w.erase.chargeCampaign id amount := by
  simp [World.chargeCampaign]

@[simp]
theorem erase_reward {currency : String} {amount : ℚ} :
    (reward id s currency amount w).erase = reward id s.erase currency amount w.erase := by
  simp [reward, TaskSubmission.erase]

theorem erase_save (s : TaskSubmission) : (task.save s).erase = task.erase.save s.erase :=
  rfl

theorem erase_assignment (a : Assignment) (s : TaskSubmission) :
    (a.apply s).erase = a.apply s.erase := by
  cases a <;> rfl

theorem erase_assignments (l : List Assignment) (s : TaskSubmission) :
    (l.foldl Assignment.apply s).erase = l.foldl Assignment.apply s.erase := by
  induction l generalizing s with
  | nil => rfl
  | cons a l ih => rw [List.foldl_cons, List.foldl_cons, ih, erase_assignment]

theorem erase_apply (body : SubmissionBody) (s : TaskSubmission) :
    (body.apply s).erase = body.erase.apply s.erase := by
  have herased : (body.apply s).erase = (body.named.foldl Assignment.apply s).erase := rfl
  rw [herased, SubmissionBody.apply]
  dsimp only [SubmissionBody.erase]
  rw [← erase_assignments]
  rfl

theorem erase_settleReviewer {votes : Votes} {approved : Bool} {reviewerId : String} :
    (settleReviewer cfg votes approved w reviewerId).erase =
      settleReviewer cfg votes approved w.erase reviewerId := by
  rw [settleReviewer, settleReviewer]
  cases votes.get reviewerId with
  | none => exact erase_updateReviewer
  | some cast =>
    dsimp only
    split_ifs
    case pos =>
      have hget : w.erase.reviewers.get reviewerId = w.reviewers.get reviewerId := rfl
      rw [hget]
      cases w.reviewers.get reviewerId <;> simp
    case neg => exact erase_updateReviewer

theorem erase_settleReviewers {votes : Votes} {approved : Bool} {ids : List String} :
    (ids.foldl (settleReviewer cfg votes approved) w).erase =
      ids.foldl (settleReviewer cfg votes approved) w.erase := by
  induction ids generalizing w with
  | nil => rfl
  | cons reviewerId ids ih => rw [List.foldl_cons, List.foldl_cons, ih, erase_settleReviewer]

theorem erase_commitSettlement {approved : Bool} {finalReward : ℚ} :
    (commitSettlement cfg id task approved finalReward w).erase =
      commitSettlement cfg id task.erase approved finalReward w.erase := by
  have hsaved : (w.updateSubmission id task.save).erase =
      w.erase.updateSubmission id task.erase.save := erase_updateSubmission erase_save
  have hcampaign : task.erase.current.campaignId = task.current.campaignId := rfl
  rw [commitSettlement, commitSettlement, erase_settleReviewers, ← hsaved, hcampaign]
  congr 1
  cases task.current.campaignId <;> dsimp only <;> split_ifs <;> simp [Doc.erase, TaskSubmission.erase, reward]

end Store

section Handlers

open Prog

-- What is read of a submission.
theorem read_submission : Blind (fun a b => b = a.map TaskSubmission.erase)
    (.read .read (·.submissions.get id)) (.read .read (·.submissions.get id)) :=
  .read fun _ => KVStore.get_mapValues

theorem blind_refreshReviewerStats : Blind (· = ·) (refreshReviewerStats id) (refreshReviewerStats id) := by
  refine .bind (.read fun _ => Eq.refl _) ?_
  rintro reviewer _ rfl
  split
  case h_1 => exact Eq.refl ()
  case h_2 => exact .write fun _ => erase_updateReviewer

theorem blind_autoAssignReviewers {shuffled : List String} :
    Blind (· = ·) (autoAssignReviewers id task shuffled now)
      (autoAssignReviewers id task.erase shuffled now) := by
  refine .bind (.read fun _ => Eq.refl _) ?_
  rintro pool _ rfl
  refine .ite .rfl (fun _ => Eq.refl ()) fun _ => ?_
  refine .bind (.write fun w => erase_updateSubmission fun s => rfl) fun _ _ _ => ?_
  refine .write fun w => ?_
  generalize (shuffled.filter (· ∈ pool)).take reviewersPerTask = picked
  induction picked generalizing w with
  | nil => rfl
  | cons validatorId picked ih => rw [List.foldl_cons, List.foldl_cons, ih, erase_updateReviewer]

theorem erase_ite_saved {c : Prop} [Decidable c] {d : Doc} :
    (if c then d.saved else d).erase = if c then d.erase.saved else d.erase := by
  split_ifs <;> rfl

theorem blind_settle {approved : Bool} :
    Blind (fun a b => b = a.map Doc.erase) (settle cfg id task approved attempts)
      (settle cfg id task.erase approved attempts) := by
  refine .bind (.read fun w => Eq.refl (task.current.campaignId.bind w.campaigns.get)) ?_
  rintro campaign _ rfl
  refine .ite .rfl (fun _ => ?_) fun _ => .bind .skip fun _ _ _ => Eq.refl _
  have hsaved : ∀ (c : Prop) [Decidable c] (d : Doc),
      (if c then d.erase.saved else d.erase).saved = (if c then d.saved else d).saved.erase := by
    intro c _ d
    split_ifs <;> rfl
  refine .bind (.write fun w => ?_) fun _ _ _ => congrArg some (hsaved _ (task.decide approved _))
  rw [erase_commitSettlement, erase_ite_saved]
  rfl

theorem blind_checkAndResolve :
    Blind (fun a b => b = a.erase) (checkAndResolve cfg id task now attempts)
      (checkAndResolve cfg id task.erase now attempts) := by
  refine .ite .rfl (fun _ => Eq.refl _) fun _ => ?_
  have hvotes : task.erase.votes = task.votes := rfl
  have hassigned : task.erase.current.assignedValidators = task.current.assignedValidators := rfl
  have hdeadline : task.erase.current.votingDeadline = task.current.votingDeadline := rfl
  have hyes : task.erase.current.votesYesWeight = task.current.votesYesWeight := rfl
  have hno : task.erase.current.votesNoWeight = task.current.votesNoWeight := rfl
  rw [hvotes, hassigned, hdeadline, hyes, hno]
  split
  case h_1 => exact Eq.refl _
  case h_2 =>
    refine .bind blind_settle ?_
    rintro settled _ rfl
    cases settled <;> exact Eq.refl _

theorem blind_vote {v : String} {audited : Bool} :
    Blind (· = ·) (vote cfg id userId v now audited attempts)
      (vote cfg id userId v now audited attempts) := by
  refine .ite .rfl (fun _ => Eq.refl ()) fun _ => ?_
  refine .bind read_submission ?_
  rintro stored _ rfl
  cases stored with
  | none => exact Eq.refl ()
  | some stored =>
    refine .ite .rfl (fun _ => Eq.refl ()) fun _ => ?_
    refine .ite .rfl (fun _ => Eq.refl ()) fun _ => ?_
    refine .ite .rfl (fun _ => Eq.refl ()) fun _ => ?_
    refine .bind (.act (fun w => rfl) fun _ => Eq.refl _) ?_
    rintro weight _ rfl
    refine .bind blind_refreshReviewerStats fun _ _ _ => ?_
    have hvoted : (Doc.read stored.erase).vote userId v weight =
        ((Doc.read stored).vote userId v weight).erase := by
      rw [Doc.vote, Doc.vote]
      split_ifs <;> rfl
    rw [hvoted]
    refine .bind (.write fun w => erase_updateSubmission erase_save) fun _ _ _ => ?_
    refine .ite .rfl (fun _ => .bind .skip fun _ _ _ => Eq.refl ()) fun _ => ?_
    refine .bind blind_checkAndResolve ?_
    rintro resolution _ rfl
    cases resolution with
    | failed => exact Eq.refl ()
    | unresolved | resolved => exact .write fun w => rfl

-- The campaign of a submission is charged.
theorem blind_charge {campaignId : Option String} {amount : ℚ} :
    Blind (· = ·)
      (match campaignId with
        | none            => return
        | some campaignId =>
          .write (.charging campaignId amount) (·.chargeCampaign campaignId amount) : Handler Unit)
      (match campaignId with
        | none            => return
        | some campaignId =>
          .write (.charging campaignId amount) (·.chargeCampaign campaignId amount) : Handler Unit) := by
  cases campaignId with
  | none => exact Eq.refl ()
  | some campaignId => exact .write fun w => erase_chargeCampaign

theorem blind_finalReject : Blind (· = ·) (finalReject id) (finalReject id) := by
  refine .bind read_submission ?_
  rintro stored _ rfl
  cases stored with
  | none => exact Eq.refl ()
  | some stored =>
    refine .write fun w => ?_
    rw [erase_record]
    exact congrArg (World.record · (.rejected id)) (erase_updateSubmission fun s => rfl)

theorem blind_approve {rewardAmount : ℚ} {commits : Bool} :
    Blind (· = ·) (approve id rewardAmount commits) (approve id rewardAmount commits) := by
  refine .bind read_submission ?_
  rintro stored _ rfl
  cases stored with
  | none => exact Eq.refl ()
  | some stored =>
    refine .bind (.read fun w => Eq.refl (stored.campaignId.bind w.campaigns.get)) ?_
    rintro campaign _ rfl
    refine .bind (.write fun w => erase_updateSubmission fun s => rfl) fun _ _ _ => ?_
    refine .ite .rfl (fun _ => .bind .skip fun _ _ _ => Eq.refl ()) fun _ => ?_
    exact .bind (.write fun w => erase_reward) fun _ _ _ => blind_charge

theorem blind_reject : Blind (· = ·) (reject id) (reject id) := by
  refine .write fun w => ?_
  have hget : w.erase.submissions.get id = (w.submissions.get id).map TaskSubmission.erase :=
    KVStore.get_mapValues
  rw [hget]
  cases w.submissions.get id with
  | none => rfl
  | some s =>
    rw [Option.map_some]
    dsimp only
    rw [erase_record]
    exact congrArg (World.record · (.rejected id)) (erase_updateSubmission fun s => rfl)

theorem blind_panelApprove {rewardAmount : ℚ} :
    Blind (· = ·) (panelApprove id rewardAmount) (panelApprove id rewardAmount) := by
  refine .bind read_submission ?_
  rintro stored _ rfl
  cases stored with
  | none => exact Eq.refl ()
  | some stored =>
    refine .bind (.write fun w => erase_updateSubmission fun s => rfl) fun _ _ _ => ?_
    exact .bind (.write fun w => rfl) fun _ _ _ => blind_charge

theorem blind_update : Blind (· = ·) (update userId id body) (update userId id body.erase) := by
  refine .bind read_submission ?_
  rintro stored _ rfl
  cases stored with
  | none => exact Eq.refl ()
  | some stored =>
    refine .ite .rfl (fun _ => Eq.refl ()) fun _ => ?_
    exact .write fun w => erase_updateSubmission (erase_apply body)

theorem erase_checkCampaignAbuseLimits {campaignId : Option String} :
    checkCampaignAbuseLimits cfg userId campaignId now w =
      checkCampaignAbuseLimits cfg userId campaignId now w.erase := by
  cases campaignId with
  | none => rfl
  | some campaignId =>
    rw [checkCampaignAbuseLimits, checkCampaignAbuseLimits]
    have hget : w.erase.campaigns.get campaignId = w.campaigns.get campaignId := rfl
    rw [hget]
    cases w.campaigns.get campaignId with
    | none => rfl
    | some campaign =>
      simp only [World.erase, KVStore.values_mapValues, List.filter_map, List.length_map, List.mem_map,
        forall_exists_index, and_imp, forall_apply_eq_imp_iff₂]
      rfl

theorem erase_insertSubmission {row : TaskSubmission} :
    (insertSubmission id row w).erase = insertSubmission id row.erase w.erase := by
  simp only [insertSubmission, World.erase, KVStore.get_mapValues, Option.isNone_map,
    KVStore.set_mapValues]
  split_ifs <;> rfl

theorem erase_created : (created userId body now).erase = created userId body.erase now := by
  have happlied := erase_apply body { minerId := userId, createdAt := now }
  exact congrArg (fun s => { s with minerId := userId }) happlied

theorem blind_submit {shuffled : List String} :
    Blind (· = ·) (submit cfg userId id body now shuffled)
      (submit cfg userId id body.erase now shuffled) := by
  rw [submit, submit, ← erase_created]
  refine .bind (.read fun w => erase_checkCampaignAbuseLimits) ?_
  rintro admitted _ rfl
  refine .ite .rfl (fun _ => Eq.refl ()) fun _ => ?_
  have hnew : ∀ w : World,
      (w.submissions.get id).isNone = (w.erase.submissions.get id).isNone := by
    simp [World.erase]
  refine .bind (.act (fun w => erase_insertSubmission) hnew) ?_
  rintro isNew _ rfl
  exact .ite .rfl (fun _ => blind_autoAssignReviewers) fun _ => Eq.refl ()

theorem blind_resolveAll : (tasks : List (String × Doc × Attempts)) →
    Blind (· = ·) (myAssigned.resolveAll cfg now tasks)
      (myAssigned.resolveAll cfg now (tasks.map fun e => (e.1, e.2.1.erase, e.2.2)))
  | []          => Eq.refl ()
  | (id, task, attempts) :: tasks => by
    refine .bind blind_checkAndResolve ?_
    rintro resolution _ rfl
    cases resolution with
    | failed => exact Eq.refl ()
    | unresolved | resolved => exact blind_resolveAll tasks

theorem blind_myAssigned {candidates : List (String × Attempts)} :
    Blind (· = ·) (myAssigned cfg userId candidates now) (myAssigned cfg userId candidates now) := by
  refine .bind (.read (R := fun a b => b = a.map fun e => (e.1, e.2.1.erase, e.2.2)) fun w => ?_) ?_
  · rw [List.map_filterMap]
    refine List.filterMap_congr fun e _ => ?_
    have hget : w.erase.submissions.get e.1 = (w.submissions.get e.1).map TaskSubmission.erase :=
      KVStore.get_mapValues
    dsimp only
    rw [hget]
    cases w.submissions.get e.1 with
    | none => rfl
    | some stored =>
      rw [Option.map_some, Option.bind_some, Option.bind_some, Option.map_if]
      rfl
  · rintro tasks _ rfl
    exact blind_resolveAll tasks

theorem blind_stake {amount : ℚ} {commits : Bool} :
    Blind (· = ·) (stake userId amount commits) (stake userId amount commits) := by
  refine .ite .rfl (fun _ => Eq.refl ()) fun _ => ?_
  refine .ite .rfl (fun _ => .write fun w => ?_) fun _ => Eq.refl ()
  have hget : w.erase.users.get userId = w.users.get userId := rfl
  rw [addStake, addStake, hget]
  cases w.users.get userId with
  | none => rfl
  | some u =>
    dsimp only
    split_ifs
    case pos =>
      rw [← erase_incBalance]
      rfl
    case neg => rfl

theorem erase_pendingVote : pendingVote userId now w = pendingVote userId now w.erase := by
  rw [pendingVote, pendingVote, World.erase, KVStore.values_mapValues, List.any_map]
  rfl

theorem blind_unstake {amount : ℚ} :
    Blind (· = ·) (unstake userId amount now attempts) (unstake userId amount now attempts) := by
  refine .bind (.read fun w => Eq.refl (w.reviewers.get userId)) ?_
  rintro reviewer _ rfl
  cases reviewer with
  | none => exact Eq.refl ()
  | some reviewer =>
    refine .ite .rfl (fun _ => Eq.refl ()) fun _ => ?_
    refine .bind (.read fun w => erase_pendingVote) ?_
    rintro pending _ rfl
    refine .ite .rfl (fun _ => Eq.refl ()) fun _ => ?_
    refine .ite .rfl (fun _ => Eq.refl ()) fun _ => ?_
    refine .ite .rfl (fun _ => .write fun w => ?_) fun _ => Eq.refl ()
    rw [removeStake, removeStake, erase_incBalance, erase_updateReviewer]

theorem blind_adjust {amount : ℚ} : Blind (· = ·) (adjust userId amount) (adjust userId amount) := by
  refine .write fun w => ?_
  have hget : w.erase.users.get userId = w.users.get userId := rfl
  rw [hget]
  cases w.users.get userId with
  | none => rfl
  | some u =>
    dsimp only
    split_ifs
    case pos => rw [erase_record, erase_incBalance]
    case neg => rfl

theorem blind_campaignsCreate {platform activity : String} {multiplier budget : ℚ} :
    Blind (· = ·) (campaignsCreate cfg userId id platform activity multiplier budget)
      (campaignsCreate cfg userId id platform activity multiplier budget) := by
  rw [campaignsCreate]
  split
  case h_1 => exact Eq.refl ()
  case h_2 =>
    refine .ite .rfl (fun _ => Eq.refl ()) fun _ => .write fun w => ?_
    have husers : w.erase.users.get userId = w.users.get userId := rfl
    have hcampaigns : w.erase.campaigns.get id = w.campaigns.get id := rfl
    rw [fundCampaign, fundCampaign, husers, hcampaigns]
    cases w.users.get userId with
    | none => rfl
    | some user =>
      cases w.campaigns.get id with
      | some campaign => rfl
      | none =>
        dsimp only
        split_ifs
        case pos =>
          rw [← erase_incBalance]
          rfl
        case neg => rfl

-- No handler looks at the content.
theorem handler_blind (request : Request) :
    Blind (· = ·) (request.handler cfg) (request.erase.handler cfg) := by
  cases request with
  | campaignsCreate userId id platform activity multiplier budget => exact blind_campaignsCreate
  | submit userId id body now shuffled => exact blind_submit
  | update userId id body => exact blind_update
  | vote id userId v now audited attempts => exact blind_vote
  | myAssigned userId candidates now => exact blind_myAssigned
  | finalReject id => exact blind_finalReject
  | approve id rewardAmount commits => exact blind_approve
  | reject id => exact blind_reject
  | panelApprove id rewardAmount => exact blind_panelApprove
  | stake userId amount commits => exact blind_stake
  | unstake userId amount now attempts => exact blind_unstake
  | adjust userId amount => exact blind_adjust
  | refreshReviewerStats validatorId => exact blind_refreshReviewerStats

end Handlers

section Runs

-- The fields of a new submission that a client may name: its owner, which is overwritten, and its campaign.
def Assignment.isOwn : Assignment → Bool
  | .minerId _ | .campaignId _ => true
  | _                          => false

-- Requests that differ only in what a miner writes into its submissions, for the same campaign.
inductive SameBut (miner : String) : Request → Request → Prop
  | same (request : Request) : SameBut miner request request
  | submit {id : String} {body body' : SubmissionBody} {now : ℤ} {shuffled : List String} :
    (created miner body now).campaignId = (created miner body' now).campaignId →
    SameBut miner (.submit miner id body now shuffled) (.submit miner id body' now shuffled)
  | update {id : String} {body body' : SubmissionBody} :
    SameBut miner (.update miner id body) (.update miner id body')

inductive SameAction (miner : String) : Action Request → Action Request → Prop
  | start {request request' : Request} : SameBut miner request request' →
    SameAction miner (.start request) (.start request')
  | run (i : ℕ) : SameAction miner (.run i) (.run i)

theorem SameAction.refl {miner : String} (a : Action Request) : SameAction miner a a := by
  cases a with
  | start request => exact .start (.same request)
  | run i => exact .run i

-- The miner names no field that a review works with.
def Request.IsPlain (miner : String) : Request → Prop
  | .submit userId _ body _ _ => userId = miner → ∀ a ∈ body.named, a.isOwn = true
  | .update userId _ body     => userId = miner → body.named = []
  | _                         => True

-- The reviewers of a submission with their votes, the totals, and the decision with its reward.
structure Verdict where
  assignedValidators : List String
  validatorVotes     : Votes
  votesYes           : ℚ
  votesNo            : ℚ
  votesYesWeight     : ℚ
  votesNoWeight      : ℚ
  status             : String
  assignmentStatus   : String
  rewardAmount       : ℚ

def TaskSubmission.verdict (s : TaskSubmission) : Verdict where
  assignedValidators := s.assignedValidators
  validatorVotes     := s.validatorVotes.getD .empty
  votesYes           := s.votesYes
  votesNo            := s.votesNo
  votesYesWeight     := s.votesYesWeight
  votesNoWeight      := s.votesNoWeight
  status             := s.status
  assignmentStatus   := s.assignmentStatus
  rewardAmount       := s.rewardAmount

structure SameVerdicts (w w' : World) : Prop where
  verdicts     : ∀ id, (w.submissions.get id).map TaskSubmission.verdict =
    (w'.submissions.get id).map TaskSubmission.verdict
  events       : w.events = w'.events
  users        : w.users = w'.users
  transactions : w.transactions = w'.transactions

theorem SameVerdicts.of_erase {w w' : World} (h : w.erase = w'.erase) : SameVerdicts w w' := by
  have hverdict : ∀ (w : World) (id : String), (w.submissions.get id).map TaskSubmission.verdict =
      (w.erase.submissions.get id).map TaskSubmission.verdict := by
    intro w id
    rw [World.erase, KVStore.get_mapValues, Option.map_map]
    rfl
  have hevents : w.erase.events = w'.erase.events := by rw [h]
  have husers : w.erase.users = w'.erase.users := by rw [h]
  have htransactions : w.erase.transactions = w'.erase.transactions := by rw [h]
  refine ⟨fun id => ?_, hevents, husers, htransactions⟩
  rw [hverdict w, hverdict w', h]

theorem apply_own {l : List Assignment} (h : ∀ a ∈ l, a.isOwn = true) (s : TaskSubmission) :
    ∃ minerId, l.foldl Assignment.apply s =
      { s with minerId := minerId, campaignId := (l.foldl Assignment.apply s).campaignId } := by
  induction l generalizing s with
  | nil => exact ⟨s.minerId, rfl⟩
  | cons a l ih =>
    obtain ⟨minerId, heq⟩ := ih (fun a' hm => h a' (List.mem_cons_of_mem a hm)) (a.apply s)
    have ha := h a (List.mem_cons_self ..)
    refine ⟨minerId, ?_⟩
    rw [List.foldl_cons]
    cases a with
    | minerId | campaignId => exact heq
    | _ => cases ha

-- A submission of which nothing was named but its campaign.
theorem created_plain (h : ∀ a ∈ body.named, a.isOwn = true) : created userId body.erase now =
    { minerId := userId, campaignId := (created userId body now).campaignId, createdAt := now } := by
  obtain ⟨minerId, heq⟩ := apply_own h { minerId := userId, createdAt := now }
  rw [← erase_created, created, SubmissionBody.apply]
  dsimp only
  rw [heq]
  rfl

variable {miner : String} {request request' : Request}

-- Once the content is erased the requests are the same.
theorem SameBut.handler_erase (h : SameBut miner request request') (hp : request.IsPlain miner)
    (hp' : request'.IsPlain miner) : request.erase.handler cfg = request'.erase.handler cfg := by
  cases h with
  | same => rfl
  | @submit id body body' now shuffled hcampaign =>
    have hrow : created miner body.erase now = created miner body'.erase now := by
      rw [created_plain (hp rfl), created_plain (hp' rfl), hcampaign]
    simp only [Request.erase, Request.handler, Mines.submit, hrow]
  | @update id body body' =>
    have hbody : body.erase = body'.erase := by
      rw [SubmissionBody.erase, SubmissionBody.erase, hp rfl, hp' rfl]
    simp only [Request.erase, Request.handler, hbody]

theorem SameAction.exec_eq {a a' : Action Request} {p : Pool Label World} (h : SameAction miner a a')
    (hp : ∀ request, a = .start request → request.IsPlain miner)
    (hp' : ∀ request, a' = .start request → request.IsPlain miner) :
    p.exec (fun request => request.erase.handler cfg) a =
      p.exec (fun request => request.erase.handler cfg) a' := by
  cases h with
  | start hr => rw [Pool.exec, Pool.exec, hr.handler_erase (hp _ rfl) (hp' _ rfl)]
  | run i => rfl

theorem execs_eq {actions actions' : List (Action Request)} {p : Pool Label World}
    (h : List.Forall₂ (SameAction miner) actions actions')
    (hp : ∀ request, .start request ∈ actions → request.IsPlain miner)
    (hp' : ∀ request, .start request ∈ actions' → request.IsPlain miner) :
    p.execs (fun request => request.erase.handler cfg) actions =
      p.execs (fun request => request.erase.handler cfg) actions' := by
  induction h generalizing p with
  | nil => rfl
  | @cons a a' actions actions' ha _ ih =>
    have hexec : p.exec (fun request => request.erase.handler cfg) a =
        p.exec (fun request => request.erase.handler cfg) a' :=
      ha.exec_eq (fun request heq => hp request (heq ▸ List.mem_cons_self ..))
        fun request heq => hp' request (heq ▸ List.mem_cons_self ..)
    rw [Pool.execs, Pool.execs, List.foldl_cons, List.foldl_cons, hexec]
    exact ih (fun request hm => hp request (List.mem_cons_of_mem _ hm))
      fun request hm => hp' request (List.mem_cons_of_mem _ hm)

end Runs

namespace Sample

-- A submission of alice with one reviewer.
def reviewed : World where
  users       := KVStore.empty.set "alice" {}
  reviewers   := KVStore.empty.set "carol" { stakedAmount := 50, stakeStatus := .active }
  submissions := KVStore.empty.set "s" {
    minerId            := "alice"
    assignedValidators := ["carol"]
    assignmentStatus   := "assigned"
    votingDeadline     := some 100
    createdAt          := 0
  }

-- The reviewer votes against it.
def rejection : List (Action Request) :=
  List.replicate 2 (.run 0) ++ .start (.vote "s" "carol" "no" 10 true {}) :: List.replicate 8 (.run 1)

-- Alice writes into it before.
def updatedBy (body : SubmissionBody) : List (Action Request) :=
  .start (.update "alice" "s" body) :: rejection

def described : SubmissionBody where
  content := [("description", .string "done")]

def weighed : SubmissionBody where
  named := [.votesYesWeight 100, .rewardAmount 1000]

def judged (body : SubmissionBody) : Pool Label World :=
  Pool.execs (Request.handler config) { store := reviewed, running := [] } (updatedBy body)

theorem same_updatedBy (body body' : SubmissionBody) :
    List.Forall₂ (SameAction "alice") (updatedBy body) (updatedBy body') :=
  .cons (.start .update) (List.forall₂_same.mpr fun a _ => .refl a)

theorem plain_updatedBy {body : SubmissionBody} (h : body.named = []) :
    ∀ request, .start request ∈ updatedBy body → request.IsPlain "alice" := by
  intro request hm
  simp only [updatedBy, rejection, List.mem_cons, List.mem_append, List.mem_replicate, Action.start.injEq,
    reduceCtorEq, and_false, false_or, or_false] at hm
  rcases hm with rfl | rfl
  · exact fun _ => h
  · trivial

end Sample

end Mines
