import MallChain.Mines.System

namespace Mines

open Interleaving

structure VoteRequest where
  id       : String
  userId   : String
  vote     : String
  now      : ℤ := 0
  audited  : Bool := true
  attempts : Attempts := {}
  deriving DecidableEq, Repr

def VoteRequest.handler (cfg : Config) (r : VoteRequest) : Handler Unit :=
  Mines.vote cfg r.id r.userId r.vote r.now r.audited r.attempts

-- A vote with the weight that it was given.
structure Ballot where
  reviewer : String
  vote     : String
  weight   : ℚ
  deriving DecidableEq, Repr

-- The fields of a submission that its votes are counted in.
structure Tally where
  votes     : Option Votes := none
  yes       : ℚ := 0
  no        : ℚ := 0
  yesWeight : ℚ := 0
  noWeight  : ℚ := 0

def TaskSubmission.tally (s : TaskSubmission) : Tally where
  votes     := s.validatorVotes
  yes       := s.votesYes
  no        := s.votesNo
  yesWeight := s.votesYesWeight
  noWeight  := s.votesNoWeight

-- The tally of one vote.
def Ballot.tally (b : Ballot) : Tally where
  votes     := some (KVStore.empty.set b.reviewer b.vote)
  yes       := if b.vote = "yes" then 1 else 0
  no        := if b.vote = "yes" then 0 else 1
  yesWeight := if b.vote = "yes" then Binary64.add 0 b.weight else 0
  noWeight  := if b.vote = "yes" then 0 else Binary64.add 0 b.weight

namespace World

variable (id : String) (w : World)

def tally : Option Tally :=
  (w.submissions.get id).map (·.tally)

-- The votes that were acknowledged, the latest first.
def acknowledged : List Ballot :=
  w.events.filterMap fun
    | .acknowledged submission reviewer vote weight =>
      if submission = id then some { reviewer, vote, weight } else none
    | _ => none

end World

-- No vote is in the submission that is voted on when it is read, and none when it is saved, and no step
-- fails afterwards.
def voteGuard : Label → World → Prop
  | .saveVote id task, w =>
    task.loaded.validatorVotes = none ∧ ∀ s, w.submissions.get id = some s → s.validatorVotes = none
  | .failing, _ => False
  | _, _ => True

-- A program owns the vote that it has recorded and not yet acknowledged.
inductive Voted (id : String) (w : World) (owned : Multiset Ballot) : Prop
  | none (tally : w.tally id = some {}) (acknowledged : w.acknowledged id = []) (owned : owned = 0)
  | one (b : Ballot) (tally : w.tally id = some b.tally) (valid : b.vote ∈ ["yes", "no"])
    (acknowledged : (w.acknowledged id : Multiset Ballot) + owned = {b})

def voteContract (id : String) : Contract Label World (Multiset Ballot) where
  invariant   := Voted id
  grows _ _   := True
  guard       := voteGuard
  refl _      := trivial
  trans _ _   := trivial

-- A step that counts no votes.
def Uncounted (id : String) (_ : Label) (update : World → World) : Prop :=
  ∀ w, (update w).tally id = w.tally id ∧ (update w).acknowledged id = w.acknowledged id

variable {id id' : String} {w w' : World} {owned : Multiset Ballot} {cfg : Config} {task : Doc}

theorem Voted.congr (h : Voted id w owned) (ht : w'.tally id = w.tally id)
    (ha : w'.acknowledged id = w.acknowledged id) : Voted id w' owned := by
  cases h with
  | none tally acknowledged owned      => exact .none (ht.trans tally) (ha.trans acknowledged) owned
  | one b tally valid acknowledged     =>
    refine .one b (ht.trans tally) valid ?_
    rw [ha]
    exact acknowledged

section Frames

theorem tally_updateSubmission {f : TaskSubmission → TaskSubmission}
    (hf : id = id' → ∀ s, (f s).tally = s.tally) :
    (w.updateSubmission id' f).tally id = w.tally id := by
  rw [World.updateSubmission]
  cases hget : w.submissions.get id' with
  | none   => rfl
  | some s =>
    rw [World.tally, World.tally, KVStore.get_set]
    split_ifs with heq
    case neg => rfl
    case pos => rw [Option.map_some, hf heq s, heq, hget, Option.map_some]

theorem acknowledged_updateSubmission {f : TaskSubmission → TaskSubmission} :
    (w.updateSubmission id' f).acknowledged id = w.acknowledged id := by
  obtain ⟨submissions, hs⟩ := updateSubmission_eq id' f w
  rw [hs]
  rfl

theorem commitSettlement_uncounted (cfg : Config) (id : String) (task : Doc) (w : World)
    (approved : Bool) (finalReward : ℚ) :
    (commitSettlement cfg id' task approved finalReward w).tally id =
        (w.updateSubmission id' task.save).tally id ∧
      (commitSettlement cfg id' task approved finalReward w).acknowledged id = w.acknowledged id := by
  cases approved with
  | false =>
    obtain ⟨users, reviewers, hw⟩ := commitSettlement_rejected cfg id' task finalReward w
    rw [hw]
    exact ⟨rfl, acknowledged_updateSubmission⟩
  | true =>
    obtain ⟨w₁, w₂, users, reviewers, hw₁, hw₂, hw⟩ :=
      commitSettlement_approved cfg id' task finalReward w
    have h₁ : w₁.tally id = (w.updateSubmission id' task.save).tally id ∧
        w₁.acknowledged id = w.acknowledged id := by
      rw [hw₁]
      split_ifs
      case neg => exact ⟨rfl, acknowledged_updateSubmission⟩
      case pos =>
        obtain ⟨users, transactions, hr⟩ := reward_eq id' task.current.rewardCurrency task.current
          finalReward (w.updateSubmission id' task.save)
        rw [hr]
        exact ⟨rfl, acknowledged_updateSubmission⟩
    have h₂ : w₂.tally id = w₁.tally id ∧ w₂.acknowledged id = w₁.acknowledged id := by
      rw [hw₂]
      cases task.current.campaignId with
      | none            => exact ⟨rfl, rfl⟩
      | some campaignId =>
        obtain ⟨campaigns, hc⟩ := chargeCampaign_eq campaignId finalReward w₁
        change (w₁.chargeCampaign campaignId finalReward).tally id = _ ∧ _
        rw [Option.elim, hc]
        exact ⟨rfl, rfl⟩
    rw [hw]
    exact ⟨h₂.1.trans h₁.1, h₂.2.trans h₁.2⟩

-- A document whose votes are as they were loaded.
structure Doc.Clean (task : Doc) : Prop where
  marked    : task.votesMarked = false
  yes       : task.current.votesYes = task.loaded.votesYes
  no        : task.current.votesNo = task.loaded.votesNo
  yesWeight : task.current.votesYesWeight = task.loaded.votesYesWeight
  noWeight  : task.current.votesNoWeight = task.loaded.votesNoWeight

theorem Doc.Clean.save_tally (h : task.Clean) (s : TaskSubmission) : (task.save s).tally = s.tally := by
  simp only [TaskSubmission.tally, Doc.save, Doc.written, h.marked, h.yes, h.no, h.yesWeight, h.noWeight,
    if_true, Bool.false_eq_true, if_false]

theorem Doc.saved_clean (task : Doc) : task.saved.Clean :=
  ⟨rfl, rfl, rfl, rfl, rfl⟩

end Frames

section Steps

theorem settle_uncounted (h : id ≠ id') {approved : Bool} {attempts : Attempts} :
    (settle cfg id' task approved attempts).Steps (Uncounted id) := by
  refine .bind (.read fun _ => ⟨rfl, rfl⟩) fun campaign => ?_
  refine .ite (fun _ => ?_) fun _ => .bind (.skip fun _ => ⟨rfl, rfl⟩) fun _ => trivial
  refine .bind (.write fun w => ?_) fun _ => trivial
  obtain ⟨ht, ha⟩ := commitSettlement_uncounted cfg id _ w approved _
  exact ⟨ht.trans (tally_updateSubmission fun heq => absurd heq h), ha⟩

theorem checkAndResolve_uncounted (h : id ≠ id') {now : ℤ} {attempts : Attempts} :
    (checkAndResolve cfg id' task now attempts).Steps (Uncounted id) := by
  refine .ite (fun _ => trivial) fun _ => ?_
  split
  case h_1 => trivial
  case h_2 => exact .bind (settle_uncounted h) fun _ => trivial

theorem refreshReviewerStats_uncounted {validatorId : String} :
    (refreshReviewerStats validatorId).Steps (Uncounted id) := by
  refine .bind (.read fun _ => ⟨rfl, rfl⟩) fun reviewer => ?_
  split
  case h_1 => trivial
  case h_2 =>
    refine .write fun w => ?_
    obtain ⟨reviewers, hr⟩ := updateReviewer_eq validatorId _ w
    rw [hr]
    exact ⟨rfl, rfl⟩

theorem countVote_uncounted {userId v : String} : Uncounted id .write (countVote userId v) :=
  fun _ => ⟨rfl, rfl⟩

theorem vote_uncounted (h : id ≠ id') {userId v : String} {now : ℤ} {audited : Bool}
    {attempts : Attempts} : (vote cfg id' userId v now audited attempts).Steps (Uncounted id) := by
  refine .ite (fun _ => trivial) fun _ => ?_
  refine .bind (.read fun _ => ⟨rfl, rfl⟩) fun stored => ?_
  split
  case h_2 => trivial
  case h_1 stored =>
    refine .ite (fun _ => trivial) fun _ => ?_
    refine .ite (fun _ => trivial) fun _ => ?_
    refine .ite (fun _ => trivial) fun _ => ?_
    refine .bind (.act countVote_uncounted) fun weight => ?_
    refine .bind refreshReviewerStats_uncounted fun _ => ?_
    refine .bind (.write fun w => ?_) fun _ => ?_
    case refine_1 =>
      exact ⟨tally_updateSubmission fun heq => absurd heq h, acknowledged_updateSubmission⟩
    refine .ite (fun _ => .bind (.skip fun _ => ⟨rfl, rfl⟩) fun _ => trivial) fun _ => ?_
    refine .bind (checkAndResolve_uncounted h) fun resolution => ?_
    split
    case h_1 => trivial
    case h_2 =>
      refine .write fun w => ⟨rfl, ?_⟩
      simp [World.acknowledged, World.record, Ne.symm h]

end Steps

-- The vote is the first one of the submission, and is saved as the only one.
theorem save_tally {stored s : TaskSubmission} (b : Ballot) (h : stored.tally = {}) (hs : s.tally = {}) :
    (((Doc.read stored).vote b.reviewer b.vote b.weight).save s).tally = b.tally := by
  simp only [TaskSubmission.tally, Tally.mk.injEq] at h hs
  obtain ⟨hvotes, hyes, hno, hyesWeight, hnoWeight⟩ := h
  obtain ⟨_, hyes', hno', hyesWeight', hnoWeight'⟩ := hs
  have hone : Binary64.add 0 1 = 1 := by
    rw [Binary64.add, zero_add]
    exact_mod_cast Binary64.round_intCast (n := 1) (by norm_num)
  have hset : ∀ v, (KVStore.empty.set b.reviewer v : Votes).entries ≠ [] := by
    intro v hnil
    have hget := KVStore.get_set_self (s := (KVStore.empty : Votes)) (k := b.reviewer) (v := v)
    rw [KVStore.get, hnil] at hget
    cases hget
  by_cases hv : b.vote = "yes"
  case pos =>
    simp only [TaskSubmission.tally, Ballot.tally, Doc.save, Doc.written, Doc.vote, Doc.votes, hv]
    simp [Doc.read, hvotes, hyes, hno, hyesWeight, hnoWeight, hno', hyesWeight', hnoWeight', hone]
    exact ⟨hset "yes", Eq.symm⟩
  case neg =>
    simp only [TaskSubmission.tally, Ballot.tally, Doc.save, Doc.written, Doc.vote, Doc.votes, hv]
    simp [Doc.read, hvotes, hyes, hno, hyesWeight, hnoWeight, hyes', hyesWeight', hnoWeight', hone]
    exact ⟨hset b.vote, Eq.symm⟩

section Resolution

variable {β : Type} {post : β → World → Multiset Ballot → Prop} {now : ℤ} {attempts : Attempts}

-- A settlement that does not fail changes no votes.
theorem settle_safe {f : Option Doc → Handler β} {approved : Bool} (h : task.Clean)
    (hf : ∀ task' w', (voteContract id).Safe post (f (some task')) w' owned) :
    (voteContract id).Safe post (settle cfg id task approved attempts >>= f) w owned := by
  apply Contract.Safe.bind
  apply Contract.Safe.read
  intro w₁ _ _
  apply Contract.Safe.ite
  case hp =>
    intro _
    apply Contract.Safe.write
    intro w₂ _ _ others h₂
    refine ⟨owned, ?_, trivial, hf _ _⟩
    obtain ⟨ht, ha⟩ := commitSettlement_uncounted cfg id _ w₂ approved _
    refine h₂.congr (ht.trans (tally_updateSubmission fun _ s => ?_)) ha
    apply Doc.Clean.save_tally
    split
    case isTrue => exact Doc.saved_clean _
    case isFalse => exact ⟨h.marked, h.yes, h.no, h.yesWeight, h.noWeight⟩
  case hq =>
    intro _
    apply Contract.Safe.skip
    intro _ _ hg
    exact hg.elim

theorem checkAndResolve_safe {f : Resolution → Handler β} (h : task.Clean)
    (hf : ∀ resolution w', resolution ≠ .failed → (voteContract id).Safe post (f resolution) w' owned) :
    (voteContract id).Safe post (checkAndResolve cfg id task now attempts >>= f) w owned := by
  apply Contract.Safe.bind
  apply Contract.Safe.ite
  case hp =>
    intro _
    exact hf _ _ (by simp)
  case hq =>
    intro _
    split
    case h_1 => exact hf _ _ (by simp)
    case h_2 =>
      apply settle_safe h
      intro task' w'
      exact hf _ _ (by simp)

end Resolution

theorem Voted.acknowledge {b : Ballot} (h : Voted id w ({b} + owned)) :
    Voted id (w.record (.acknowledged id b.reviewer b.vote b.weight)) owned := by
  cases h with
  | none _ _ howned => simp at howned
  | one b' tally valid hacknowledged =>
    refine .one b' tally valid ?_
    rw [← hacknowledged]
    simp [World.acknowledged, World.record, ← Multiset.cons_coe]

theorem vote_handles {userId v : String} {now : ℤ} {audited : Bool} {attempts : Attempts} :
    (voteContract id).Handles (vote cfg id userId v now audited attempts) w 0 := by
  have hkept : ∀ label update w (own : Multiset Ballot), Uncounted id label update →
      (voteContract id).guard label w → (voteContract id).invariant w own →
      (voteContract id).invariant (update w) own ∧ (voteContract id).grows w (update w) :=
    fun _ _ w _ hu _ h => ⟨h.congr (hu w).1 (hu w).2, trivial⟩
  apply Contract.Safe.ite
  case hp =>
    intro _
    exact Contract.Handles.done
  case hq =>
    intro hvalid
    apply Contract.Safe.look
    intro w₁ _ _ _ h₁
    cases hget : w₁.submissions.get id with
    | none => exact Contract.Handles.done
    | some stored =>
      have hempty : stored.validatorVotes = none → stored.tally = {} := by
        intro hn
        cases h₁ with
        | none tally _ _ => simpa [World.tally, hget] using tally
        | one b tally _ _ =>
          rw [World.tally, hget, Option.map_some, Option.some.injEq] at tally
          have hv := congrArg Tally.votes tally
          rw [TaskSubmission.tally, hn] at hv
          cases hv
      refine Contract.Safe.ite (fun _ => Contract.Handles.done) fun _ => ?_
      refine Contract.Safe.ite (fun _ => Contract.Handles.done) fun _ => ?_
      refine Contract.Safe.ite (fun _ => Contract.Handles.done) fun _ => ?_
      apply Contract.Safe.act
      intro w₂ _ _ others h₂
      refine ⟨0, h₂.congr rfl rfl, trivial, ?_⟩
      apply Contract.Safe.bind_steps refreshReviewerStats_uncounted hkept
      intro _ w₃ _
      generalize computeWeight _ = weight
      apply Contract.Safe.write
      intro w₄ _ hg others h₄
      obtain ⟨hloaded, hstored⟩ := hg
      have hloaded : stored.validatorVotes = none := by
        rw [← hloaded, Doc.vote]
        split <;> rfl
      -- The submission has no vote, so that no other program owns one.
      have hfirst : w₄.tally id = some {} ∧ w₄.acknowledged id = [] ∧ others = 0 := by
        cases h₄ with
        | none tally acknowledged owned => exact ⟨tally, acknowledged, by simpa using owned⟩
        | one b tally _ _ =>
          obtain ⟨s, hs, htally⟩ := Option.map_eq_some_iff.mp tally
          have hv := congrArg Tally.votes htally
          rw [TaskSubmission.tally, hstored s hs] at hv
          cases hv
      obtain ⟨htally, hacknowledged, hothers⟩ := hfirst
      obtain ⟨s, hs, hstally⟩ := Option.map_eq_some_iff.mp htally
      refine ⟨{⟨userId, v, weight⟩}, ?_, trivial, ?_⟩
      case refine_1 =>
        refine .one ⟨userId, v, weight⟩ ?_ (not_not.mp hvalid) ?_
        case refine_1 =>
          rw [World.updateSubmission, hs, World.tally, KVStore.get_set_self, Option.map_some]
          exact congrArg some (save_tally ⟨userId, v, weight⟩ (hempty hloaded) hstally)
        case refine_2 =>
          rw [acknowledged_updateSubmission, hacknowledged, hothers]
          rfl
      case refine_2 =>
        refine Contract.Safe.ite (fun _ => ?_) fun _ => ?_
        case refine_1 =>
          apply Contract.Safe.skip
          intro _ _ hg
          exact hg.elim
        case refine_2 =>
          apply checkAndResolve_safe (Doc.saved_clean _)
          intro resolution w₆ hresolved
          cases resolution with
          | failed => exact absurd rfl hresolved
          | unresolved | resolved _ =>
            apply Contract.Handles.write
            intro w₇ _ _ others h₇
            exact ⟨h₇.acknowledge, trivial⟩

-- The votes of a submission are those of some ballots.
structure Counted (s : TaskSubmission) (ballots : List Ballot) : Prop where
  entries   : (s.validatorVotes.getD .empty).entries.Perm (ballots.map fun b => (b.reviewer, b.vote))
  once      : (ballots.map (·.reviewer)).Nodup
  yes       : s.votesYes = ballots.countP (·.vote = "yes")
  no        : s.votesNo = ballots.countP (·.vote = "no")
  yesWeight : s.votesYesWeight =
    (ballots.filter (·.vote = "yes")).foldr (fun b total => Binary64.add total b.weight) 0
  noWeight  : s.votesNoWeight =
    (ballots.filter (·.vote = "no")).foldr (fun b total => Binary64.add total b.weight) 0

theorem Counted.none {s : TaskSubmission} (h : s.tally = {}) : Counted s [] := by
  simp only [TaskSubmission.tally, Tally.mk.injEq] at h
  obtain ⟨hvotes, hyes, hno, hyesWeight, hnoWeight⟩ := h
  constructor
  case entries =>
    rw [hvotes]
    exact .nil
  case once      => exact List.nodup_nil
  case yes       => simp [hyes]
  case no        => simp [hno]
  case yesWeight => simp [hyesWeight]
  case noWeight  => simp [hnoWeight]

theorem Counted.one {s : TaskSubmission} {b : Ballot} (h : s.tally = b.tally)
    (hb : b.vote ∈ ["yes", "no"]) : Counted s [b] := by
  simp only [TaskSubmission.tally, Ballot.tally, Tally.mk.injEq] at h
  obtain ⟨hvotes, hyes, hno, hyesWeight, hnoWeight⟩ := h
  have hb : b.vote = "yes" ∨ b.vote = "no" := by simpa using hb
  constructor
  case entries =>
    rw [hvotes]
    exact .refl _
  case once => exact List.nodup_singleton _
  case yes => cases hb with | inl hb | inr hb => simp [hyes, hb]
  case no => cases hb with | inl hb | inr hb => simp [hno, hb]
  case yesWeight => cases hb with | inl hb | inr hb => simp [hyesWeight, hb]
  case noWeight => cases hb with | inl hb | inr hb => simp [hnoWeight, hb]

-- A submission that is assigned to its reviewers and has no votes.
def Unvoted (id : String) (w : World) : Prop :=
  w.tally id = some {} ∧ w.events = []

def voteSystem (cfg : Config) (id : String) : TransitionSystem (Pool Label World) (Action VoteRequest) :=
  system (Unvoted id) (VoteRequest.handler cfg)

instance : (label : Label) → (w : World) → Decidable (voteGuard label w)
  | .saveVote id task, w =>
    decidable_of_iff (task.loaded.validatorVotes.isNone ∧
      (w.submissions.get id).all (·.validatorVotes.isNone)) (by
        rw [voteGuard]
        cases w.submissions.get id <;> simp)
  | .failing, _ => .isFalse fun h => h
  | .read, _ | .write, _ | .inserting _ _ _, _ | .updating _ _, _
  | .deciding _ _, _ | .settling _ _ _, _ | .rewarding _ _, _ | .charging _ _, _
  | .staking _ _, _ | .unstaking _ _ _ _, _ | .adjusting _ _, _ => .isTrue trivial

namespace Sample

def assigned : World where
  submissions := KVStore.empty.set "task" {
    minerId            := "alice"
    assignedValidators := ["bob", "carol", "dave"]
    assignmentStatus   := "assigned"
    createdAt          := 0
  }

theorem assigned_unvoted : Unvoted "task" assigned :=
  ⟨rfl, rfl⟩

def twoVotes : List VoteRequest :=
  [{ id := "task", userId := "bob", vote := "yes" }, { id := "task", userId := "carol", vote := "yes" }]

def voted (requests : List VoteRequest) : Pool Label World :=
  Pool.execs (VoteRequest.handler config) { store := assigned, running := [] } (inTurn 8 requests)

end Sample

-- When all requests are handled, the votes of a submission are those that were acknowledged.
theorem votes_counted (cfg : Config) (id : String) (p : Pool Label World)
    (h : (voteSystem cfg id).Run (fun p a => p.Meets voteGuard a) p) (hidle : p.isIdle = true) :
    ∃ s, p.store.submissions.get id = some s ∧ Counted s (p.store.acknowledged id) := by
  have hinv : (voteSystem cfg id).Invariant (fun p a => p.Meets (voteContract id).guard a)
      fun p => ∃ owned, (voteContract id).Holds p owned :=
    Contract.invariant_of_handles ?init ?handles
  case init =>
    intro w hw
    refine .none hw.1 ?_ rfl
    rw [World.acknowledged, hw.2]
    rfl
  case handles =>
    intro request w
    by_cases heq : id = request.id
    case pos =>
      subst heq
      exact vote_handles
    case neg =>
      apply Contract.Handles.of_steps (vote_uncounted heq)
      intro label update w owned hu _ hv
      exact ⟨hv.congr (hu w).1 (hu w).2, trivial⟩
  obtain ⟨owned, hp⟩ := hinv.holds h
  cases hp.of_isIdle hidle with
  | none tally acknowledged _ =>
    obtain ⟨s, hs, htally⟩ := Option.map_eq_some_iff.mp tally
    rw [acknowledged]
    exact ⟨s, hs, .none htally⟩
  | one b tally valid acknowledged =>
    obtain ⟨s, hs, htally⟩ := Option.map_eq_some_iff.mp tally
    rw [add_zero] at acknowledged
    rw [Multiset.coe_eq_singleton.mp acknowledged]
    exact ⟨s, hs, .one htally valid⟩

theorem sample_votes_counted : ∃ s,
    (Sample.voted (Sample.twoVotes.take 1)).store.submissions.get "task" = some s ∧
      Counted s ((Sample.voted (Sample.twoVotes.take 1)).store.acknowledged "task") :=
  votes_counted Sample.config "task" _ (run_from Sample.assigned_unvoted (by decide +kernel))
    (by decide +kernel)

-- Of two votes, one after the other, only the first is stored.
theorem second_vote_lost :
    ¬∀ (cfg : Config) (id : String) (p : Pool Label World), (voteSystem cfg id).Reachable p →
      p.isIdle = true → ∃ s, p.store.submissions.get id = some s ∧ Counted s (p.store.acknowledged id) := by
  intro h
  obtain ⟨s, hs, hc⟩ := h Sample.config "task" (Sample.voted Sample.twoVotes)
    (reachable_from Sample.assigned_unvoted) (by decide +kernel)
  have hlost : ((Sample.voted Sample.twoVotes).store.submissions.get "task").all fun s =>
      (s.validatorVotes.getD .empty).entries.length <
        ((Sample.voted Sample.twoVotes).store.acknowledged "task").length := by
    decide +kernel
  have hlength := hc.entries.length_eq
  rw [hs, Option.all_some, decide_eq_true_eq] at hlost
  rw [List.length_map] at hlength
  omega

end Mines
