import MallChain.Mines.System

namespace Mines

open Interleaving

-- The requests that decide about submissions.
inductive ReviewRequest
  | vote (id userId vote : String) (now : ℤ) (audited : Bool) (attempts : Attempts)
  | myAssigned (userId : String) (candidates : List (String × Attempts)) (now : ℤ)
  | finalReject (id : String)
  | approve (id : String) (rewardAmount : ℚ) (commits : Bool)
  | reject (id : String)
  | panelApprove (id : String) (rewardAmount : ℚ)

def ReviewRequest.handler (cfg : Config) : ReviewRequest → Handler Unit
  | .vote id userId v now audited attempts => Mines.vote cfg id userId v now audited attempts
  | .myAssigned userId candidates now      => Mines.myAssigned cfg userId candidates now
  | .finalReject id                        => Mines.finalReject id
  | .approve id rewardAmount commits       => Mines.approve id rewardAmount commits
  | .reject id                             => Mines.reject id
  | .panelApprove id rewardAmount          => Mines.panelApprove id rewardAmount

def Event.rewards (id : String) : Event → Bool
  | .rewarded submission _ _ => submission = id
  | _                        => false

-- Whether some credit is later than a rejection.
def rewardedAfterRejection (id : String) : List Event → Bool
  | []                => false
  | e :: earlier => (e.rewards id && decide (.rejected id ∈ earlier)) ||
    rewardedAfterRejection id earlier

namespace World

variable (id : String) (w : World)

def status : Option String :=
  (w.submissions.get id).map (·.status)

-- How often the miner of a submission was credited.
def rewards : ℕ :=
  w.events.countP (·.rewards id)

end World

def mayApprove (id : String) (w : World) : Bool :=
  (w.submissions.get id).any (·.status ∉ ["auto_approved", "rejected"])

def mayReject (id : String) (w : World) : Bool :=
  (w.submissions.get id).all (·.status ≠ "auto_approved")

-- An outcome is written over none, and a settlement that approves does write it.
def outcomeGuard : Label → World → Prop
  | .deciding id true, w     => mayApprove id w
  | .deciding id false, w    => mayReject id w
  | .settling id task _, w   =>
    if task.current.status = "auto_approved" then
      mayApprove id w ∧ task.loaded.status ≠ "auto_approved"
    else mayReject id w
  | _, _                     => True

-- A program owns the credit that it has decided and not yet given.
structure Rewarded (id : String) (w : World) (owned : ℕ) : Prop where
  once   : w.rewards id + owned ≤ if w.status id = some "auto_approved" then 1 else 0
  closed : .rejected id ∈ w.events → w.status id = some "rejected"
  final  : rewardedAfterRejection id w.events = false

structure Decided (id : String) (w w' : World) : Prop where
  stored   : (w.status id).isSome → (w'.status id).isSome
  rejected : w.status id = some "rejected" → w'.status id = some "rejected"

def rewardContract (id : String) : Contract Label World ℕ where
  invariant   := Rewarded id
  grows       := Decided id
  guard       := outcomeGuard
  refl _      := ⟨fun h => h, fun h => h⟩
  trans h h'  := ⟨fun hs => h'.stored (h.stored hs), fun hs => h'.rejected (h.rejected hs)⟩

variable {id id' : String} {w w' : World} {owned : ℕ} {amount : ℚ} {campaign : Option String}
  {f : TaskSubmission → TaskSubmission} {cfg : Config}

section Store

theorem status_updateSubmission :
    (w.updateSubmission id f).status id = (w.submissions.get id).map fun s => (f s).status := by
  rw [World.updateSubmission, World.status]
  cases h : w.submissions.get id with
  | none   => simp [h]
  | some s => simp

theorem status_updateSubmission_ne (h : id ≠ id') :
    (w.updateSubmission id' f).status id = w.status id := by
  rw [World.updateSubmission, World.status, World.status]
  cases w.submissions.get id' with
  | none   => rfl
  | some s => rw [KVStore.get_set_ne h]

theorem events_updateSubmission : (w.updateSubmission id f).events = w.events := by
  obtain ⟨submissions, hs⟩ := updateSubmission_eq id f w
  rw [hs]

theorem mayApprove_eq_true : mayApprove id w = true ↔ ∃ status, w.status id = some status ∧
    status ≠ "auto_approved" ∧ status ≠ "rejected" := by
  rw [mayApprove, World.status]
  cases w.submissions.get id <;> simp

theorem mayReject_eq_true : mayReject id w = true ↔ w.status id ≠ some "auto_approved" := by
  rw [mayReject, World.status]
  cases w.submissions.get id <;> simp

end Store

theorem Decided.of_status (h : w'.status id = w.status id) : Decided id w w' :=
  ⟨fun hs => h ▸ hs, fun hs => h ▸ hs⟩

namespace Rewarded

theorem congr (h : Rewarded id w owned) (hs : w'.status id = w.status id) (he : w'.events = w.events) :
    Rewarded id w' owned where
  once   := by
    rw [World.rewards, he, hs]
    exact h.once
  closed := by
    rw [he, hs]
    exact h.closed
  final  := by
    rw [he]
    exact h.final

-- An event that is neither a credit nor a rejection.
theorem record {e : Event} (h : Rewarded id w owned) (hr : e.rewards id = false)
    (hn : e ≠ .rejected id) : Rewarded id (w.record e) owned where
  once   := by
    rw [World.rewards, World.record, List.countP_cons_of_neg (by simp [hr])]
    exact h.once
  closed := by
    intro hm
    exact h.closed ((List.mem_cons.mp hm).resolve_left hn.symm)
  final  := by
    rw [World.record, rewardedAfterRejection, hr, h.final]
    rfl

-- Nothing is owned before an approval.
theorem unrewarded (h : Rewarded id w owned) (hs : w.status id ≠ some "auto_approved") :
    w.rewards id = 0 ∧ owned = 0 := by
  have hle := h.once
  rw [if_neg hs] at hle
  omega

theorem approve (h : Rewarded id w owned) (hg : mayApprove id w = true)
    (hs : w'.status id = some "auto_approved") (he : w'.events = w.events) :
    Rewarded id w' (1 + owned) := by
  obtain ⟨status, hst, ha, hr⟩ := mayApprove_eq_true.mp hg
  obtain ⟨hz, ho⟩ := h.unrewarded (by simpa [hst] using ha)
  refine { once := ?once, closed := ?closed, final := ?final }
  case once =>
    rw [World.rewards, he, if_pos hs, ho]
    rw [World.rewards] at hz
    omega
  case closed =>
    rw [he]
    intro hm
    have hc := h.closed hm
    rw [hst] at hc
    exact absurd (Option.some.inj hc) hr
  case final =>
    rw [he]
    exact h.final

theorem reward (h : Rewarded id w (1 + owned)) (hs : w'.status id = w.status id)
    (he : w'.events = .rewarded id campaign amount :: w.events) : Rewarded id w' owned := by
  have hst : w.status id = some "auto_approved" := by
    by_contra hn
    have ho := (h.unrewarded hn).2
    omega
  have hn : .rejected id ∉ w.events := by
    intro hm
    have hc := h.closed hm
    simp [hst] at hc
  refine { once := ?once, closed := ?closed, final := ?final }
  case once =>
    have hle := h.once
    rw [World.rewards, he, hs, List.countP_cons_of_pos (by simp [Event.rewards])]
    rw [World.rewards] at hle
    omega
  case closed =>
    rw [he]
    intro hm
    exact absurd ((List.mem_cons.mp hm).resolve_left (by simp)) hn
  case final => simp [he, rewardedAfterRejection, hn, h.final]

theorem reject (h : Rewarded id w owned) (hg : mayReject id w = true)
    (hs : w'.status id = some "rejected") (he : w'.events = .rejected id :: w.events) :
    Rewarded id w' owned := by
  obtain ⟨hz, ho⟩ := h.unrewarded (mayReject_eq_true.mp hg)
  refine { once := ?once, closed := fun _ => hs, final := ?final }
  case once =>
    rw [World.rewards, he, List.countP_cons_of_neg (by simp [Event.rewards]), ho]
    exact hz.le.trans (Nat.zero_le _)
  case final => simp [he, rewardedAfterRejection, Event.rewards, h.final]

-- A review that ends without an approval.
theorem refuse (h : Rewarded id w owned) (hg : mayReject id w = true)
    (hs : w'.status id = w.status id ∨ w'.status id = some "rejected") (he : w'.events = w.events) :
    Rewarded id w' owned := by
  obtain ⟨hz, ho⟩ := h.unrewarded (mayReject_eq_true.mp hg)
  refine { once := ?once, closed := ?closed, final := ?final }
  case once =>
    rw [World.rewards, he, ho]
    exact hz.le.trans (Nat.zero_le _)
  case closed =>
    rw [he]
    intro hm
    cases hs with
    | inl hs => exact hs.trans (h.closed hm)
    | inr hs => exact hs
  case final =>
    rw [he]
    exact h.final

theorem weaken {n : ℕ} (h : Rewarded id w (n + owned)) : Rewarded id w owned where
  once   := (Nat.add_le_add_left (Nat.le_add_left owned n) _).trans h.once
  closed := h.closed
  final  := h.final

-- The approval of some submission, and the credit for it.
theorem approve_any (h : Rewarded id w owned) (hg : mayApprove id' w = true)
    (hf : ∀ s, w.submissions.get id' = some s → (f s).status = "auto_approved") :
    Rewarded id (w.updateSubmission id' f) ((if id' = id then 1 else 0) + owned) ∧
      Decided id w (w.updateSubmission id' f) := by
  by_cases heq : id' = id
  case neg =>
    have hs := status_updateSubmission_ne (w := w) (f := f) (Ne.symm heq)
    rw [if_neg heq, zero_add]
    exact ⟨h.congr hs events_updateSubmission, .of_status hs⟩
  case pos =>
    subst heq
    obtain ⟨status, hst, _, hr⟩ := mayApprove_eq_true.mp hg
    have hs : (w.updateSubmission id' f).status id' = some "auto_approved" := by
      rw [status_updateSubmission]
      cases hget : w.submissions.get id' with
      | none   => simp [World.status, hget] at hst
      | some s => rw [Option.map_some, hf s hget]
    rw [if_pos rfl]
    refine ⟨h.approve hg hs events_updateSubmission, ?_, ?_⟩
    case refine_1 =>
      intro _
      rw [hs]
      rfl
    case refine_2 =>
      intro hrej
      rw [hst] at hrej
      exact absurd (Option.some.inj hrej) hr

theorem reward_any (h : Rewarded id w ((if id' = id then 1 else 0) + owned))
    (hs : w'.status id = w.status id) (he : w'.events = .rewarded id' campaign amount :: w.events) :
    Rewarded id w' owned := by
  by_cases heq : id' = id
  case pos =>
    subst heq
    rw [if_pos rfl] at h
    exact h.reward hs he
  case neg =>
    rw [if_neg heq, zero_add] at h
    exact (h.record (e := .rewarded id' campaign amount) (by simp [Event.rewards, heq]) (by simp)).congr
      hs he

theorem charge (h : Rewarded id w owned) : Rewarded id (w.chargeCampaign id' amount) owned ∧
    Decided id w (w.chargeCampaign id' amount) := by
  obtain ⟨campaigns, hw⟩ := chargeCampaign_eq id' amount w
  have h' : Rewarded id { w with campaigns } owned := h.congr rfl rfl
  rw [hw]
  exact ⟨h'.record rfl (by simp), .of_status rfl⟩

theorem save_status (s : TaskSubmission) (task : Doc) :
    (task.save s).status = s.status ∨ (task.save s).status = task.current.status := by
  change task.written (·.status) s = _ ∨ task.written (·.status) s = _
  rw [Doc.written]
  split
  case isTrue => exact .inl rfl
  case isFalse => exact .inr rfl

theorem settle {task : Doc} {approved : Bool} (h : Rewarded id w owned)
    (ha : task.current.status = if approved then "auto_approved" else "rejected")
    (hg : outcomeGuard (.settling id' task amount) w) :
    Rewarded id (commitSettlement cfg id' task approved amount w) owned ∧
      Decided id w (commitSettlement cfg id' task approved amount w) := by
  cases approved with
  | false =>
    simp only [Bool.false_eq_true, if_false] at ha
    simp only [outcomeGuard, ha, String.reduceEq, if_false] at hg
    obtain ⟨users, reviewers, hw⟩ := commitSettlement_rejected cfg id' task amount w
    rw [hw]
    by_cases heq : id = id'
    case neg =>
      have hs := status_updateSubmission_ne (w := w) (f := task.save) heq
      exact ⟨h.congr hs events_updateSubmission, .of_status hs⟩
    case pos =>
      subst heq
      have hs : (w.updateSubmission id task.save).status id = w.status id ∨
          (w.updateSubmission id task.save).status id = some "rejected" := by
        rw [status_updateSubmission, World.status]
        cases hget : w.submissions.get id with
        | none   => exact .inl rfl
        | some s => simpa [ha] using save_status s task
      refine ⟨h.refuse hg hs events_updateSubmission, ?_, ?_⟩
      case refine_1 =>
        intro hst
        cases hs with
        | inl hs => exact hs ▸ hst
        | inr hs => exact hs ▸ rfl
      case refine_2 =>
        intro hst
        cases hs with
        | inl hs => exact hs.trans hst
        | inr hs => exact hs
  | true =>
    simp only [if_true] at ha
    simp only [outcomeGuard, ha, if_true] at hg
    obtain ⟨hmay, hdirty⟩ := hg
    obtain ⟨w₁, w₂, users, reviewers, hw₁, hw₂, hw⟩ := commitSettlement_approved cfg id' task amount w
    have hf : ∀ s, w.submissions.get id' = some s → (task.save s).status = "auto_approved" := by
      intro s _
      change task.written (·.status) s = _
      rw [Doc.written, ha, if_neg (Ne.symm hdirty)]
    obtain ⟨happrove, hdecided⟩ := h.approve_any hmay hf
    have h₁ : Rewarded id w₁ owned ∧ w₁.status id = (w.updateSubmission id' task.save).status id := by
      rw [hw₁]
      split_ifs
      case neg => exact ⟨happrove.weaken, rfl⟩
      case pos =>
        obtain ⟨users, transactions, hr⟩ := reward_eq id' task.current.rewardCurrency task.current amount
          (w.updateSubmission id' task.save)
        rw [hr]
        exact ⟨happrove.reward_any rfl rfl, rfl⟩
    have h₂ : Rewarded id w₂ owned ∧ w₂.status id = w₁.status id := by
      rw [hw₂]
      cases task.current.campaignId with
      | none            => exact ⟨h₁.1, rfl⟩
      | some campaignId =>
        obtain ⟨campaigns, hc⟩ := chargeCampaign_eq campaignId amount w₁
        refine ⟨h₁.1.charge.1, ?_⟩
        change (w₁.chargeCampaign campaignId amount).status id = _
        rw [hc]
        rfl
    have hs : World.status id { w₂ with users, reviewers } =
        (w.updateSubmission id' task.save).status id := h₂.2.trans h₁.2
    rw [hw]
    exact ⟨h₂.1.congr rfl rfl, ⟨fun hst => hs ▸ hdecided.stored hst, fun hst =>
      hs.trans (hdecided.rejected hst)⟩⟩

theorem review {label : Label} {update : World → World} (h : Rewarded id w owned)
    (he : ReviewEffect cfg label update) (hg : outcomeGuard label w) :
    Rewarded id (update w) owned ∧ Decided id w (update w) := by
  cases he with
  | silent => exact ⟨h, .of_status rfl⟩
  | reviewers hw =>
    obtain ⟨reviewers, hw⟩ := hw w
    rw [hw]
    exact ⟨h.congr rfl rfl, .of_status rfl⟩
  | @saveVote id' task hst =>
    have hs : (w.updateSubmission id' task.save).status id = w.status id := by
      by_cases heq : id = id'
      case neg => exact status_updateSubmission_ne heq
      case pos =>
        subst heq
        rw [status_updateSubmission, World.status]
        cases w.submissions.get id with
        | none   => rfl
        | some s =>
          change some (task.written (·.status) s) = _
          rw [Doc.written, if_pos hst]
          rfl
    exact ⟨h.congr hs events_updateSubmission, .of_status hs⟩
  | settle ha   => exact h.settle ha hg
  | acknowledge => exact ⟨h.record rfl (by simp), .of_status rfl⟩

end Rewarded

section Handlers

variable {rewardAmount : ℚ}

theorem approve_handles {commits : Bool} :
    (rewardContract id).Handles (Mines.approve id' rewardAmount commits) w 0 := by
  apply Contract.Safe.read
  intro w₁ _ _
  cases w₁.submissions.get id' with
  | none => exact Contract.Handles.done
  | some stored =>
    apply Contract.Safe.read
    intro w₂ _ _
    apply Contract.Safe.write
    intro w₃ _ hg others h
    rw [zero_add] at h
    refine ⟨if id' = id then 1 else 0, ?_⟩
    rw [← and_assoc]
    refine ⟨h.approve_any hg fun _ _ => rfl, ?_⟩
    apply Contract.Safe.ite
    case hp =>
      intro _
      apply Contract.Safe.write
      intro w₄ _ _ others h
      exact ⟨0, by rw [zero_add]; exact h.weaken, .of_status rfl, rfl⟩
    case hq =>
      intro _
      apply Contract.Safe.write
      intro w₄ _ _ others h
      obtain ⟨users, transactions, hr⟩ := reward_eq id' "MLPTS" stored _ w₄
      refine ⟨0, ?_, ?_, ?_⟩
      case refine_1 =>
        rw [zero_add, hr]
        exact h.reward_any rfl rfl
      case refine_2 =>
        rw [hr]
        exact .of_status rfl
      case refine_3 =>
        split
        case h_1 => exact Contract.Handles.done
        case h_2 =>
          apply Contract.Handles.write
          intro w₅ _ _ others h
          rw [zero_add] at h
          exact h.charge

theorem panelApprove_handles :
    (rewardContract id).Handles (Mines.panelApprove id' rewardAmount) w 0 := by
  apply Contract.Safe.read
  intro w₁ _ _
  cases w₁.submissions.get id' with
  | none => exact Contract.Handles.done
  | some stored =>
    apply Contract.Safe.write
    intro w₂ _ hg others h
    rw [zero_add] at h
    refine ⟨if id' = id then 1 else 0, ?_⟩
    rw [← and_assoc]
    refine ⟨h.approve_any hg fun _ _ => rfl, ?_⟩
    apply Contract.Safe.write
    intro w₃ _ _ others h
    refine ⟨0, ?_, .of_status rfl, ?_⟩
    case refine_1 =>
      rw [zero_add]
      exact h.reward_any rfl rfl
    case refine_2 =>
      split
      case h_1 => exact Contract.Handles.done
      case h_2 =>
        apply Contract.Handles.write
        intro w₄ _ _ others h
        rw [zero_add] at h
        exact h.charge

-- The rejection of some submission that is there.
theorem Rewarded.reject_any (h : Rewarded id w owned) (hg : mayReject id' w = true)
    (hs : id = id' → (w.updateSubmission id' f).status id' = some "rejected") :
    Rewarded id ((w.updateSubmission id' f).record (.rejected id')) owned ∧
      Decided id w ((w.updateSubmission id' f).record (.rejected id')) := by
  by_cases heq : id = id'
  case neg =>
    have hst := status_updateSubmission_ne (w := w) (f := f) heq
    have h' : Rewarded id (w.updateSubmission id' f) owned := h.congr hst events_updateSubmission
    exact ⟨h'.record rfl (by simpa using Ne.symm heq), .of_status hst⟩
  case pos =>
    subst heq
    have hst : ((w.updateSubmission id f).record (.rejected id)).status id = some "rejected" := hs rfl
    refine ⟨h.reject hg hst ?_, ?_, ?_⟩
    case refine_1 => rw [World.record, events_updateSubmission]
    case refine_2 =>
      intro _
      rw [hst]
      rfl
    case refine_3 => exact fun _ => hst

theorem reject_handles : (rewardContract id).Handles (Mines.reject id') w 0 := by
  apply Contract.Handles.write
  intro w₁ _ hg others h
  rw [zero_add] at h
  cases hget : w₁.submissions.get id' with
  | none   => exact ⟨h, .of_status rfl⟩
  | some s =>
    apply h.reject_any hg
    intro _
    rw [status_updateSubmission, hget]
    rfl

theorem finalReject_handles : (rewardContract id).Handles (Mines.finalReject id') w 0 := by
  apply Contract.Safe.read
  intro w₁ _ _
  cases hget₁ : w₁.submissions.get id' with
  | none => exact Contract.Handles.done
  | some stored =>
    apply Contract.Handles.write
    intro w₂ hd hg others h
    rw [zero_add] at h
    apply h.reject_any hg
    intro heq
    subst heq
    rw [status_updateSubmission]
    cases hget₂ : w₂.submissions.get id with
    | none =>
      have hs := hd.stored (by simp [World.status, hget₁])
      simp [World.status, hget₂] at hs
    | some s =>
      change some (if "rejected" = stored.status then s.status else "rejected") = some "rejected"
      -- What was rejected when it was read is still rejected.
      split_ifs with hr
      case neg => rfl
      case pos =>
        have hs := hd.rejected (by simp [World.status, hget₁, hr])
        simpa [World.status, hget₂] using hs

theorem handles (cfg : Config) (id : String) (request : ReviewRequest) (w : World) :
    (rewardContract id).Handles (request.handler cfg) w 0 := by
  cases request with
  | vote id' userId v now audited attempts =>
    apply Contract.Handles.of_steps (P := ReviewEffect cfg) vote_steps
    intro label update w own he hg h
    exact h.review he hg
  | myAssigned userId candidates now =>
    apply Contract.Handles.of_steps (P := ReviewEffect cfg) myAssigned_steps
    intro label update w own he hg h
    exact h.review he hg
  | finalReject id' => exact finalReject_handles
  | approve id' rewardAmount commits => exact approve_handles
  | reject id' => exact reject_handles
  | panelApprove id' rewardAmount => exact panelApprove_handles

end Handlers

def rewardSystem (cfg : Config) : TransitionSystem (Pool Label World) (Action ReviewRequest) :=
  system (fun w => w.events = []) (ReviewRequest.handler cfg)

instance : (label : Label) → (w : World) → Decidable (outcomeGuard label w)
  | .deciding _ true, _   => inferInstanceAs (Decidable (_ = true))
  | .deciding _ false, _  => inferInstanceAs (Decidable (_ = true))
  | .settling id task _, w => inferInstanceAs (Decidable (if task.current.status = "auto_approved" then
      mayApprove id w = true ∧ task.loaded.status ≠ "auto_approved" else mayReject id w = true))
  | .read, _ | .write, _ | .inserting _ _ _, _ | .updating _ _, _
  | .rewarding _ _, _ | .charging _ _, _ | .saveVote _ _, _ | .failing, _
  | .staking _ _, _ | .unstaking _ _ _ _, _ | .adjusting _ _, _ => .isTrue trivial

namespace Sample

def pending : World where
  users       := KVStore.empty.set "alice" {}
  submissions := KVStore.empty.set "first" { minerId := "alice", createdAt := 0, rewardAmount := 10 }

def decided (requests : List ReviewRequest) : Pool Label World :=
  Pool.execs (ReviewRequest.handler config) { store := pending, running := [] } (inTurn 5 requests)

end Sample

-- A miner is credited at most once for a submission, and not after an administrator has rejected it.
theorem rewarded_at_most_once (cfg : Config) (id : String) (p : Pool Label World)
    (h : (rewardSystem cfg).Run (fun p a => p.Meets outcomeGuard a) p) :
    p.store.rewards id ≤ 1 ∧ rewardedAfterRejection id p.store.events = false := by
  have hinv : (rewardSystem cfg).Invariant (fun p a => p.Meets (rewardContract id).guard a)
      fun p => ∃ owned, (rewardContract id).Holds p owned :=
    Contract.invariant_of_handles ?init (handles cfg id)
  case init =>
    intro w he
    refine { once := ?once, closed := ?closed, final := ?final }
    case once =>
      rw [World.rewards, he]
      exact Nat.zero_le _
    case closed =>
      intro hm
      rw [he] at hm
      cases hm
    case final =>
      rw [he]
      rfl
  obtain ⟨owned, hp⟩ := hinv.holds h
  refine ⟨?_, hp.invariant.final⟩
  have hle := hp.invariant.once
  split_ifs at hle <;> omega

theorem sample_rewarded_at_most_once :
    (Sample.decided [.approve "first" 10 true, .finalReject "second"]).store.rewards "first" ≤ 1 ∧
      rewardedAfterRejection "first"
        (Sample.decided [.approve "first" 10 true, .finalReject "second"]).store.events = false :=
  rewarded_at_most_once Sample.config "first" _ (run_from rfl (by decide +kernel))

-- Two approvals of one submission, the second of them after its rejection.
theorem approved_twice :
    ¬∀ (cfg : Config) (id : String) (p : Pool Label World), (rewardSystem cfg).Reachable p →
      p.store.rewards id ≤ 1 ∧ rewardedAfterRejection id p.store.events = false := by
  intro h
  have hp := h Sample.config "first"
    (Sample.decided [.approve "first" 10 true, .reject "first", .approve "first" 10 true])
    (reachable_from rfl)
  have hn : ¬(Sample.decided [.approve "first" 10 true, .reject "first",
      .approve "first" 10 true]).store.rewards "first" ≤ 1 := by
    decide +kernel
  exact hn hp.1

end Mines
