import MallChain.Backend.Referrals
import MallChain.Lib.Zoom
import MallChain.Mines.System

-- The history of the wallets: all operations that write a row, and what they do to the balance.
namespace Mines.History

open Interleaving

-- What a user has earned by referrals, and how much of it was claimed.
structure Referral where
  referralEarnings : ℤ := 0
  referralClaimed  : ℤ := 0
  deriving DecidableEq, Repr

-- The collections of the routes, and the fields of the users that only referrals work with.
structure Store where
  world     : World
  referrals : KVStore String Referral := .empty

-- A step of a route, of the panel or not, and a row that its owner writes.
inductive Label
  | route (panel : Bool) (label : Mines.Label)
  | posting (row : WalletTransaction)
  | step

abbrev Handler := Prog Label Store

namespace Store

variable (s : Store)

def updateWorld (f : World → World) : Store :=
  { s with world := f s.world }

def referral (id : String) : Referral :=
  (s.referrals.get id).getD {}

-- An update of a user that is not there does nothing.
def updateReferral (id : String) (f : Referral → Referral) : Store :=
  match s.world.users.get id with
  | some _ => { s with referrals := s.referrals.set id (f (s.referral id)) }
  | none   => s

end Store

-- `POST /transactions`
def postTransaction (userId : String) (type : TransactionType) (amount : ℚ)
    (currency : Option String) : Handler Unit :=
  let row : WalletTransaction := { userId, type, amount, currency := currency.getD "MLPTS" }
  .write (.posting row) (·.updateWorld (·.addTransaction row))

-- The transaction of `POST /balance/credit`
def creditBalance (userId : String) (amount : ℚ) (w : World) : World :=
  match w.users.get userId with
  | none   => w
  | some _ => (w.incBalance userId amount).addTransaction {
      userId   := userId
      type     := .credit
      amount   := amount
      currency := "MLPTS"
    }

def balanceCredit (userId : String) (amount : ℚ) (commits : Bool) : Handler Unit := do
  if amount ≤ 0 then return
  if commits then .write .step (·.updateWorld (creditBalance userId amount))

-- The transaction of `POST /balance/deduct`
def deductBalance (userId : String) (amount : ℚ) (w : World) : World :=
  match w.users.get userId with
  | none      => w
  | some user =>
    if user.mlptsBalance ≥ amount then
      (w.incBalance userId (-amount)).addTransaction {
        userId   := userId
        type     := .debit
        amount   := amount
        currency := "MLPTS"
      }
    else w

def balanceDeduct (userId : String) (amount : ℚ) (commits : Bool) : Handler Unit := do
  if amount ≤ 0 then return
  if commits then .write .step (·.updateWorld (deductBalance userId amount))

-- A sign-up with the code of a referrer
def signUp (referrer : String) : Handler Unit :=
  .write .step (·.updateReferral referrer fun referral => { referral with
    referralEarnings := referral.referralEarnings + Referrals.referralSignupBonus })

-- The transaction of `POST /claim` of the referrals, after the user has been read
def commitClaim (userId : String) (read : Referral) (unclaimed : ℤ) (s : Store) : Store :=
  (s.updateReferral userId fun referral => { referral with
    referralClaimed := read.referralEarnings }).updateWorld fun w =>
      (w.incBalance userId unclaimed).addTransaction {
        userId   := userId
        type     := .credit
        amount   := unclaimed
        currency := "MLPTS"
      }

def claim (userId : String) (commits : Bool) : Handler Unit := do
  let some read ← .read .step fun s => (s.world.users.get userId).map fun _ => s.referral userId
    | return
  let unclaimed := read.referralEarnings - read.referralClaimed
  if unclaimed ≤ 0 then return
  if commits then .write .step (commitClaim userId read unclaimed)

inductive Request
  | route (request : Mines.Request)
  | postTransaction (userId : String) (type : TransactionType) (amount : ℚ) (currency : Option String)
  | balanceCredit (userId : String) (amount : ℚ) (commits : Bool)
  | balanceDeduct (userId : String) (amount : ℚ) (commits : Bool)
  | signUp (referrer : String)
  | claim (userId : String) (commits : Bool)

def isPanel : Mines.Request → Bool
  | .panelApprove _ _ => true
  | _                 => false

def Request.handler (cfg : Config) : Request → Handler Unit
  | route request                               =>
    (request.handler cfg).zoom (.route (isPanel request)) Store.world fun w s => { s with world := w }
  | postTransaction userId type amount currency => History.postTransaction userId type amount currency
  | balanceCredit userId amount commits         => History.balanceCredit userId amount commits
  | balanceDeduct userId amount commits         => History.balanceDeduct userId amount commits
  | signUp referrer                             => History.signUp referrer
  | claim userId commits                        => History.claim userId commits

def mlptsBalance (w : World) (id : String) : Option ℚ :=
  (w.users.get id).map (·.mlptsBalance)

def signed (t : WalletTransaction) : ℚ :=
  match t.type with
  | .credit => t.amount
  | .debit  => -t.amount

-- The balance of the user changes by the amount of the row.
def Accompanied (w w' : World) (t : WalletTransaction) : Prop :=
  t.amount = 0 ∧ mlptsBalance w' t.userId = mlptsBalance w t.userId ∨
    ∃ balance, mlptsBalance w t.userId = some balance ∧
      mlptsBalance w' t.userId = some (Binary64.add balance (signed t))

-- Something is promised of the credits of Mallpoints, and of all debits.
def Counts (t : WalletTransaction) : Prop :=
  t.type = .credit → t.currency = "MLPTS"

-- The rows that a step adds are accompanied by changes of the balances.
def Paired (w w' : World) : Prop :=
  ∃ rows, w'.transactions = rows ++ w.transactions ∧ ∀ t ∈ rows, Counts t → Accompanied w w' t

-- The panel rewards nothing, a miner who is rewarded is none of the reviewers, and the miner of a
-- submission is a user.
def routeGuard (panel : Bool) : Mines.Label → World → Prop
  | .rewarding _ amount, _     => panel = true → amount = 0
  | .settling _ task reward, _ => 0 < reward → task.current.rewardCurrency = "MLPTS" →
    task.current.minerId ∉ task.current.assignedValidators
  | .inserting _ row _, w      => (w.users.get row.minerId).isSome = true
  | .updating id update, w     =>
    (w.submissions.get id).all (fun s => (w.users.get (update s).minerId).isSome) = true
  | _, _                       => True

-- And the row that a user writes is neither a debit nor a credit of Mallpoints.
def guard : Label → Store → Prop
  | .route panel label, s => routeGuard panel label s.world
  | .posting row, _       => row.amount = 0 ∨ ¬Counts row
  | .step, _              => True

instance decidableRouteGuard (panel : Bool) : (label : Mines.Label) → (w : World) →
    Decidable (routeGuard panel label w)
  | .rewarding _ amount, _         => inferInstanceAs (Decidable (panel = true → amount = 0))
  | .settling _ task reward, _     => inferInstanceAs (Decidable (0 < reward →
      task.current.rewardCurrency = "MLPTS" → task.current.minerId ∉ task.current.assignedValidators))
  | .inserting _ row _, w          => inferInstanceAs (Decidable
      ((w.users.get row.minerId).isSome = true))
  | .updating id update, w         => inferInstanceAs (Decidable
      ((w.submissions.get id).all (fun s => (w.users.get (update s).minerId).isSome) = true))
  | .read, _ | .write, _ | .deciding _ _, _ | .charging _ _, _ | .saveVote _ _, _ | .failing, _
  | .staking _ _, _ | .unstaking _ _ _ _, _ | .adjusting _ _, _ => .isTrue trivial

instance decidableGuard : (label : Label) → (s : Store) → Decidable (guard label s)
  | .route panel label, s => inferInstanceAs (Decidable (routeGuard panel label s.world))
  | .posting row, _       => inferInstanceAs (Decidable (row.amount = 0 ∨ ¬(_ → _)))
  | .step, _              => .isTrue trivial

-- The users are the same at all times, and every miner is one of them.
structure Known (users : String → Bool) (w : World) : Prop where
  registered : ∀ id, (w.users.get id).isSome = users id
  miners     : ∀ id s, w.submissions.get id = some s → users s.minerId = true

-- No row is added, no user comes or goes, and every submission keeps its miner.
structure Frame (w w' : World) : Prop where
  rows   : w'.transactions = w.transactions
  users  : ∀ id, (w'.users.get id).isSome = (w.users.get id).isSome
  miners : ∀ id s', w'.submissions.get id = some s' →
    ∃ s, w.submissions.get id = some s ∧ s.minerId = s'.minerId

-- One row is added.
structure Wrote (t : WalletTransaction) (w w' : World) : Prop where
  rows    : w'.transactions = t :: w.transactions
  users   : ∀ id, (w'.users.get id).isSome = (w.users.get id).isSome
  miners  : ∀ id s', w'.submissions.get id = some s' →
    ∃ s, w.submissions.get id = some s ∧ s.minerId = s'.minerId
  balance : Counts t → Accompanied w w' t

-- A step of a route that keeps what is known, and the promise.
def Faithful (panel : Bool) (users : String → Bool) (label : Mines.Label) (update : World → World) :
    Prop :=
  ∀ w, Known users w → routeGuard panel label w → Known users (update w) ∧ Paired w (update w)

section World

variable {w w' w₁ w₂ : World} {users : String → Bool} {panel : Bool} {label : Mines.Label}
  {update : World → World} {t : WalletTransaction} {id : String} {amount : ℚ}

theorem Frame.of_eq (hr : w'.transactions = w.transactions) (hu : w'.users = w.users)
    (hs : w'.submissions = w.submissions) : Frame w w' where
  rows         := hr
  users id     := by rw [hu]
  miners _ s h := ⟨s, hs ▸ h, rfl⟩

theorem Frame.refl (w : World) : Frame w w :=
  .of_eq rfl rfl rfl

theorem Frame.trans (h : Frame w w₁) (h' : Frame w₁ w₂) : Frame w w₂ where
  rows           := h'.rows.trans h.rows
  users id       := (h'.users id).trans (h.users id)
  miners id s hs := by
    obtain ⟨s₁, hs₁, hm₁⟩ := h'.miners id s hs
    obtain ⟨s₀, hs₀, hm₀⟩ := h.miners id s₁ hs₁
    exact ⟨s₀, hs₀, hm₀.trans hm₁⟩

theorem Frame.known (h : Frame w w') (hk : Known users w) : Known users w' where
  registered id  := (h.users id).trans (hk.registered id)
  miners id s hs := by
    obtain ⟨s₀, hs₀, hm⟩ := h.miners id s hs
    rw [← hm]
    exact hk.miners id s₀ hs₀

theorem Frame.paired (h : Frame w w') : Paired w w' :=
  ⟨[], h.rows, fun _ ht => absurd ht List.not_mem_nil⟩

theorem Wrote.known (h : Wrote t w w') (hk : Known users w) : Known users w' where
  registered id  := (h.users id).trans (hk.registered id)
  miners id s hs := by
    obtain ⟨s₀, hs₀, hm⟩ := h.miners id s hs
    rw [← hm]
    exact hk.miners id s₀ hs₀

theorem Wrote.paired (h : Wrote t w w') : Paired w w' := by
  refine ⟨[t], h.rows, ?_⟩
  intro t' ht'
  rw [List.mem_singleton.mp ht']
  exact h.balance

-- Before the row is added, the balance of its user stays.
theorem Wrote.after (h : Wrote t w₁ w₂) (hf : Frame w w₁)
    (hb : mlptsBalance w₁ t.userId = mlptsBalance w t.userId) : Wrote t w w₂ where
  rows           := by rw [h.rows, hf.rows]
  users id       := (h.users id).trans (hf.users id)
  miners id s hs := by
    obtain ⟨s₁, hs₁, hm₁⟩ := h.miners id s hs
    obtain ⟨s₀, hs₀, hm₀⟩ := hf.miners id s₁ hs₁
    exact ⟨s₀, hs₀, hm₀.trans hm₁⟩
  balance hc     := by
    rw [Accompanied, ← hb]
    exact h.balance hc

theorem Wrote.before (h : Wrote t w w₁) (hf : Frame w₁ w₂)
    (hb : Counts t → mlptsBalance w₂ t.userId = mlptsBalance w₁ t.userId) : Wrote t w w₂ where
  rows           := by rw [hf.rows, h.rows]
  users id       := (hf.users id).trans (h.users id)
  miners id s hs := by
    obtain ⟨s₁, hs₁, hm₁⟩ := hf.miners id s hs
    obtain ⟨s₀, hs₀, hm₀⟩ := h.miners id s₁ hs₁
    exact ⟨s₀, hs₀, hm₀.trans hm₁⟩
  balance hc     := by
    rw [Accompanied, hb hc]
    exact h.balance hc

theorem Faithful.of_frame (h : ∀ w, Frame w (update w)) : Faithful panel users label update :=
  fun w hk _ => ⟨(h w).known hk, (h w).paired⟩

theorem Faithful.read : Faithful panel users label fun w => w :=
  .of_frame Frame.refl

theorem frame_updateUser {f : User → User} : Frame w (w.updateUser id f) := by
  rw [World.updateUser]
  cases hu : w.users.get id with
  | none => exact Frame.refl w
  | some user =>
    refine { rows := rfl, users := ?users, miners := fun _ s hs => ⟨s, hs, rfl⟩ }
    intro id'
    simp only [KVStore.get_set]
    split_ifs with heq
    case pos => rw [heq, hu]; rfl
    case neg => rfl

theorem frame_incBalance : Frame w (w.incBalance id amount) :=
  frame_updateUser

theorem mlptsBalance_incBalance : mlptsBalance (w.incBalance id amount) id =
    (mlptsBalance w id).map (Binary64.add · amount) := by
  rw [World.incBalance, World.updateUser, mlptsBalance, mlptsBalance]
  cases hu : w.users.get id with
  | none => rw [hu]; rfl
  | some user => simp only [KVStore.get_set_self, Option.map_some]

theorem mlptsBalance_incBalance_ne {id' : String} (hne : id' ≠ id) :
    mlptsBalance (w.incBalance id amount) id' = mlptsBalance w id' := by
  rw [World.incBalance, World.updateUser, mlptsBalance, mlptsBalance]
  cases w.users.get id with
  | none => rfl
  | some user => rw [KVStore.get_set_ne hne]

theorem frame_updateReviewer {f : MinesReviewer → MinesReviewer} : Frame w (w.updateReviewer id f) := by
  obtain ⟨reviewers, hr⟩ := updateReviewer_eq id f w
  rw [hr]
  exact .of_eq rfl rfl rfl

theorem frame_chargeCampaign : Frame w (w.chargeCampaign id amount) := by
  obtain ⟨campaigns, hc⟩ := chargeCampaign_eq id amount w
  rw [hc]
  exact .of_eq rfl rfl rfl

theorem frame_updateSubmission {f : TaskSubmission → TaskSubmission}
    (hf : ∀ s, (f s).minerId = s.minerId) : Frame w (w.updateSubmission id f) := by
  rw [World.updateSubmission]
  cases hs : w.submissions.get id with
  | none => exact Frame.refl w
  | some stored =>
    refine { rows := rfl, users := fun _ => rfl, miners := ?miners }
    intro id' s' hs'
    simp only [KVStore.get_set] at hs'
    split_ifs at hs' with heq
    case pos =>
      cases hs'
      exact ⟨stored, heq ▸ hs, (hf stored).symm⟩
    case neg => exact ⟨s', hs', rfl⟩

theorem frame_settleReviewer {cfg : Config} {votes : Votes} {approved : Bool} :
    Frame w (settleReviewer cfg votes approved w id) := by
  rw [settleReviewer]
  split
  case h_1 => exact frame_updateReviewer
  case h_2 =>
    split
    case isTrue =>
      split
      case h_1 => exact Frame.refl w
      case h_2 => exact frame_updateReviewer.trans frame_incBalance
    case isFalse => exact frame_updateReviewer

theorem mlptsBalance_settleReviewer {cfg : Config} {votes : Votes} {approved : Bool} {id' : String}
    (hne : id' ≠ id) :
    mlptsBalance (settleReviewer cfg votes approved w id) id' = mlptsBalance w id' := by
  have hreviewer : ∀ f, mlptsBalance (w.updateReviewer id f) id' = mlptsBalance w id' := by
    intro f
    obtain ⟨reviewers, hr⟩ := updateReviewer_eq id f w
    rw [hr]
    rfl
  rw [settleReviewer]
  split
  case h_1 => exact hreviewer _
  case h_2 =>
    split
    case isTrue =>
      split
      case h_1 => rfl
      case h_2 => rw [mlptsBalance_incBalance_ne hne, hreviewer]
    case isFalse => exact hreviewer _

theorem frame_settleReviewers {cfg : Config} {votes : Votes} {approved : Bool} {ids : List String} :
    Frame w (ids.foldl (settleReviewer cfg votes approved) w) := by
  induction ids generalizing w with
  | nil => exact Frame.refl w
  | cons id ids ih => exact frame_settleReviewer.trans ih

theorem mlptsBalance_settleReviewers {cfg : Config} {votes : Votes} {approved : Bool}
    {ids : List String} {id' : String} (h : id' ∉ ids) :
    mlptsBalance (ids.foldl (settleReviewer cfg votes approved) w) id' = mlptsBalance w id' := by
  induction ids generalizing w with
  | nil => rfl
  | cons id ids ih =>
    obtain ⟨hne, hids⟩ := not_or.mp (List.mem_cons.not.mp h)
    rw [List.foldl_cons, ih hids, mlptsBalance_settleReviewer hne]

-- A row with the balance of its user.
theorem wrote_incBalance (hu : (w.users.get t.userId).isSome = true) :
    Wrote t w ((w.addTransaction t).incBalance t.userId (signed t)) where
  rows         := frame_incBalance.rows
  users id     := frame_incBalance.users id
  miners       := frame_incBalance.miners
  balance _    := by
    obtain ⟨user, hget⟩ := Option.isSome_iff_exists.mp hu
    refine .inr ⟨user.mlptsBalance, ?_, ?_⟩
    case refine_1 => rw [mlptsBalance, hget, Option.map_some]
    case refine_2 =>
      rw [mlptsBalance_incBalance, mlptsBalance]
      change ((w.users.get t.userId).map _).map _ = _
      rw [hget, Option.map_some, Option.map_some]

theorem addTransaction_incBalance :
    (w.incBalance id amount).addTransaction t = (w.addTransaction t).incBalance id amount := by
  simp only [World.incBalance, World.updateUser, World.addTransaction]
  cases w.users.get id <;> rfl

theorem Faithful.of_wrote
    (h : ∀ w, Known users w → routeGuard panel label w → Frame w (update w) ∨ Wrote t w (update w)) :
    Faithful panel users label update := by
  intro w hk hg
  cases h w hk hg with
  | inl hframe => exact ⟨hframe.known hk, hframe.paired⟩
  | inr hwrote => exact ⟨hwrote.known hk, hwrote.paired⟩

-- A debit or a credit of a user who is there.
theorem wrote_addTransaction (hu : (w.users.get t.userId).isSome = true) :
    Wrote t w ((w.incBalance t.userId (signed t)).addTransaction t) := by
  rw [addTransaction_incBalance]
  exact wrote_incBalance hu

theorem fundCampaign_cases (userId id platform : String) (ratePerTask budget : ℚ) (w : World) :
    Frame w (fundCampaign userId id platform ratePerTask budget w) ∨
      Wrote ⟨userId, .debit, budget, "MLPTS"⟩ w
        (fundCampaign userId id platform ratePerTask budget w) := by
  rw [fundCampaign]
  split
  case h_2 => exact .inl (Frame.refl w)
  case h_1 user hu _ =>
    split_ifs
    case neg => exact .inl (Frame.refl w)
    case pos =>
      right
      have hwrote : Wrote ⟨userId, .debit, budget, "MLPTS"⟩ w _ :=
        wrote_addTransaction (by rw [hu, Option.isSome_some])
      exact hwrote.before (.of_eq rfl rfl rfl) fun _ => rfl

-- The miner is rewarded, if it is a user.
theorem wrote_reward {currency : String} {submission : TaskSubmission}
    (hu : (w.users.get submission.minerId).isSome = true) :
    Wrote ⟨submission.minerId, .credit, amount, currency⟩ w
      (reward id submission currency amount w) := by
  have hwrote : Wrote ⟨submission.minerId, .credit, amount, currency⟩ w _ := wrote_incBalance hu
  exact hwrote.before (.of_eq rfl rfl rfl) fun _ => rfl

theorem save_minerId (task : Doc) (s : TaskSubmission) : (task.save s).minerId = s.minerId :=
  rfl

-- What is left of a settlement when the miner has been rewarded.
theorem commitSettlement_eq (cfg : Config) (id : String) (task : Doc) (approved : Bool) (amount : ℚ)
    (w : World) : ∃ w₁ w₂,
      (w₁ = if approved = true ∧ amount > 0 then
        reward id task.current task.current.rewardCurrency amount (w.updateSubmission id task.save)
        else w.updateSubmission id task.save) ∧
      Frame w₁ w₂ ∧ w₂.users = w₁.users ∧ commitSettlement cfg id task approved amount w =
        task.current.assignedValidators.foldl (settleReviewer cfg task.votes approved) w₂ := by
  rw [commitSettlement]
  cases task.current.campaignId with
  | none => exact ⟨_, _, rfl, Frame.refl _, rfl, rfl⟩
  | some campaignId =>
    cases approved with
    | false => exact ⟨_, _, rfl, Frame.refl _, rfl, rfl⟩
    | true =>
      refine ⟨_, _, rfl, frame_chargeCampaign, ?_, rfl⟩
      obtain ⟨campaigns, hc⟩ := chargeCampaign_eq campaignId amount _
      rw [hc]
      rfl

theorem commitSettlement_cases {cfg : Config} {task : Doc} {approved : Bool}
    (hu : (w.users.get task.current.minerId).isSome = true)
    (hg : routeGuard panel (.settling id task amount) w) :
    Frame w (commitSettlement cfg id task approved amount w) ∨
      Wrote ⟨task.current.minerId, .credit, amount, task.current.rewardCurrency⟩ w
        (commitSettlement cfg id task approved amount w) := by
  have hsave : Frame w (w.updateSubmission id task.save) := frame_updateSubmission (save_minerId task)
  obtain ⟨w₁, w₂, hw₁, hframe, husers, hcommit⟩ := commitSettlement_eq cfg id task approved amount w
  rw [hcommit]
  split_ifs at hw₁ with happroved
  case neg =>
    left
    rw [hw₁] at hframe
    exact (hsave.trans hframe).trans frame_settleReviewers
  case pos =>
    right
    have hbalance : ∀ id', mlptsBalance (w.updateSubmission id task.save) id' = mlptsBalance w id' := by
      intro id'
      obtain ⟨submissions, hs⟩ := updateSubmission_eq id task.save w
      rw [hs]
      rfl
    have hreward :
        Wrote ⟨task.current.minerId, .credit, amount, task.current.rewardCurrency⟩ w w₁ := by
      rw [hw₁]
      apply (wrote_reward _).after hsave (hbalance _)
      rw [hsave.users]
      exact hu
    apply hreward.before (hframe.trans frame_settleReviewers)
    intro hcounts
    rw [mlptsBalance_settleReviewers (hg happroved.2 (hcounts rfl)), mlptsBalance, husers, mlptsBalance]

end World

section Programs

variable {cfg : Config} {users : String → Bool} {panel : Bool} {id userId : String}

theorem refreshReviewerStats_faithful :
    (refreshReviewerStats userId).Steps (Faithful panel users) := by
  apply Prog.Steps.bind (.read .read)
  intro reviewer
  split
  case h_1 => trivial
  case h_2 => exact .write (.of_frame fun _ => frame_updateReviewer)

theorem frame_countAssigned {picked : List String} {w : World} :
    Frame w (picked.foldl (fun w validatorId => w.updateReviewer validatorId fun reviewer =>
      { reviewer with tasksAssigned := reviewer.tasksAssigned + 1 }) w) := by
  obtain ⟨reviewers, hr⟩ := countAssigned_eq picked w
  rw [hr]
  exact .of_eq rfl rfl rfl

theorem autoAssignReviewers_faithful {task : Doc} {shuffled : List String} {now : ℤ} :
    (autoAssignReviewers id task shuffled now).Steps (Faithful panel users) := by
  apply Prog.Steps.bind (.read .read)
  intro pool
  refine .ite (fun _ => trivial) fun _ => ?_
  apply Prog.Steps.bind (.write (.of_frame fun _ => frame_updateSubmission (save_minerId _)))
  intro _
  exact .write (.of_frame fun _ => frame_countAssigned)

theorem campaignsCreate_faithful {platform activity : String} {multiplier budget : ℚ} :
    (campaignsCreate cfg userId id platform activity multiplier budget).Steps
      (Faithful panel users) := by
  rw [campaignsCreate]
  split
  case h_1 => trivial
  case h_2 =>
    refine .ite (fun _ => trivial) fun _ => ?_
    exact .write (.of_wrote fun w _ _ => fundCampaign_cases _ _ _ _ _ w)

-- The miner of a new submission is a user.
theorem insertSubmission_faithful {row : TaskSubmission} {now : ℤ} :
    Faithful panel users (.inserting id row now) (insertSubmission id row) := by
  intro w hk hg
  rw [insertSubmission]
  split_ifs
  case neg => exact ⟨hk, (Frame.refl w).paired⟩
  case pos =>
    refine ⟨{ hk with miners := ?miners }, [], rfl, fun _ ht => absurd ht List.not_mem_nil⟩
    intro id' s hs
    rw [KVStore.get_set] at hs
    split_ifs at hs
    case pos =>
      cases hs
      exact (hk.registered _).symm.trans hg
    case neg => exact hk.miners id' s hs

theorem submit_faithful {body : SubmissionBody} {now : ℤ} {shuffled : List String} :
    (submit cfg userId id body now shuffled).Steps (Faithful panel users) := by
  apply Prog.Steps.bind (.read .read)
  intro admitted
  refine .ite (fun _ => trivial) fun _ => ?_
  apply Prog.Steps.bind (.act insertSubmission_faithful)
  intro isNew
  exact .ite (fun _ => autoAssignReviewers_faithful) fun _ => trivial

theorem updateSubmission_faithful {f : TaskSubmission → TaskSubmission} :
    Faithful panel users (.updating id f) (·.updateSubmission id f) := by
  intro w hk hg
  rw [routeGuard] at hg
  simp only [World.updateSubmission]
  cases hs : w.submissions.get id with
  | none => exact ⟨hk, (Frame.refl w).paired⟩
  | some stored =>
    rw [hs, Option.all_some] at hg
    refine ⟨{ hk with miners := ?miners }, [], rfl, fun _ ht => absurd ht List.not_mem_nil⟩
    intro id' s hs'
    rw [KVStore.get_set] at hs'
    split_ifs at hs'
    case pos =>
      cases hs'
      exact (hk.registered _).symm.trans hg
    case neg => exact hk.miners id' s hs'

theorem update_faithful {body : SubmissionBody} :
    (Mines.update userId id body).Steps (Faithful panel users) := by
  apply Prog.Steps.bind (.read .read)
  intro stored
  split
  case h_2 => trivial
  case h_1 stored =>
    refine .ite (fun _ => trivial) fun _ => ?_
    exact .write updateSubmission_faithful

theorem decide_faithful {approved : Bool} {f : TaskSubmission → TaskSubmission}
    (hf : ∀ s, (f s).minerId = s.minerId) :
    Faithful panel users (.deciding id approved) (·.updateSubmission id f) :=
  .of_frame fun _ => frame_updateSubmission hf

theorem finalReject_faithful : (finalReject id).Steps (Faithful panel users) := by
  apply Prog.Steps.bind (.read .read)
  intro stored
  split
  case h_2 => trivial
  case h_1 stored =>
    refine .write (.of_frame fun w => ?_)
    exact (frame_updateSubmission (save_minerId _)).trans (.of_eq rfl rfl rfl)

theorem reject_faithful : (reject id).Steps (Faithful panel users) := by
  refine .write (.of_frame fun w => ?_)
  split
  case h_1 => exact Frame.refl w
  case h_2 =>
    have hframe : Frame w (w.updateSubmission id fun s => { s with status := "rejected" }) :=
      frame_updateSubmission fun _ => rfl
    exact hframe.trans (.of_eq rfl rfl rfl)

theorem stake_faithful {amount : ℚ} {commits : Bool} :
    (Mines.stake userId amount commits).Steps (Faithful panel users) := by
  refine .ite (fun _ => trivial) fun _ => ?_
  refine .ite (fun _ => .write (.of_frame fun w => ?_)) fun _ => trivial
  rw [addStake]
  split
  case h_1 => exact Frame.refl w
  case h_2 =>
    split_ifs
    case neg => exact Frame.refl w
    case pos => exact frame_incBalance.trans (.of_eq rfl rfl rfl)

theorem unstake_faithful {amount : ℚ} {now : ℤ} {attempts : Attempts} :
    (Mines.unstake userId amount now attempts).Steps (Faithful panel users) := by
  apply Prog.Steps.bind (.read .read)
  intro reviewer
  split
  case h_2 => trivial
  case h_1 reviewer =>
    refine .ite (fun _ => trivial) fun _ => ?_
    apply Prog.Steps.bind (.read .read)
    intro pending
    refine .ite (fun _ => trivial) fun _ => ?_
    refine .ite (fun _ => trivial) fun _ => ?_
    exact .ite (fun _ => .write (.of_frame fun _ => frame_updateReviewer.trans frame_incBalance))
      fun _ => trivial

theorem adjust_faithful {amount : ℚ} : (adjust userId amount).Steps (Faithful panel users) := by
  refine .write (.of_frame fun w => ?_)
  split
  case h_1 => exact Frame.refl w
  case h_2 =>
    split_ifs
    case neg => exact Frame.refl w
    case pos => exact frame_incBalance.trans (.of_eq rfl rfl rfl)

theorem settle_faithful {task : Doc} {approved : Bool} {attempts : Attempts}
    (h : users task.current.minerId = true) :
    (settle cfg id task approved attempts).StepsIn (Known users) (Faithful panel users) := by
  refine .read_bind .read fun _ _ => ?_
  refine .ite (fun _ => ?commits) fun _ => ?_
  case commits =>
    refine .bind (.write (.of_wrote fun w hk hg => commitSettlement_cases ?miner hg)) fun _ => trivial
    case miner =>
      rw [hk.registered]
      split_ifs <;> exact h
  exact ⟨.read, fun _ _ => trivial⟩

theorem checkAndResolve_faithful {task : Doc} {now : ℤ} {attempts : Attempts}
    (h : users task.current.minerId = true) :
    (checkAndResolve cfg id task now attempts).StepsIn (Known users) (Faithful panel users) := by
  refine .ite (fun _ => trivial) fun _ => ?_
  split
  case h_1 => trivial
  case h_2 => exact .bind (settle_faithful h) fun _ => trivial

theorem vote_minerId (task : Doc) (v : String) (weight : ℚ) :
    (task.vote userId v weight).current.minerId = task.current.minerId := by
  rw [Doc.vote]
  split <;> rfl

theorem vote_faithful {v : String} {now : ℤ} {audited : Bool} {attempts : Attempts} :
    (vote cfg id userId v now audited attempts).StepsIn (Known users) (Faithful panel users) := by
  refine .ite (fun _ => trivial) fun _ => ?_
  refine .read_bind .read fun w hk => ?_
  split
  case h_2 => trivial
  case h_1 stored hs =>
    refine .ite (fun _ => trivial) fun _ => ?_
    refine .ite (fun _ => trivial) fun _ => ?_
    refine .ite (fun _ => trivial) fun _ => ?_
    refine .act_bind (.of_frame fun _ => .of_eq rfl rfl rfl) fun _ _ => ?_
    refine .bind refreshReviewerStats_faithful.stepsIn fun _ => ?_
    refine .bind (.write (.of_frame fun _ => frame_updateSubmission (save_minerId _))) fun _ => ?_
    refine .ite (fun _ => ⟨.read, fun _ _ => trivial⟩) fun _ => ?_
    refine .bind (checkAndResolve_faithful ?miner) fun resolution => ?_
    case miner =>
      rw [Doc.saved, vote_minerId]
      exact hk.miners id stored hs
    split
    case h_1 => trivial
    case h_2 => exact .write (.of_frame fun _ => .of_eq rfl rfl rfl)

theorem resolveAll_faithful {now : ℤ} : (tasks : List (String × Doc × Attempts)) →
    (∀ t ∈ tasks, users t.2.1.current.minerId = true) →
    (myAssigned.resolveAll cfg now tasks).StepsIn (Known users) (Faithful panel users)
  | [], _ => trivial
  | (id, task, attempts) :: tasks, h => by
    refine .bind (checkAndResolve_faithful (h _ List.mem_cons_self)) fun resolution => ?_
    split
    case h_1 => trivial
    case h_2 => exact resolveAll_faithful tasks fun t ht => h t (List.mem_cons_of_mem _ ht)

theorem myAssigned_faithful {candidates : List (String × Attempts)} {now : ℤ} :
    (myAssigned cfg userId candidates now).StepsIn (Known users) (Faithful panel users) := by
  refine .read_bind .read fun w hk => resolveAll_faithful _ ?_
  intro t ht
  obtain ⟨⟨id, attempts⟩, _, hfound⟩ := List.mem_filterMap.mp ht
  obtain ⟨stored, hs, hstored⟩ := Option.bind_eq_some_iff.mp hfound
  split_ifs at hstored
  cases hstored
  exact hk.miners id stored hs

theorem approve_faithful {rewardAmount : ℚ} {commits : Bool} :
    (approve id rewardAmount commits).StepsIn (Known users) (Faithful panel users) := by
  refine .read_bind .read fun w hk => ?_
  split
  case h_2 => trivial
  case h_1 stored hs =>
    refine .read_bind .read fun _ _ => ?_
    refine .bind (.write (decide_faithful fun _ => rfl)) fun _ => ?_
    refine .ite (fun _ => ⟨.read, fun _ _ => trivial⟩) fun _ => ?_
    refine .bind (.write (.of_wrote fun w hk' _ => .inr (wrote_reward ?miner))) fun _ => ?_
    case miner =>
      rw [hk'.registered]
      exact hk.miners id stored hs
    split
    case h_1 => trivial
    case h_2 => exact .write (.of_frame fun _ => frame_chargeCampaign)

-- The balance stays, so nothing may be rewarded.
theorem panelApprove_faithful {rewardAmount : ℚ} :
    (panelApprove id rewardAmount).Steps (Faithful true users) := by
  refine .bind (.read .read) fun stored => ?_
  split
  case h_2 => trivial
  case h_1 stored =>
    refine .bind (.write (decide_faithful fun _ => rfl)) fun _ => ?_
    let row : WalletTransaction := ⟨stored.minerId, .credit, rewardAmount, "MLPTS"⟩
    refine .bind (.write (.of_wrote (t := row) fun w _ hg => .inr ?row)) fun _ => ?_
    case row => exact {
      rows         := rfl
      users _      := rfl
      miners _ s h := ⟨s, h, rfl⟩
      balance _    := .inl ⟨hg rfl, rfl⟩
    }
    split
    case h_1 => trivial
    case h_2 => exact .write (.of_frame fun _ => frame_chargeCampaign)

theorem route_faithful (request : Mines.Request) : (request.handler cfg).StepsIn (Known users)
    (Faithful (isPanel request) users) := by
  cases request with
  | campaignsCreate userId id platform activity multiplier budget =>
    exact campaignsCreate_faithful.stepsIn
  | submit userId id body now shuffled => exact submit_faithful.stepsIn
  | update userId id body => exact update_faithful.stepsIn
  | vote id userId v now audited attempts => exact vote_faithful
  | myAssigned userId candidates now => exact myAssigned_faithful
  | finalReject id => exact finalReject_faithful.stepsIn
  | approve id rewardAmount commits => exact approve_faithful
  | reject id => exact reject_faithful.stepsIn
  | panelApprove id rewardAmount => exact panelApprove_faithful.stepsIn
  | stake userId amount commits => exact stake_faithful.stepsIn
  | unstake userId amount now attempts => exact unstake_faithful.stepsIn
  | adjust userId amount => exact adjust_faithful.stepsIn
  | refreshReviewerStats validatorId => exact refreshReviewerStats_faithful.stepsIn

-- A step of any operation that keeps what is known, and the promise.
def Keeping (users : String → Bool) (label : Label) (update : Store → Store) : Prop :=
  ∀ s, Known users s.world → guard label s →
    Known users (update s).world ∧ Paired s.world (update s).world

theorem Keeping.read : Keeping users .step fun s => s :=
  fun s hk _ => ⟨hk, (Frame.refl s.world).paired⟩

theorem Keeping.of_wrote {t : WalletTransaction} {f : World → World}
    (h : ∀ w, Known users w → Frame w (f w) ∨ Wrote t w (f w)) :
    Keeping users .step (·.updateWorld f) := by
  intro s hk _
  cases h s.world hk with
  | inl hframe => exact ⟨hframe.known hk, hframe.paired⟩
  | inr hwrote => exact ⟨hwrote.known hk, hwrote.paired⟩

theorem world_updateReferral {s : Store} {f : Referral → Referral} :
    (s.updateReferral id f).world = s.world := by
  rw [Store.updateReferral]
  split <;> rfl

theorem postTransaction_keeping {type : TransactionType} {amount : ℚ} {currency : Option String} :
    (postTransaction userId type amount currency).Steps (Keeping users) := by
  refine .write fun s hk hg => ?_
  refine ⟨{ hk with }, [_], rfl, ?_⟩
  intro t ht hcounts
  rw [List.mem_singleton.mp ht] at hcounts ⊢
  exact .inl ⟨hg.resolve_right fun hn => hn hcounts, rfl⟩

theorem creditBalance_cases (userId : String) (amount : ℚ) (w : World) :
    Frame w (creditBalance userId amount w) ∨
      Wrote ⟨userId, .credit, amount, "MLPTS"⟩ w (creditBalance userId amount w) := by
  rw [creditBalance]
  cases hu : w.users.get userId with
  | none => exact .inl (Frame.refl w)
  | some user =>
    have hthere : (w.users.get userId).isSome = true := by rw [hu, Option.isSome_some]
    exact .inr (wrote_addTransaction (t := ⟨userId, .credit, amount, "MLPTS"⟩) hthere)

theorem balanceCredit_keeping {amount : ℚ} {commits : Bool} :
    (balanceCredit userId amount commits).Steps (Keeping users) := by
  refine .ite (fun _ => trivial) fun _ => ?_
  exact .ite (fun _ => .write (.of_wrote fun w _ => creditBalance_cases userId amount w))
    fun _ => trivial

theorem deductBalance_cases (userId : String) (amount : ℚ) (w : World) :
    Frame w (deductBalance userId amount w) ∨
      Wrote ⟨userId, .debit, amount, "MLPTS"⟩ w (deductBalance userId amount w) := by
  rw [deductBalance]
  cases hu : w.users.get userId with
  | none => exact .inl (Frame.refl w)
  | some user =>
    dsimp only
    split_ifs
    case neg => exact .inl (Frame.refl w)
    case pos =>
      have hthere : (w.users.get userId).isSome = true := by rw [hu, Option.isSome_some]
      exact .inr (wrote_addTransaction (t := ⟨userId, .debit, amount, "MLPTS"⟩) hthere)

theorem balanceDeduct_keeping {amount : ℚ} {commits : Bool} :
    (balanceDeduct userId amount commits).Steps (Keeping users) := by
  refine .ite (fun _ => trivial) fun _ => ?_
  exact .ite (fun _ => .write (.of_wrote fun w _ => deductBalance_cases userId amount w))
    fun _ => trivial

theorem signUp_keeping : (signUp userId).Steps (Keeping users) := by
  refine .write fun s hk _ => ?_
  rw [world_updateReferral]
  exact ⟨hk, (Frame.refl s.world).paired⟩

-- A user who was read is still there.
theorem claim_keeping {commits : Bool} :
    (claim userId commits).StepsIn (fun s => Known users s.world) (Keeping users) := by
  refine .read_bind .read fun s₀ hk₀ => ?_
  split
  case h_2 => trivial
  case h_1 read hread =>
    obtain ⟨user, hu, _⟩ := Option.map_eq_some_iff.mp hread
    have huser : users userId = true := by rw [← hk₀.registered, hu, Option.isSome_some]
    refine .ite (fun _ => trivial) fun _ => ?_
    refine .ite (fun _ => .write fun s hk _ => ?_) fun _ => trivial
    have hthere : (s.world.users.get userId).isSome = true := by rw [hk.registered, huser]
    have hwrote : Wrote ⟨userId, .credit, (read.referralEarnings - read.referralClaimed : ℤ), "MLPTS"⟩
        s.world _ := wrote_addTransaction hthere
    rw [commitClaim, Store.updateWorld, world_updateReferral]
    exact ⟨hwrote.known hk, hwrote.paired⟩

theorem handler_keeping (cfg : Config) (request : Request) :
    (request.handler cfg).StepsIn (fun s => Known users s.world) (Keeping users) := by
  cases request with
  | route request =>
    apply (route_faithful request).zoom (fun s hs => hs)
    intro label update hupdate s hk hg
    exact hupdate s.world hk hg
  | postTransaction userId type amount currency => exact postTransaction_keeping.stepsIn
  | balanceCredit userId amount commits => exact balanceCredit_keeping.stepsIn
  | balanceDeduct userId amount commits => exact balanceDeduct_keeping.stepsIn
  | signUp referrer => exact signUp_keeping.stepsIn
  | claim userId commits => exact claim_keeping

end Programs

-- Any users, reviewers and campaigns, and no submissions or rows yet.
def Start (s : Store) : Prop :=
  s.world.submissions = .empty ∧ s.world.transactions = []

def historySystem (cfg : Config) : TransitionSystem (Pool Label Store) (Action Request) :=
  system Start (Request.handler cfg)

-- Every row that counts is written in the step that changes the balance of its user by its amount.
theorem rows_paired {cfg : Config} {p : Pool Label Store}
    (hp : (historySystem cfg).Run (fun p a => p.Meets guard a) p) {a : Action Request}
    (ha : p.Meets guard a) : Paired p.store.world (p.exec (Request.handler cfg) a).store.world := by
  have hI : (historySystem cfg).Invariant (fun p a => p.Meets guard a)
      fun p => ∃ users, Known users p.store.world ∧
        ∀ q ∈ p.running, q.StepsIn (fun s => Known users s.world) (Keeping users) :=
    invariant_of_stepsIn ?init (fun _ => handler_keeping cfg) fun _ _ _ s hu hg hk => (hu s hk hg).1
  case init =>
    intro s hs
    refine ⟨fun id => (s.world.users.get id).isSome, { registered := fun _ => rfl, miners := ?_ }⟩
    intro id submission h
    rw [hs.1] at h
    cases h
  obtain ⟨users, hk, hrunning⟩ := hI.holds hp
  have hexec : (p.exec (Request.handler cfg) a).store = p.store ∨ ∃ label update,
      Keeping users label update ∧ guard label p.store ∧
        (p.exec (Request.handler cfg) a).store = update p.store :=
    exec_store_in hrunning ha
  cases hexec with
  | inl hsame =>
    rw [hsame]
    exact (Frame.refl _).paired
  | inr hstep =>
    obtain ⟨label, update, hu, hg, hstore⟩ := hstep
    rw [hstore]
    exact (hu p.store hk hg).2

namespace Sample

-- Bob has Mallpoints, and Alice was referred to.
def members : Store where
  world := { users := (KVStore.empty.set "alice" {}).set "bob" { mlptsBalance := 100 } }

-- A campaign is funded, a submission is rewarded, and referrals are claimed.
def honest : List (Action Request) :=
  inTurn 5 [.route (.campaignsCreate "bob" "c" "x" "like" 1 50),
    .route (.submit "alice" "s" { named := [.campaignId (some "c")] } 0 []),
    .route (.approve "s" 2 true), .balanceDeduct "bob" 10 true,
    .postTransaction "alice" .credit 5 (some "KES"), .signUp "alice", .claim "alice" true]

-- All of it but the last step of the claim.
def beforeClaim : Pool Label Store :=
  Pool.execs (Request.handler Mines.Sample.config) { store := members, running := [] }
    (honest.take 38)

-- The panel approves a submission of Alice, and is about to write the row.
def approved : Pool Label Store :=
  Pool.execs (Request.handler Mines.Sample.config) { store := members, running := [] }
    (inTurn 5 [.route (.submit "alice" "s" {} 0 [])] ++
      [.start (.route (.panelApprove "s" 1000)), .run 1, .run 1])

end Sample

theorem sample_rows_paired : Paired Sample.beforeClaim.store.world
    (Sample.beforeClaim.exec (Request.handler Mines.Sample.config) (.run 6)).store.world :=
  rows_paired (run_from ⟨rfl, rfl⟩ (by decide +kernel)) (by decide +kernel)

-- The panel writes a credit of a miner who has no more Mallpoints than before.
theorem panel_credit_unpaired :
    ¬∀ (cfg : Config) (p : Pool Label Store), (historySystem cfg).Reachable p →
      ∀ a, Paired p.store.world (p.exec (Request.handler cfg) a).store.world := by
  intro h
  have hreachable : (historySystem Mines.Sample.config).Reachable Sample.approved :=
    reachable_from ⟨rfl, rfl⟩
  obtain ⟨rows, hrows, hpaired⟩ := h _ _ hreachable (.run 1)
  have hrow : rows = [⟨"alice", .credit, 1000, "MLPTS"⟩] := by
    rw [← List.append_nil rows]
    exact hrows.symm
  rw [hrow] at hpaired
  have haccompanied := hpaired _ List.mem_cons_self fun _ => rfl
  cases haccompanied with
  | inl hzero => exact absurd hzero.1 (by decide)
  | inr hadded =>
    obtain ⟨balance, hbefore, hafter⟩ := hadded
    have hsame : mlptsBalance Sample.approved.store.world "alice" = some 0 := by decide +kernel
    have hkept : mlptsBalance (Sample.approved.exec (Request.handler Mines.Sample.config)
        (.run 1)).store.world "alice" = some 0 := by
      decide +kernel
    rw [hsame] at hbefore
    cases hbefore
    rw [hkept] at hafter
    revert hafter
    decide +kernel

end Mines.History
