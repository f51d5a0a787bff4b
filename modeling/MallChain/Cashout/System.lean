import MallChain.Cashout.Admin
import MallChain.Cashout.Sell

namespace Cashout

open Interleaving

-- The requests to the routes, the callbacks of the provider, and the runs of the queue.
inductive Request
  | sell (req : SellRequest)
  | resign (saleId txBytes : String)
  | processQueued (reserveKes : ℚ) (outcome : String → Settlement)
  | callback (payoutRef : String) (resultCode : ℤ) (outcome : CallbackOutcome)
  | status (withdrawalId : String)
  | retry (withdrawalId : String) (payout : Payout.Environment)
  | resolve (withdrawalId : String) (outcome : Outcome)

def Request.handler (cfg : Config) : Request → Handler Unit
  | .sell req                              => Cashout.sell cfg req
  | .resign saleId txBytes                 => Cashout.resign saleId txBytes
  | .processQueued reserveKes outcome      => processQueuedWithdrawals cfg reserveKes outcome
  | .callback payoutRef resultCode outcome => handlePayoutCallback payoutRef resultCode outcome
  | .status withdrawalId                   => syncWithdrawalStatus withdrawalId
  | .retry withdrawalId payout             => Cashout.retry cfg.payout payout withdrawalId
  | .resolve withdrawalId outcome          => Cashout.resolve withdrawalId outcome

-- The withdrawals that a request pays or decides.
def Request.decides : Request → String → Prop
  | .sell req         => (· = req.withdrawalId)
  | .processQueued _ _ => fun _ => True
  | .retry id _       => (· = id)
  | .resolve id _     => (· = id)
  | _                 => fun _ => False

-- What one step of a callback does to the store after it has looked for its payout.
inductive CallbackEffect (payoutRef : String) (resultCode : ℤ) : Label → (World → World) → Prop
  | silent {label : Label} : CallbackEffect payoutRef resultCode label id
  | acknowledge :
    CallbackEffect payoutRef resultCode .write (·.record (.acknowledged payoutRef resultCode))
  | savePayout {saleId : String} (d : Document B2CPayout) :
    CallbackEffect payoutRef resultCode (.savingPayout saleId d) (·.updatePayout saleId (savePayoutOn d))
  | saveSale {saleId : String} (d : Document MallcoinSale) :
    CallbackEffect payoutRef resultCode (.savingSale .callback saleId d)
      (·.updateSale saleId (saveSaleOn d))
  | save {withdrawalId : String} (d : Document WithdrawalRequest) :
    CallbackEffect payoutRef resultCode (.savingWithdrawal .callback withdrawalId d)
      (·.updateWithdrawal withdrawalId (saveWithdrawalOn d))

-- A transaction may be accepted that was not accepted before.
inductive Accepts (withdrawalId txBytes : String) (w : World) : World → Prop
  | unchanged : Accepts withdrawalId txBytes w w
  | accepted : w.hasAccepted txBytes = false →
    Accepts withdrawalId txBytes w { w with accepted := (txBytes, withdrawalId) :: w.accepted }

theorem Accepts.only {withdrawalId txBytes : String} {w w' : World} :
    Accepts withdrawalId txBytes w w' → ∃ accepted, w' = { w with accepted }
  | .unchanged => ⟨_, rfl⟩
  | .accepted _ => ⟨_, rfl⟩

-- What one step of another request does to the store.
inductive Effect (D : String → Prop) : Label → (World → World) → Prop
  | silent {label : Label} : Effect D label id
  | accept {withdrawalId : String} {update : World → World} (txBytes : String) : D withdrawalId →
    (∀ w, Accepts withdrawalId txBytes w (update w)) → Effect D .write update
  | consume {reviewId : String} {f : WithdrawalAmlReview → WithdrawalAmlReview} :
    Effect D .write (·.updateReview reviewId f)
  | deliver {payoutRef : String} {resultCode : ℤ} :
    Effect D (.delivering payoutRef resultCode) (·.record (.delivered payoutRef resultCode))
  | createSale (req : SellRequest) :
    Effect D (.creatingSale req.saleId req.sale) (insertSale req.saleId req.sale)
  | saveSale {saver : Saver} {saleId : String} (d : Document MallcoinSale) :
    Effect D (.savingSale saver saleId d) (·.updateSale saleId (saveSaleOn d))
  | create (req : SellRequest) (phone : String) (estimatedKes : ℚ) (reviewId : Option String) :
    Effect D (.creating req.withdrawalId (req.withdrawal phone estimatedKes reviewId))
      (insertWithdrawal req.withdrawalId (req.withdrawal phone estimatedKes reviewId))
  | save {saver : Saver} {withdrawalId : String} (d : Document WithdrawalRequest) :
    Effect D (.savingWithdrawal saver withdrawalId d) (·.updateWithdrawal withdrawalId (saveWithdrawalOn d))
  | createPayout {saleId : String} {payout : B2CPayout} :
    Effect D (.creatingPayout saleId payout) (insertPayout saleId payout)
  | pay {withdrawalId : String} {pesaAmount : ℚ} {attempt : Payout.Attempt} : D withdrawalId →
    Effect D (.paying withdrawalId attempt) fun w =>
      if attempt.received then w.record (.paid withdrawalId (attemptRef attempt) pesaAmount) else w
  | find {withdrawalId : String} : D withdrawalId → Effect D (.deciding withdrawalId) (found withdrawalId)
  | decided {withdrawalId : String} : D withdrawalId → Effect D .write (·.decided withdrawalId)
  | saveDecision {saver : Saver} {withdrawalId : String} (d : Document WithdrawalRequest) : D withdrawalId →
    Effect D (.savingWithdrawal saver withdrawalId d) fun w =>
      (w.updateWithdrawal withdrawalId (saveWithdrawalOn d)).decided withdrawalId
  | saveResolve {withdrawalId : String} {outcome : Outcome} (d : Document WithdrawalRequest) :
    D withdrawalId → Effect D (.savingWithdrawal .resolve withdrawalId d) fun w =>
      ((w.updateWithdrawal withdrawalId (saveWithdrawalOn d)).decided withdrawalId).record
        (.resolved withdrawalId outcome)

variable {D : String → Prop}

theorem saveWithdrawal_steps {saver : Saver} {withdrawalId : String} {d : Document WithdrawalRequest} :
    (saveWithdrawal saver withdrawalId d).Steps (Effect D) :=
  .write (.save d)

theorem saveSale_steps {saver : Saver} {saleId : String} {d : Document MallcoinSale} :
    (saveSale saver saleId d).Steps (Effect D) :=
  .write (.saveSale d)

theorem postEach_steps {withdrawalId : String} {pesaAmount : ℚ} {attempts : List Payout.Attempt}
    (h : D withdrawalId) : (postEach withdrawalId pesaAmount attempts).Steps (Effect D) := by
  induction attempts with
  | nil => trivial
  | cons attempt attempts ih => exact .bind (.write (.pay h)) fun _ => ih

theorem initiateB2CPayout_steps {cfg : Payout.Config} {env : Payout.Environment} {withdrawalId : String}
    {mlcnsAmount : ℚ} (h : D withdrawalId) :
    (initiateB2CPayout cfg env withdrawalId mlcnsAmount).Steps (Effect D) := by
  rw [initiateB2CPayout]
  split
  case h_1 => trivial
  case h_2 => exact .bind (postEach_steps h) fun _ => trivial

section Settlement

variable {cfg : Config} {o : Settlement} {saleId withdrawalId txBytes : String}
  {sale : Document MallcoinSale} {withdrawal : Document WithdrawalRequest}

theorem failPayout_steps : (failPayout withdrawalId withdrawal).Steps (Effect D) :=
  .bind saveWithdrawal_steps fun _ => trivial

theorem finishPayout_steps : (finishPayout withdrawalId withdrawal o).Steps (Effect D) := by
  refine .ite (fun _ => failPayout_steps) fun _ => ?_
  refine .bind saveWithdrawal_steps fun _ => ?_
  exact .ite (fun _ => failPayout_steps) fun _ => trivial

theorem settlePayout_steps {txHash : Option String} (h : D withdrawalId) :
    (settlePayout cfg o saleId withdrawalId withdrawal txHash).Steps (Effect D) := by
  refine .bind (initiateB2CPayout_steps h) fun result => ?_
  split
  case h_1 =>
    refine .ite (fun _ => failPayout_steps) fun _ => ?_
    refine .act_bind .createPayout fun w => ?_
    exact .ite (fun _ => failPayout_steps) fun _ => finishPayout_steps
  case h_2 => exact failPayout_steps
  case h_3 => exact finishPayout_steps

theorem endSettlement_steps {saleStatus : SaleStatus} {status : WithdrawalStatus} :
    (endSettlement saleId withdrawalId sale withdrawal saleStatus status).Steps (Effect D) :=
  .bind saveWithdrawal_steps fun _ => saveSale_steps

theorem broadcastSignedTx_steps {outcome : Broadcast} (h : D withdrawalId) :
    (broadcastSignedTx withdrawalId txBytes outcome).Steps (Effect D) := by
  refine .act (.accept txBytes h fun w => ?_)
  cases outcome with
  | ok txHash =>
    dsimp only
    split_ifs with hn
    case pos => exact .unchanged
    case neg => exact .accepted (Bool.eq_false_of_not_eq_true hn)
  | sequenceMismatch => exact .unchanged
  | failed => exact .unchanged

theorem executeSellSettlement_steps (h : D withdrawalId) :
    (executeSellSettlement cfg o saleId withdrawalId sale withdrawal txBytes).Steps (Effect D) := by
  refine .ite (fun _ => .bind endSettlement_steps fun _ => trivial) fun _ => ?_
  refine .bind (broadcastSignedTx_steps h) fun broadcast => ?_
  cases broadcast with
  | failed => exact .bind endSettlement_steps fun _ => trivial
  | sequenceMismatch => exact .bind endSettlement_steps fun _ => trivial
  | ok txHash =>
    refine .bind saveWithdrawal_steps fun _ => ?_
    refine .bind saveSale_steps fun _ => ?_
    exact .bind (settlePayout_steps h) fun _ => trivial

theorem holdForLiquidity_steps {now : ℤ} :
    (holdForLiquidity saleId withdrawalId txBytes now sale withdrawal).Steps (Effect D) :=
  .bind saveSale_steps fun _ => saveWithdrawal_steps

end Settlement

section Requests

variable {cfg : Config}

theorem sell_steps {req : SellRequest} (h : D req.withdrawalId) : (sell cfg req).Steps (Effect D) := by
  refine .ite (fun _ => trivial) fun _ => ?_
  split
  case h_1 => trivial
  case h_2 =>
    refine .ite (fun _ => trivial) fun _ => ?_
    refine .bind (.read .silent) fun count => ?_
    refine .ite (fun _ => trivial) fun _ => ?_
    refine .bind (.ite (fun _ => trivial) fun _ => .bind (.read .silent) fun _ => trivial) fun review => ?_
    split
    case h_2 => trivial
    case h_1 =>
      refine .act_bind (.createSale req) fun w => ?_
      refine .ite (fun _ => trivial) fun _ => ?_
      split
      case h_1 => trivial
      case h_2 phone _ =>
        refine .act_bind (.create req phone _ _) fun w => ?_
        refine .ite (fun _ => trivial) fun _ => ?_
        refine .bind ?_ fun _ => ?_
        · unfold consumeReview
          split
          case h_1 => trivial
          case h_2 => exact .write .consume
        · refine .ite (fun _ => holdForLiquidity_steps) fun _ => ?_
          exact .bind (executeSellSettlement_steps h) fun _ => trivial

theorem releaseQueuedWithdrawal_steps {o : Settlement} {withdrawalId : String}
    {withdrawal : WithdrawalRequest} (h : D withdrawalId) :
    (releaseQueuedWithdrawal cfg o withdrawalId withdrawal).Steps (Effect D) := by
  rw [releaseQueuedWithdrawal]
  split
  case h_2 => trivial
  case h_1 saleId =>
    refine .bind (.read .silent) fun stored => ?_
    split
    case h_2 => trivial
    case h_1 sale =>
      split
      case h_2 => trivial
      case h_1 txBytes =>
        refine .bind (executeSellSettlement_steps h) fun result => ?_
        split <;> trivial

theorem releaseEach_steps {outcome : String → Settlement} {reserveKes : ℚ}
    {l : List (String × WithdrawalRequest)} (h : ∀ withdrawalId, D withdrawalId) :
    (releaseEach cfg outcome reserveKes l).Steps (Effect D) := by
  induction l generalizing reserveKes with
  | nil => trivial
  | cons e rest ih =>
    refine .ite (fun _ => trivial) fun _ => ?_
    refine .bind (releaseQueuedWithdrawal_steps (h _)) fun result => ?_
    split
    case h_1 => exact ih
    case h_2 => exact ih

theorem resign_steps {saleId txBytes : String} : (resign saleId txBytes).Steps (Effect D) := by
  refine .ite (fun _ => trivial) fun _ => ?_
  refine .bind (.read .silent) fun stored => ?_
  split
  case h_2 => trivial
  case h_1 sale =>
    refine .bind (.read .silent) fun found => ?_
    split
    case h_2 => trivial
    case h_1 withdrawalId withdrawal =>
      refine .ite (fun _ => trivial) fun _ => ?_
      exact .bind saveSale_steps fun _ => saveWithdrawal_steps

section Callback

variable {payoutRef saleId : String} {resultCode : ℤ} {outcome : CallbackOutcome}

theorem recordSale_steps :
    (recordSale saleId resultCode).Steps (CallbackEffect payoutRef resultCode) := by
  refine .bind (.read .silent) fun stored => ?_
  split
  case h_1 => exact .write (.saveSale _)
  case h_2 => trivial

theorem recordWithdrawal_steps :
    (recordWithdrawal payoutRef saleId resultCode).Steps (CallbackEffect payoutRef resultCode) := by
  refine .bind (.read .silent) fun found => ?_
  split
  case h_1 => exact .write (.save _)
  case h_2 => trivial

theorem applyCallback_steps {found : Option (String × B2CPayout)} :
    (applyCallback payoutRef resultCode outcome found).Steps (CallbackEffect payoutRef resultCode) := by
  rw [applyCallback.eq_def]
  split
  case h_1 => exact .write .acknowledge
  case h_2 saleId payout =>
    refine .ite (fun _ => .write .acknowledge) fun _ => ?_
    refine .bind (.write (.savePayout _)) fun _ => ?_
    refine .ite (fun _ => .skip .silent) fun _ => ?_
    refine .bind recordSale_steps fun _ => ?_
    refine .ite (fun _ => .skip .silent) fun _ => ?_
    refine .bind recordWithdrawal_steps fun _ => ?_
    exact .ite (fun _ => trivial) fun _ => .write .acknowledge

end Callback

theorem syncWithdrawalStatus_steps {withdrawalId : String} :
    (syncWithdrawalStatus withdrawalId).Steps (Effect D) := by
  refine .bind (.read .silent) fun stored => ?_
  split
  case h_2 => trivial
  case h_1 withdrawal =>
    split
    case h_1 => trivial
    case h_2 payoutRef =>
      refine .bind (.read .silent) fun found => ?_
      split
      case h_2 => trivial
      case h_1 payout =>
        refine .ite (fun _ => saveWithdrawal_steps) fun _ => ?_
        exact .ite (fun _ => saveWithdrawal_steps) fun _ => trivial

theorem retry_steps {env : Payout.Environment} {withdrawalId : String} (h : D withdrawalId) :
    (retry cfg.payout env withdrawalId).Steps (Effect D) := by
  refine .act_bind (.find h) fun w => ?_
  split
  case h_2 => trivial
  case h_1 withdrawal _ =>
    refine .bind (initiateB2CPayout_steps h) fun result => ?_
    split
    case h_1 => exact .write (.decided h)
    case h_2 => exact .write (.saveDecision _ h)
    case h_3 => exact .write (.saveDecision _ h)

theorem resolve_steps {withdrawalId : String} {outcome : Outcome} (h : D withdrawalId) :
    (resolve withdrawalId outcome).Steps (Effect D) := by
  refine .act_bind (.find h) fun w => ?_
  split
  case h_2 => trivial
  case h_1 withdrawal _ => exact .write (.saveResolve _ h)

-- What one step of any request does.
def AnyEffect (D : String → Prop) (label : Label) (update : World → World) : Prop :=
  Effect D label update ∨ ∃ payoutRef resultCode, CallbackEffect payoutRef resultCode label update

theorem handler_steps (cfg : Config) (request : Request) :
    (request.handler cfg).Steps (AnyEffect request.decides) := by
  cases request with
  | sell req => exact (sell_steps (D := (· = req.withdrawalId)) rfl).mono .inl
  | resign saleId txBytes => exact resign_steps.mono .inl
  | processQueued reserveKes outcome =>
    exact .bind (.read (.inl .silent)) fun _ => (releaseEach_steps fun _ => trivial).mono .inl
  | callback payoutRef resultCode outcome =>
    refine .ite (fun _ => trivial) fun _ => .bind (.act (.inl .deliver)) fun _ => ?_
    exact applyCallback_steps.mono fun he => .inr ⟨_, _, he⟩
  | status withdrawalId => exact syncWithdrawalStatus_steps.mono .inl
  | retry withdrawalId payout => exact (retry_steps (D := (· = withdrawalId)) rfl).mono .inl
  | resolve withdrawalId outcome => exact (resolve_steps (D := (· = withdrawalId)) rfl).mono .inl

end Requests

end Cashout
