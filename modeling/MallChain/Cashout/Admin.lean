import MallChain.Cashout.Types

namespace Cashout

open Interleaving

section Callback

def terminal (status : PayoutStatus) : Bool :=
  status = .succeeded ∨ status = .failed

def findByPayoutRef (payoutRef : String) (w : World) : Option (String × B2CPayout) :=
  w.payouts.entries.find? (·.2.payoutRef = payoutRef)

-- The withdrawal of a payout.
def findWithdrawal (payoutRef saleId : String) (w : World) : Option (String × WithdrawalRequest) :=
  w.withdrawals.entries.find? fun e =>
    e.2.payoutRef = some payoutRef ∨ e.2.saleId = some saleId ∨ e.1 = saleId

def acknowledge (payoutRef : String) (resultCode : ℤ) : Handler Unit :=
  .write .write (·.record (.acknowledged payoutRef resultCode))

def payoutResult (resultCode : ℤ) : PayoutStatus :=
  if resultCode = 0 then .succeeded else .failed

def saleResult (resultCode : ℤ) : SaleStatus :=
  if resultCode = 0 then .completed else .failed

def withdrawalResult (resultCode : ℤ) : WithdrawalStatus :=
  if resultCode = 0 then .completed else .failed

def recordSale (saleId : String) (resultCode : ℤ) : Handler Unit := do
  let some sale ← .read .read (·.sales.get saleId) | return
  saveSale .callback saleId ((Document.read sale).modify ({ · with status := saleResult resultCode }))

def recordWithdrawal (payoutRef saleId : String) (resultCode : ℤ) : Handler Unit := do
  let some (withdrawalId, withdrawal) ← .read .read (findWithdrawal payoutRef saleId) | return
  saveWithdrawal .callback withdrawalId ((Document.read withdrawal).modify ({ · with
    status    := withdrawalResult resultCode
    payoutRef := some payoutRef
  }))

-- Whether the sale and the withdrawal are saved in a callback, and the activity is recorded after it.
structure CallbackOutcome where
  savesSale       : Bool := true
  savesWithdrawal : Bool := true
  records         : Bool := true
  deriving DecidableEq, Repr

-- The rest of a callback whose payout was saved.
def finishCallback (payoutRef saleId : String) (resultCode : ℤ) (outcome : CallbackOutcome) :
    Handler Unit := do
  if !outcome.savesSale then .skip .failing
  else
    recordSale saleId resultCode
    if !outcome.savesWithdrawal then .skip .failing
    else
      recordWithdrawal payoutRef saleId resultCode
      if !outcome.records then return
      acknowledge payoutRef resultCode

-- The rest of a callback that has looked for its payout.
def applyCallback (payoutRef : String) (resultCode : ℤ) (outcome : CallbackOutcome) :
    Option (String × B2CPayout) → Handler Unit
  | none                  => acknowledge payoutRef resultCode
  | some (saleId, payout) => do
    if terminal payout.payoutStatus then acknowledge payoutRef resultCode
    else
      let payout := (Document.read payout).modify ({ · with payoutStatus := payoutResult resultCode })
      .write (.savingPayout saleId payout) (·.updatePayout saleId (savePayoutOn payout))
      finishCallback payoutRef saleId resultCode outcome

-- Without a reference, or when a step fails, the result code is 1.
def handlePayoutCallback (payoutRef : String) (resultCode : ℤ) (outcome : CallbackOutcome) :
    Handler Unit := do
  if payoutRef = "" then return
  let found ← .act (.delivering payoutRef resultCode) (·.record (.delivered payoutRef resultCode))
    (findByPayoutRef payoutRef)
  applyCallback payoutRef resultCode outcome found

end Callback

section Status

-- `GET /status/:withdrawalId`
def syncWithdrawalStatus (withdrawalId : String) : Handler Unit := do
  let some withdrawal ← .read .read (·.withdrawals.get withdrawalId) | return
  match withdrawal.payoutRef with
  | none           => return
  | some payoutRef =>
    let some (_, payout) ← .read .read (findByPayoutRef payoutRef) | return
    if payout.payoutStatus = .succeeded ∧ withdrawal.status ≠ .completed then
      saveWithdrawal .status withdrawalId
        ((Document.read withdrawal).modify ({ · with status := .completed }))
    else if payout.payoutStatus = .failed ∧ withdrawal.status ≠ .failed then
      saveWithdrawal .status withdrawalId
        ((Document.read withdrawal).modify ({ · with status := .failed }))

end Status

section Admin

def World.isFailed (w : World) (withdrawalId : String) : Bool :=
  (w.withdrawals.get withdrawalId).any (·.status = .failed)

def found (withdrawalId : String) (w : World) : World :=
  if w.isFailed withdrawalId then { w with deciding := withdrawalId :: w.deciding } else w

-- An admin looks at a withdrawal, which may be failed.
def findFailed (withdrawalId : String) : Handler (Option WithdrawalRequest) :=
  .act (.deciding withdrawalId) (found withdrawalId) fun w =>
    (w.withdrawals.get withdrawalId).filter (·.status = .failed)

def World.decided (w : World) (withdrawalId : String) : World :=
  { w with deciding := w.deciding.erase withdrawalId }

-- The withdrawal that was found failed is saved.
def saveDecision (saver : Saver) (withdrawalId : String) (withdrawal : Document WithdrawalRequest) :
    Handler Unit :=
  .write (.savingWithdrawal saver withdrawalId withdrawal) fun w =>
    (w.updateWithdrawal withdrawalId (saveWithdrawalOn withdrawal)).decided withdrawalId

-- `POST /withdrawals/:id/retry`. An error that is thrown ends it without a save.
def retry (cfg : Payout.Config) (env : Payout.Environment) (withdrawalId : String) : Handler Unit := do
  let some withdrawal ← findFailed withdrawalId | return
  let result ← initiateB2CPayout cfg env withdrawalId withdrawal.amountMlcns
  match result with
  | .error .thrown   => .write .write (·.decided withdrawalId)
  | .error error     => saveDecision .retry withdrawalId ((Document.read withdrawal).modify ({ · with
      status := if error.requiresApproval then .pendingReview else .failed
    }))
  | .ok payoutResult => saveDecision .retry withdrawalId ((Document.read withdrawal).modify ({ · with
      status    := .payoutInitiated
      payoutRef := some payoutResult.payoutRef
    }))

-- `POST /withdrawals/:id/resolve`, with a note
def resolve (withdrawalId : String) (outcome : Outcome) : Handler Unit := do
  let some withdrawal ← findFailed withdrawalId | return
  let withdrawal := (Document.read withdrawal).modify ({ · with status := outcome.status })
  .write (.savingWithdrawal .resolve withdrawalId withdrawal) fun w =>
    ((w.updateWithdrawal withdrawalId (saveWithdrawalOn withdrawal)).decided withdrawalId).record
      (.resolved withdrawalId outcome)

end Admin

end Cashout
