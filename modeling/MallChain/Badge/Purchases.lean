import MallChain.Badge.Keeper
import MallChain.Lib.Document
import MallChain.Lib.Interleaving

namespace Badge

open Interleaving Sdk

inductive PurchaseStatus
  | pending
  | paymentInitiated
  | confirmed
  | processing
  | issued
  | failed
  deriving DecidableEq, Repr

structure BadgePurchase where
  walletAddress : String
  status        : PurchaseStatus := .pending
  paymentId     : Option ℕ := none
  paymentIds    : List ℕ := []
  badgeTxHash   : Option ℕ := none
  deriving DecidableEq, Repr

-- The operator that signs, and how the chain reads addresses.
structure Config where
  addressCodec : String → Option AccAddress
  operator     : String

-- A purchase with the chain and the provider. The provider numbers its requests to the phone and decides
-- each of them once, with a result code. Transactions are numbered as they are sent; the ones in flight
-- are not in a block yet. Below is what happened so far.
structure World where
  purchase     : BadgePurchase
  chain        : State
  pushes       : ℕ := 0
  results      : KVStore ℕ ℤ := .empty
  sent         : ℕ := 0
  inFlight     : List ℕ := []
  executed     : KVStore ℕ Bool := .empty
  -- the callbacks that are acknowledged
  delivered    : List ℕ := []
  wasConfirmed : Bool := false
  wasIssued    : Bool := false
  -- a transaction of the purchase has issued the badge, and another one was sent afterwards
  succeeded    : Bool := false
  rebroadcast  : Bool := false

-- The steps of the handlers.
inductive Label
  | step
  -- a callback looks for its purchase
  | finding (paymentId : ℕ)
  -- a document is saved, with the status that it had when it was read
  | saving (loaded current : PurchaseStatus)
  -- a claim is given back
  | rollingBack
  deriving DecidableEq, Repr

abbrev Handler := Prog Label World

-- `save` on what is stored.
def savePurchase (d : Document BadgePurchase) (stored : BadgePurchase) : BadgePurchase :=
  { stored with
    status      := d.written (·.status) stored
    paymentId   := d.written (·.paymentId) stored
    paymentIds  := d.pushed (·.paymentIds) stored
    badgeTxHash := d.written (·.badgeTxHash) stored
  }

namespace World

variable (w : World)

def save (d : Document BadgePurchase) : World :=
  let purchase := savePurchase d w.purchase
  { w with
    purchase
    wasConfirmed := w.wasConfirmed || purchase.status = .confirmed
    wasIssued    := w.wasIssued || purchase.status = .issued
  }

-- `BadgePurchase.findOne` of a callback
def finds (paymentId : ℕ) : Bool :=
  w.purchase.paymentId = some paymentId || w.purchase.paymentIds.contains paymentId

def deliver (paymentId : ℕ) : World :=
  { w with delivered := paymentId :: w.delivered }

def push : World :=
  { w with pushes := w.pushes + 1 }

def settle (paymentId : ℕ) (resultCode : ℤ) : World :=
  if paymentId < w.pushes ∧ (w.results.get paymentId).isNone then
    { w with results := w.results.set paymentId resultCode }
  else w

-- `findOneAndUpdate` from confirmed to processing
def claim : World :=
  if w.purchase.status = .confirmed then
    { w with purchase := { w.purchase with status := .processing } }
  else w

def claimed : Option BadgePurchase :=
  if w.purchase.status = .confirmed then some { w.purchase with status := .processing } else none

def broadcast : World :=
  { w with
    sent        := w.sent + 1
    inFlight    := w.sent :: w.inFlight
    rebroadcast := w.rebroadcast || w.succeeded
  }

-- A transaction is executed in a block. It may fail for a reason of its own.
def execute (config : Config) (tx : ℕ) (blockTime : ℤ) (fails : Bool) : World :=
  if tx ∈ w.inFlight then
    let w := { w with inFlight := w.inFlight.filter (· ≠ tx) }
    let msg : MsgIssueBadge := {
      creator   := config.operator
      recipient := w.purchase.walletAddress
      badgeType := "gold"
    }
    match issueBadge config.addressCodec blockTime msg w.chain, fails with
    | .ok chain, false => { w with chain, executed := w.executed.set tx true, succeeded := true }
    | _, _             => { w with executed := w.executed.set tx false }
  else w

-- Another message to the module.
def deliverMsg (config : Config) (blockTime : ℤ) (msg : MsgIssueBadge) : World :=
  match issueBadge config.addressCodec blockTime msg w.chain with
  | .ok chain => { w with chain }
  | .error _  => w

end World

section Mpesa

def addPaymentIdToPurchase (paymentId : ℕ) (purchase : BadgePurchase) : BadgePurchase :=
  { purchase with
    paymentIds :=
      if paymentId ∈ purchase.paymentIds then purchase.paymentIds else purchase.paymentIds ++ [paymentId]
    paymentId  := some paymentId
  }

def save (d : Document BadgePurchase) : Handler Unit :=
  .write (.saving d.loaded.status d.current.status) (·.save d)

-- `POST /mpesa`. The provider may not receive the request, and the purchase may not be saved after it.
def initiateMpesaRequest (receives saves : Bool) : Handler Unit := do
  let purchase ← .read .step (·.purchase)
  if !receives then return
  let paymentId ← .act .step (·.push) (·.pushes)
  if !saves then return
  save ((Document.read purchase).modify fun purchase =>
    { addPaymentIdToPurchase paymentId purchase with status := .paymentInitiated })

-- What is acknowledged has the result code 0. A purchase that is not found is acknowledged as well.
def processMpesaCallback (paymentId : ℕ) (resultCode : ℤ) (saves : Bool) : Handler Unit := do
  let found ← .read (.finding paymentId) fun w => if w.finds paymentId then some w.purchase else none
  match found with
  | none          => .write .step (·.deliver paymentId)
  | some purchase =>
    if !saves then return
    save ((Document.read purchase).modify fun purchase =>
      { purchase with status := if resultCode = 0 then .confirmed else .failed })
    .write .step (·.deliver paymentId)

-- The provider calls back what it has decided, as often as it likes.
def callback (paymentId : ℕ) (saves : Bool) : Handler Unit := do
  match ← .read .step (·.results.get paymentId) with
  | none            => return
  | some resultCode => processMpesaCallback paymentId resultCode saves

end Mpesa

section Issue

-- What goes well in a request: the operator is configured, the transaction reaches the chain, its result
-- is found in time, the purchase is saved, the records after it are written, and a claim that is given
-- back is saved.
structure Attempt where
  configured : Bool := true
  reaches    : Bool := true
  found      : Bool := true
  saves      : Bool := true
  records    : Bool := true
  rollsBack  : Bool := true
  deriving DecidableEq, Repr

-- `issueBadgeFromMnemonic`. Nothing means that it throws.
def issueBadgeFromMnemonic (attempt : Attempt) : Handler (Option ℕ) := do
  if !attempt.reaches then return none
  let tx ← .act .step (·.broadcast) (·.sent)
  if !attempt.found then return none
  match ← .read .step (·.executed.get tx) with
  | some true => return some tx
  | _         => return none

def rollBack (attempt : Attempt) (purchase : Document BadgePurchase) : Handler Unit :=
  if attempt.rollsBack then
    .write .rollingBack (·.save (purchase.modify ({ · with status := .confirmed })))
  else .skip .rollingBack

-- `POST /issue` after the claim
def issueClaimed (attempt : Attempt) (purchase : BadgePurchase) : Handler Unit := do
  let purchase := Document.read purchase
  if !attempt.configured then rollBack attempt purchase
  else
    match ← issueBadgeFromMnemonic attempt with
    | none        => rollBack attempt purchase
    | some txHash =>
      let purchase := purchase.modify ({ · with status := .issued, badgeTxHash := some txHash })
      if !attempt.saves then rollBack attempt purchase
      else
        save purchase
        if !attempt.records then rollBack attempt purchase.saved

-- `POST /issue`
def issue (walletAddress : Option String) (attempt : Attempt) : Handler Unit := do
  let current ← .read .step (·.purchase)
  if walletAddress.any (· ≠ current.walletAddress) then return
  if current.status ≠ .confirmed then return
  let some purchase ← .act .step (·.claim) (·.claimed) | return
  issueClaimed attempt purchase

-- `POST /badges/purchases/:quoteId/void`
def void (saves : Bool) : Handler Unit := do
  let purchase ← .read .step (·.purchase)
  if purchase.status = .issued then return
  if !saves then return
  save ((Document.read purchase).modify ({ · with status := .failed }))

end Issue

-- The requests, and what the provider and the chain do.
inductive Request
  | mpesa (receives saves : Bool)
  | settle (paymentId : ℕ) (resultCode : ℤ)
  | callback (paymentId : ℕ) (saves : Bool)
  | issue (walletAddress : Option String) (attempt : Attempt)
  | void (saves : Bool)
  | execute (tx : ℕ) (blockTime : ℤ) (fails : Bool)
  | deliverMsg (blockTime : ℤ) (msg : MsgIssueBadge)

def Request.handler (config : Config) : Request → Handler Unit
  | mpesa receives saves        => initiateMpesaRequest receives saves
  | settle paymentId resultCode => .write .step (·.settle paymentId resultCode)
  | callback paymentId saves    => Badge.callback paymentId saves
  | issue walletAddress attempt => Badge.issue walletAddress attempt
  | void saves                  => Badge.void saves
  | execute tx blockTime fails  => .write .step (·.execute config tx blockTime fails)
  | deliverMsg blockTime msg    => .write .step (·.deliverMsg config blockTime msg)

-- All runs of one purchase that was just reserved.
def purchaseSystem (config : Config) : TransitionSystem (Pool Label World) (Action Request) :=
  system (fun w => ∃ walletAddress chain, w = { purchase := { walletAddress }, chain })
    (Request.handler config)

end Badge
