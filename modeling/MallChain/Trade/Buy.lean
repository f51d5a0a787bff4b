import MallChain.Trade.Types

namespace Trade

open Interleaving

section Reserve

def insertPurchase (quoteId : String) (purchase : MallcoinPurchase) (buyPrice : ℚ) (w : World) : World :=
  match w.purchases.get quoteId with
  | some _ => w
  | none   => ({ w with purchases := w.purchases.set quoteId purchase } : World).record
    (.reserved quoteId buyPrice)

-- `POST /reserve`. The quote is a new one. The price is that of the server, which nothing here reads.
def reserve (quoteId walletAddress : String) (amount fiatAmount buyPrice : ℚ) : Handler Unit :=
  .write (.reserving amount fiatAmount buyPrice)
    (insertPurchase quoteId { walletAddress, amount, fiatAmount } buyPrice)

end Reserve

section Mpesa

-- The requests to the phone that the provider has received in the attempts of the backoff: those without
-- an answer, and the last one if it was answered. The purchase may fail to be saved after it.
structure StkPush where
  unanswered : List String := []
  answered   : Option String := none
  saves      : Bool := true
  deriving DecidableEq, Repr

def addPaymentIdToPurchase (paymentId : String) (purchase : MallcoinPurchase) : MallcoinPurchase :=
  { purchase with
    paymentIds :=
      if paymentId ∈ purchase.paymentIds then purchase.paymentIds else purchase.paymentIds ++ [paymentId]
    paymentId  := some paymentId
  }

def push (quoteId : String) (amount : ℚ) (paymentId : String) : Handler Unit :=
  .write (.pushing quoteId paymentId amount) (·.record (.pushed quoteId paymentId amount))

def pushEach (quoteId : String) (amount : ℚ) : List String → Handler Unit
  | []                      => return
  | paymentId :: paymentIds => do
    push quoteId amount paymentId
    pushEach quoteId amount paymentIds

-- `POST /mpesa`. The amount is the one of the request.
def initiateMpesaRequest (quoteId : String) (amount : ℚ) (stk : StkPush) : Handler Unit := do
  let some purchase ← .read .read (·.purchases.get quoteId) | return
  if purchase.status ≠ .pending then return
  pushEach quoteId amount stk.unanswered
  match stk.answered with
  | none           => return
  | some paymentId =>
    push quoteId amount paymentId
    if !stk.saves then return
    let purchase := (Document.read purchase).modify fun purchase =>
      { addPaymentIdToPurchase paymentId purchase with status := .paymentInitiated }
    .write (.savingPush quoteId) (·.updatePurchase quoteId (savePurchase purchase))

-- The provider takes the amount of a request from its phone, once.
def collect (paymentId : String) : Handler Unit :=
  .write (.collecting paymentId) fun w =>
    if w.events.any (fun | .pushed _ id _ => id = paymentId | _ => false) ∧
        .collected paymentId ∉ w.events then
      w.record (.collected paymentId)
    else w

def terminalStatuses : List PurchaseStatus :=
  [.confirmed, .failed, .processing, .credited]

def findByPaymentId (paymentId : String) (w : World) : Option (String × MallcoinPurchase) :=
  w.purchases.entries.find? fun e => e.2.paymentId = some paymentId ∨ paymentId ∈ e.2.paymentIds

-- Whether a purchase is saved in a callback, and the record after it.
structure CallbackOutcome where
  saves   : Bool := true
  records : Bool := true
  deriving DecidableEq, Repr

def acknowledge (paymentId : String) (resultCode : ℤ) : Handler Unit :=
  .write .write (·.record (.acknowledged paymentId resultCode))

-- `processMpesaCallback`. Without a payment, or when a step fails, the result code is 1.
def processMpesaCallback (paymentId : String) (resultCode : ℤ) (outcome : CallbackOutcome) :
    Handler Unit := do
  if paymentId = "" then return
  let found ← .read (.delivering paymentId resultCode) (findByPaymentId paymentId)
  match found with
  | none                     => acknowledge paymentId resultCode
  | some (quoteId, purchase) =>
    if purchase.status ∈ terminalStatuses then
      acknowledge paymentId resultCode
    else
      if !outcome.saves then return
      let purchase := (Document.read purchase).modify fun purchase =>
        { purchase with status := if resultCode = 0 then .confirmed else .failed }
      .write (.savingCallback quoteId) (·.updatePurchase quoteId (savePurchase purchase))
      if !outcome.records then return
      acknowledge paymentId resultCode

end Mpesa

section Credit

def sellPoolId : ℕ := 2

def applied (lpTokens : ℚ) (purchase : MallcoinPurchase) : MallcoinPurchase :=
  { purchase with liquidityAdded := true, lpTokens, liquidityPoolId := some sellPoolId }

-- The purchase after `applyLiquidityAfterCredit`, and after its error is caught.
def Provision.applyTo : Provision → MallcoinPurchase → MallcoinPurchase
  | .added _ lpTokens recordError, purchase =>
    let purchase := applied lpTokens purchase
    match recordError with
    | none       => purchase
    | some error => { purchase with liquidityAdded := false, liquidityError := some error }
  | .failed error _, purchase =>
    { purchase with liquidityAdded := false, liquidityError := some error }

-- The upsert of a record that is to be reconciled, for a purchase that was credited.
def ensureLiquidityReconciliation (quoteId txHash : String) (purchase : MallcoinPurchase) (w : World) :
    World :=
  let inserted : LiquidityReconciliation := {
    creditTxHash  := txHash
    walletAddress := purchase.walletAddress
    mlcnsAmount   := purchase.amount
    fiatAmount    := purchase.fiatAmount
    reason        := none
  }
  let recon := { (w.reconciliations.get quoteId).getD inserted with
    reason := purchase.liquidityError
    status := .detected
  }
  { w with reconciliations := w.reconciliations.set quoteId recon }

-- `findOneAndUpdate` from confirmed to processing
def claim (quoteId : String) (w : World) : World :=
  match w.purchases.get quoteId with
  | some purchase =>
    if purchase.status = .confirmed then
      { w with purchases := w.purchases.set quoteId { purchase with status := .processing } }
    else w
  | none          => w

def claimed (quoteId : String) (w : World) : Option MallcoinPurchase :=
  match w.purchases.get quoteId with
  | some purchase =>
    if purchase.status = .confirmed then some { purchase with status := .processing } else none
  | none          => none

def creditedBy (txHash : String) (purchase : MallcoinPurchase) : MallcoinPurchase :=
  { purchase with
    txHash          := some txHash
    status          := .credited
    liquidityAdded  := false
    lpTokens        := 0
    liquidityPoolId := none
    liquidityError  := none
  }

-- The rest of the request when the coins were sent: liquidity is added, and the purchase is saved.
def settleCredit (quoteId txHash : String) (purchase : MallcoinPurchase) (provision : Provision) :
    Handler Unit := do
  let purchase := (Document.read purchase).modify (creditedBy txHash)
  if purchase.current.fiatAmount ≤ 0 then
    .write .write (·.updatePurchase quoteId (savePurchase purchase))
  else
    provide (.purchase quoteId) purchase.current.amount purchase.current.fiatAmount provision
    let purchase := purchase.modify provision.applyTo
    if provision.error.isSome then
      .write .write (ensureLiquidityReconciliation quoteId txHash purchase.current)
    .write .write (·.updatePurchase quoteId (savePurchase purchase))

-- `POST /credit`. The coins may fail to be sent, in which case the request fails.
def handleReservedCredit (quoteId : String) (walletAddress transfer : Option String)
    (provision : Provision) : Handler Unit := do
  let some current ← .read .read (·.purchases.get quoteId) | return
  if walletAddress.any (· ≠ current.walletAddress) then return
  if current.status ≠ .confirmed then return
  let some purchase ← .act .write (claim quoteId) (claimed quoteId) | return
  .write .write (·.record (.credited quoteId purchase.amount))
  match transfer with
  | none        => return
  | some txHash => settleCredit quoteId txHash purchase provision

end Credit

end Trade
