import MallChain.Trade.Buy

namespace Trade

open Interleaving

-- What becomes of a compensation: of the liquidity, and the errors when the documents are saved after it.
structure CompensationOutcome where
  provision     : Provision
  reconError    : Option String := none
  purchaseError : Option String := none
  deriving DecidableEq, Repr

-- A purchase that was credited without its liquidity.
def MallcoinPurchase.lacksLiquidity (purchase : MallcoinPurchase) : Bool :=
  purchase.status = .credited ∧ purchase.liquidityError.isSome ∧ purchase.txHash.isSome

def detectedFrom (purchase : MallcoinPurchase) : LiquidityReconciliation where
  creditTxHash  := purchase.txHash.getD ""
  walletAddress := purchase.walletAddress
  mlcnsAmount   := purchase.amount
  fiatAmount    := purchase.fiatAmount
  reason        := purchase.liquidityError

def insertReconciliation (purchaseId : String) (recon : LiquidityReconciliation) (w : World) : World :=
  if (w.reconciliations.get purchaseId).isNone then
    { w with reconciliations := w.reconciliations.set purchaseId recon }
  else w

-- The rest of the purchases that were found. A record that another job has created in between ends it
-- with an error, and with nothing detected.
def detectEach : List (String × MallcoinPurchase) → List (String × LiquidityReconciliation) →
    Handler (List (String × LiquidityReconciliation))
  | [], results                             => return results
  | (purchaseId, purchase) :: rest, results => do
    let existing ← .read .read (·.reconciliations.get purchaseId)
    if existing.isSome then detectEach rest results
    else
      let recon := detectedFrom purchase
      let isNew ← .act .write (insertReconciliation purchaseId recon) fun w =>
        (w.reconciliations.get purchaseId).isNone
      if isNew then detectEach rest (results ++ [(purchaseId, recon)]) else return []

def detectFailedLiquidityAdds : Handler (List (String × LiquidityReconciliation)) := do
  let failed ← .read .read fun w => w.purchases.entries.filter (·.2.lacksLiquidity)
  detectEach failed []

def setReconciliation (purchaseId : String) (f : LiquidityReconciliation → LiquidityReconciliation) :
    Handler Unit :=
  .write .write (·.updateReconciliation purchaseId f)

def resolve (txHash : String) (recon : LiquidityReconciliation) : LiquidityReconciliation :=
  { recon with status := .resolved, compensationTx := some txHash }

-- The error is caught and a human is required. The record is saved with what was changed before.
def requireManual (error : String) (txHash : Option String) (recon : LiquidityReconciliation) :
    LiquidityReconciliation :=
  { recon with
    status         := .pendingManual
    reason         := some error
    compensationTx := txHash.or recon.compensationTx
  }

-- The documents are saved after liquidity was added. An error of the record of the activity is ignored.
def finishCompensation (purchaseId txHash : String) (lpTokens : ℚ) (poolId : ℕ)
    (purchase : Option MallcoinPurchase) (outcome : CompensationOutcome) : Handler Unit := do
  match outcome.reconError with
  | some error => setReconciliation purchaseId (requireManual error (some txHash))
  | none       =>
    setReconciliation purchaseId (resolve txHash)
    match purchase with
    | none          => return
    | some purchase =>
      match outcome.purchaseError with
      | some error => setReconciliation purchaseId (requireManual error (some txHash))
      | none       =>
        let doc := (Document.read purchase).modify fun purchase => { purchase with
          liquidityAdded  := true
          lpTokens
          liquidityPoolId := some poolId
          liquidityError  := none
        }
        .write .write (·.updatePurchase purchaseId (savePurchase doc))

def compensateFailedLiquidity (purchaseId : String) (recon : LiquidityReconciliation)
    (outcome : CompensationOutcome) : Handler Unit := do
  if recon.status ≠ .detected then return
  setReconciliation purchaseId fun stored => { stored with status := .compensating }
  let purchase ← .read .read (·.purchases.get purchaseId)
  let poolId := ((purchase.bind (·.liquidityPoolId)).filter (· ≠ 0)).getD sellPoolId
  .write .write (·.record (.attempted purchaseId))
  provide (.purchase purchaseId) recon.mlcnsAmount recon.fiatAmount outcome.provision
  match outcome.provision with
  | .failed error _          => setReconciliation purchaseId (requireManual error none)
  | .added txHash lpTokens _ => finishCompensation purchaseId txHash lpTokens poolId purchase outcome

def compensateEach (outcome : String → CompensationOutcome) :
    List (String × LiquidityReconciliation) → Handler Unit
  | []                          => return
  | (purchaseId, recon) :: rest => do
    compensateFailedLiquidity purchaseId recon (outcome purchaseId)
    compensateEach outcome rest

-- One job, with what becomes of the compensation of each purchase
def runReconciliationJob (outcome : String → CompensationOutcome) : Handler Unit := do
  let detected ← detectFailedLiquidityAdds
  compensateEach outcome detected

end Trade
