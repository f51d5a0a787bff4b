import MallChain.Cashout.Types

namespace Cashout

open Interleaving

-- What the environment sets.
structure Config where
  payout              : Payout.Config
  minWithdrawalKes    : ℚ := 350
  weeklyLimit         : ℕ := 3
  amlThresholdKes     : ℚ := 2500

section Settlement

inductive Broadcast
  | ok (txHash : Option String)
  | sequenceMismatch
  | failed
  deriving DecidableEq, Repr

-- What becomes of a settlement: of its broadcast and its payout, and whether the payout is created, the
-- withdrawal is saved and the activity is recorded after it.
structure Settlement where
  broadcast : Broadcast
  payout    : Payout.Environment
  creates   : Bool := true
  saves     : Bool := true
  records   : Bool := true

inductive SettlementResult
  | success (amountKes : ℚ)
  | failed
  | resignRequired
  deriving DecidableEq, Repr

-- The chain accepts no transaction again.
def World.hasAccepted (w : World) (txBytes : String) : Bool :=
  w.accepted.any (·.1 = txBytes)

def broadcastSignedTx (withdrawalId txBytes : String) (outcome : Broadcast) : Handler Broadcast :=
  .act .write
    (fun w => match outcome with
      | .ok _ =>
        if w.hasAccepted txBytes then w else { w with accepted := (txBytes, withdrawalId) :: w.accepted }
      | _     => w)
    fun w => if w.hasAccepted txBytes then .sequenceMismatch else outcome

-- A settlement that does not come to the burn.
def endSettlement (saleId withdrawalId : String) (sale : Document MallcoinSale)
    (withdrawal : Document WithdrawalRequest) (saleStatus : SaleStatus) (status : WithdrawalStatus) :
    Handler Unit := do
  saveWithdrawal .settlement withdrawalId (withdrawal.modify ({ · with status }))
  saveSale .settlement saleId (sale.modify ({ · with status := saleStatus }))

def insertPayout (saleId : String) (payout : B2CPayout) (w : World) : World :=
  match w.payouts.get saleId with
  | some _ => w
  | none   => { w with payouts := w.payouts.set saleId payout }

-- The error of the payout is caught.
def failPayout (withdrawalId : String) (withdrawal : Document WithdrawalRequest) : Handler ℚ := do
  saveWithdrawal .settlement withdrawalId (withdrawal.modify ({ · with status := .failed }))
  return withdrawal.current.amountKes

-- The withdrawal is saved after the payout was initiated or refused.
def finishPayout (withdrawalId : String) (withdrawal : Document WithdrawalRequest) (o : Settlement) :
    Handler ℚ := do
  if !o.saves then failPayout withdrawalId withdrawal
  else
    saveWithdrawal .settlement withdrawalId withdrawal
    if !o.records then failPayout withdrawalId withdrawal.saved
    else return withdrawal.current.amountKes

-- The payout step of `executeSellSettlement`, with the amount of the withdrawal after it
def settlePayout (cfg : Config) (o : Settlement) (saleId withdrawalId : String)
    (withdrawal : Document WithdrawalRequest) (txHash : Option String) : Handler ℚ := do
  let result ← initiateB2CPayout cfg.payout o.payout withdrawalId withdrawal.current.amountMlcns
  match result with
  | .ok payoutResult => do
    if !o.creates then failPayout withdrawalId withdrawal
    else
      let payout : B2CPayout := {
        sellerPhone   := withdrawal.current.phone
        sellerAddress := withdrawal.current.walletAddress
        amount        := withdrawal.current.amountMlcns
        pesaAmount    := payoutResult.pesaAmount
        txHash        := txHash
        payoutRef     := payoutResult.payoutRef
        payoutStatus  := .initiated
      }
      let isNew ← .act (.creatingPayout saleId payout) (insertPayout saleId payout) fun w =>
        (w.payouts.get saleId).isNone
      if !isNew then failPayout withdrawalId withdrawal
      else
        let withdrawal := withdrawal.modify fun withdrawal => { withdrawal with
          status    := .payoutInitiated
          payoutRef := some payoutResult.payoutRef
          amountKes :=
            if payoutResult.pesaAmount = 0 then withdrawal.amountKes else payoutResult.pesaAmount
        }
        finishPayout withdrawalId withdrawal o
  | .error .thrown => failPayout withdrawalId withdrawal
  | .error error   => do
    let status := if error.requiresApproval then .pendingReview else .failed
    finishPayout withdrawalId (withdrawal.modify ({ · with status })) o

-- The burn of the coins has no part in the withdrawal.
def executeSellSettlement (cfg : Config) (o : Settlement) (saleId withdrawalId : String)
    (sale : Document MallcoinSale) (withdrawal : Document WithdrawalRequest) (txBytes : String) :
    Handler SettlementResult := do
  if txBytes = "" then
    endSettlement saleId withdrawalId sale withdrawal .failed .failed
    return .failed
  else
    let broadcast ← broadcastSignedTx withdrawalId txBytes o.broadcast
    match broadcast with
    | .failed => do
      endSettlement saleId withdrawalId sale withdrawal .failed .failed
      return .failed
    | .sequenceMismatch => do
      endSettlement saleId withdrawalId sale withdrawal .resignRequired .resignRequired
      return .resignRequired
    | .ok txHash => do
      let withdrawal := withdrawal.modify ({ · with status := .pendingReview })
      saveWithdrawal .settlement withdrawalId withdrawal
      saveSale .settlement saleId (sale.modify fun sale => { sale with status := .broadcasted, txHash })
      let amountKes ← settlePayout cfg o saleId withdrawalId withdrawal.saved txHash
      return .success amountKes

end Settlement

section Queue

def holdForLiquidity (saleId withdrawalId txBytes : String) (now : ℤ) (sale : Document MallcoinSale)
    (withdrawal : Document WithdrawalRequest) : Handler Unit := do
  saveSale .hold saleId
    (sale.modify ({ · with status := .queuedLiquidity, pendingTxBytes := some txBytes }))
  saveWithdrawal .hold withdrawalId
    (withdrawal.modify ({ · with status := .queuedLiquidity, queuedAt := some now }))

-- `releaseQueuedWithdrawal`, with the amount of the withdrawal after a payout
def releaseQueuedWithdrawal (cfg : Config) (o : Settlement) (withdrawalId : String)
    (withdrawal : WithdrawalRequest) : Handler (Option ℚ) := do
  let some saleId := withdrawal.saleId | return none
  let some sale ← .read .read (·.sales.get saleId) | return none
  let some txBytes := sale.pendingTxBytes.filter (· ≠ "") | return none
  let sale := (Document.read sale).modify ({ · with pendingTxBytes := none })
  let result ← executeSellSettlement cfg o saleId withdrawalId sale (Document.read withdrawal) txBytes
  match result with
  | .success amountKes => return some amountKes
  | _                  => return none

def queuedWithdrawals (w : World) : List (String × WithdrawalRequest) :=
  (w.withdrawals.entries.filter (·.2.status = .queuedLiquidity)).insertionSort fun e e' =>
    e.2.queuedAt.getD 0 ≤ e'.2.queuedAt.getD 0

-- The withdrawals that were found are released one by one, as far as the reserve goes.
def releaseEach (cfg : Config) (outcome : String → Settlement) :
    (reserveKes : ℚ) → List (String × WithdrawalRequest) → Handler Unit
  | _, []                                          => return
  | reserveKes, (withdrawalId, withdrawal) :: rest => do
    if withdrawal.amountKes > reserveKes then return
    let result ← releaseQueuedWithdrawal cfg (outcome withdrawalId) withdrawalId withdrawal
    match result with
    | some amountKes => releaseEach cfg outcome (Binary64.sub reserveKes amountKes) rest
    | none           => releaseEach cfg outcome reserveKes rest

-- One run, with the reserve that it reads
def processQueuedWithdrawals (cfg : Config) (reserveKes : ℚ) (outcome : String → Settlement) :
    Handler Unit := do
  let queued ← .read .read queuedWithdrawals
  releaseEach cfg outcome reserveKes queued

-- `POST /sell/:saleId/resign`
def resign (saleId txBytes : String) : Handler Unit := do
  if txBytes = "" then return
  let some sale ← .read .read (·.sales.get saleId) | return
  let some (withdrawalId, withdrawal) ←
    .read .read (fun w => w.withdrawals.entries.find? (·.2.saleId = some saleId)) | return
  if sale.status ≠ .resignRequired ∨ withdrawal.status ≠ .resignRequired then return
  saveSale .resign saleId
    ((Document.read sale).modify ({ · with status := .queuedLiquidity, pendingTxBytes := some txBytes }))
  saveWithdrawal .resign withdrawalId
    ((Document.read withdrawal).modify ({ · with status := .queuedLiquidity }))

end Queue

section Sell

def windowMs : ℤ := 7 * 24 * 60 * 60 * 1000

-- Failed and refunded withdrawals are not counted.
def WithdrawalStatus.counts : WithdrawalStatus → Bool
  | failed | refunded => false
  | _                 => true

-- The withdrawals of a wallet since some time.
def World.counted (w : World) (walletAddress : String) (windowStart : ℤ) : ℕ :=
  (w.withdrawals.values.filter fun withdrawal => withdrawal.walletAddress = walletAddress ∧
    windowStart ≤ withdrawal.createdAt ∧ withdrawal.status.counts).length

-- The latest review of a wallet that is approved and not consumed.
def approvedReview (walletAddress : String) (w : World) : Option String :=
  let approved := w.reviews.entries.filter fun e => e.2.walletAddress = walletAddress ∧
    e.2.status = .approved ∧ e.2.consumedByWithdrawalId = none
  ((approved.insertionSort fun e e' => e'.2.submittedAt ≤ e.2.submittedAt).head?).map (·.1)

-- The review that a withdrawal uses, if it needs one and may go on.
def requireApprovedAmlReview (cfg : Config) (walletAddress : String) (estimatedKes : ℚ) :
    Handler (Option (Option String)) := do
  if estimatedKes < cfg.amlThresholdKes then return some none
  else
    let approved ← .read .read (approvedReview walletAddress)
    return approved.map some

-- A request with a random id, and what it finds: the price, the times, whether the pool has enough
-- liquidity, and what becomes of its settlement.
structure SellRequest where
  saleId        : String
  hex           : saleId.length = 24
  sellerAddress : String
  amount        : ℚ
  txBytes       : String
  phone         : Option String
  sellPriceKes  : Option ℚ
  checkedAt     : ℤ
  createdAt     : ℤ
  queuedAt      : ℤ
  liquidity     : Bool
  settlement    : Settlement

def SellRequest.withdrawalId (req : SellRequest) : String :=
  "withdrawal-" ++ req.saleId

def insertSale (saleId : String) (sale : MallcoinSale) (w : World) : World :=
  match w.sales.get saleId with
  | some _ => w
  | none   => { w with sales := w.sales.set saleId sale }

def insertWithdrawal (withdrawalId : String) (withdrawal : WithdrawalRequest) (w : World) : World :=
  match w.withdrawals.get withdrawalId with
  | some _ => w
  | none   => { w with withdrawals := w.withdrawals.set withdrawalId withdrawal }

def consumeReview (reviewId : Option String) (withdrawalId : String) : Handler Unit :=
  match reviewId with
  | none          => return
  | some reviewId =>
    .write .write (·.updateReview reviewId ({ · with consumedByWithdrawalId := some withdrawalId }))

-- The rest of a request whose sale and withdrawal were created.
def settleSell (cfg : Config) (req : SellRequest) (sale : MallcoinSale) (withdrawal : WithdrawalRequest) :
    Handler Unit := do
  consumeReview withdrawal.amlReviewId req.withdrawalId
  if !req.liquidity then
    holdForLiquidity req.saleId req.withdrawalId req.txBytes req.queuedAt (Document.read sale)
      (Document.read withdrawal)
  else
    discard (executeSellSettlement cfg req.settlement req.saleId req.withdrawalId (Document.read sale)
      (Document.read withdrawal) req.txBytes)

def SellRequest.sale (req : SellRequest) : MallcoinSale where
  sellerAddress := req.sellerAddress
  amount        := req.amount
  phone         := req.phone

def SellRequest.withdrawal (req : SellRequest) (phone : String) (estimatedKes : ℚ)
    (reviewId : Option String) : WithdrawalRequest where
  walletAddress := req.sellerAddress
  phone         := phone
  amountMlcns   := req.amount
  amountKes     := estimatedKes
  saleId        := some req.saleId
  amlReviewId   := reviewId
  createdAt     := req.createdAt

-- The rest of a request that has passed its gates. A withdrawal has to have a phone.
def openWithdrawal (cfg : Config) (req : SellRequest) (estimatedKes : ℚ) (reviewId : Option String) :
    Handler Unit := do
  let isNew ← .act (.creatingSale req.saleId req.sale) (insertSale req.saleId req.sale) fun w =>
    (w.sales.get req.saleId).isNone
  if !isNew then return
  match req.phone with
  | none       => return
  | some phone => do
    let withdrawal := req.withdrawal phone estimatedKes reviewId
    let isNew ← .act (.creating req.withdrawalId withdrawal)
      (insertWithdrawal req.withdrawalId withdrawal) fun w => (w.withdrawals.get req.withdrawalId).isNone
    if !isNew then return
    settleSell cfg req req.sale withdrawal

-- `POST /sell`
def sell (cfg : Config) (req : SellRequest) : Handler Unit := do
  if !cfg.payout.configured then return
  match req.sellPriceKes with
  | none              => return
  | some sellPriceKes =>
    let estimatedKes := Binary64.mul req.amount sellPriceKes
    if estimatedKes < cfg.minWithdrawalKes then return
    let count ← .read .read (·.counted req.sellerAddress (req.checkedAt - windowMs))
    if ¬count < cfg.weeklyLimit then return
    let some reviewId ← requireApprovedAmlReview cfg req.sellerAddress estimatedKes | return
    openWithdrawal cfg req estimatedKes reviewId

end Sell

end Cashout
