import MallChain.Lib.Document
import MallChain.Lib.Interleaving
import MallChain.Lib.KVStore

namespace Trade

open Interleaving

inductive PurchaseStatus
  | pending
  | paymentInitiated
  | confirmed
  | processing
  | credited
  | failed
  deriving DecidableEq, Repr

structure MallcoinPurchase where
  walletAddress   : String
  amount          : ℚ
  fiatAmount      : ℚ
  status          : PurchaseStatus := .pending
  paymentId       : Option String := none
  paymentIds      : List String := []
  txHash          : Option String := none
  liquidityAdded  : Bool := false
  lpTokens        : ℚ := 0
  liquidityPoolId : Option ℕ := none
  liquidityError  : Option String := none
  deriving DecidableEq, Repr

inductive ReconciliationStatus
  | detected
  | compensating
  | pendingManual
  | resolved
  deriving DecidableEq, Repr

structure LiquidityReconciliation where
  creditTxHash   : String
  walletAddress  : String
  mlcnsAmount    : ℚ
  fiatAmount     : ℚ
  reason         : Option String
  status         : ReconciliationStatus := .detected
  compensationTx : Option String := none
  deriving DecidableEq, Repr

structure MallPointAccount where
  balance          : ℚ := 0
  lastConversionAt : Option ℤ := none
  deriving DecidableEq, Repr

-- A job of the queue for liquidity that could not be added after a conversion.
structure ConvertLiquidityJob where
  address  : String
  mlcoins  : ℚ
  kesValue : ℚ
  deriving DecidableEq, Repr

-- What liquidity is added for. Conversions are numbered as they begin.
inductive Target
  | purchase (quoteId : String)
  | conversion (i : ℕ)
  deriving DecidableEq, Repr

inductive Event
  -- a new purchase, at a price of the server
  | reserved (quoteId : String) (buyPrice : ℚ)
  -- a request to a phone that the provider has received
  | pushed (quoteId paymentId : String) (amount : ℚ)
  -- the amount of a request that the provider has taken from its phone
  | collected (paymentId : String)
  -- a callback that is acknowledged with the result code 0
  | acknowledged (paymentId : String) (resultCode : ℤ)
  -- a call that credits a purchase
  | credited (quoteId : String) (amount : ℚ)
  -- points of an address whose coins were sent
  | sent (address : String) (points : ℤ)
  -- a transaction that adds liquidity has taken effect
  | provided (target : Target) (amount0 amount1 : ℚ)
  -- a compensation is attempted
  | attempted (quoteId : String)
  deriving DecidableEq, Repr

-- The collections with the queue, and what happened so far, the latest first. A purchase is stored under
-- its quote.
structure World where
  purchases       : KVStore String MallcoinPurchase := .empty
  reconciliations : KVStore String LiquidityReconciliation := .empty
  accounts        : KVStore String MallPointAccount := .empty
  jobs            : KVStore ℕ ConvertLiquidityJob := .empty
  conversions     : ℕ := 0
  events          : List Event := []

namespace World

variable (w : World)

def record (e : Event) : World :=
  { w with events := e :: w.events }

-- An update of a document that is not there does nothing.
def updatePurchase (quoteId : String) (f : MallcoinPurchase → MallcoinPurchase) : World :=
  match w.purchases.get quoteId with
  | some purchase => { w with purchases := w.purchases.set quoteId (f purchase) }
  | none          => w

def updateReconciliation (purchaseId : String)
    (f : LiquidityReconciliation → LiquidityReconciliation) : World :=
  match w.reconciliations.get purchaseId with
  | some recon => { w with reconciliations := w.reconciliations.set purchaseId (f recon) }
  | none       => w

def updateAccount (address : String) (f : MallPointAccount → MallPointAccount) : World :=
  match w.accounts.get address with
  | some acc => { w with accounts := w.accounts.set address (f acc) }
  | none     => w

end World

-- `save` on what is stored.
def savePurchase (d : Document MallcoinPurchase) (stored : MallcoinPurchase) : MallcoinPurchase :=
  { stored with
    status          := d.written (·.status) stored
    paymentId       := d.written (·.paymentId) stored
    paymentIds      := d.pushed (·.paymentIds) stored
    txHash          := d.written (·.txHash) stored
    liquidityAdded  := d.written (·.liquidityAdded) stored
    lpTokens        := d.written (·.lpTokens) stored
    liquidityPoolId := d.written (·.liquidityPoolId) stored
    liquidityError  := d.written (·.liquidityError) stored
  }

def saveAccount (d : Document MallPointAccount) (stored : MallPointAccount) : MallPointAccount where
  balance          := d.written (·.balance) stored
  lastConversionAt := d.written (·.lastConversionAt) stored

-- What becomes of an attempt to add liquidity: the hash of the transaction, the tokens and the error of
-- the record after it, if there is one, or an error, with or without an effect on the chain.
inductive Provision
  | added (txHash : String) (lpTokens : ℚ) (recordError : Option String)
  | failed (error : String) (effective : Bool)
  deriving DecidableEq, Repr

namespace Provision

def effective : Provision → Bool
  | added _ _ _        => true
  | failed _ effective => effective

-- The error that is caught.
def error : Provision → Option String
  | added _ _ recordError => recordError
  | failed error _        => some error

end Provision

-- The steps of the handlers.
inductive Label
  | read
  | write
  | reserving (amount fiatAmount buyPrice : ℚ)
  | pushing (quoteId paymentId : String) (amount : ℚ)
  -- a purchase is saved after a request to the phone was sent
  | savingPush (quoteId : String)
  | collecting (paymentId : String)
  -- a callback looks for its purchase, and saves what it has found
  | delivering (paymentId : String) (resultCode : ℤ)
  | savingCallback (quoteId : String)
  | providing (target : Target)
  -- an attempt to add liquidity that failed is left to be repeated
  | requeueing (provision : Provision)
  -- the points are taken from an account, as the request has read it
  | removing (address : String) (acc : MallPointAccount)
  -- the points are given back after a transfer that failed, with or without an effect
  | restoring (address : String) (acc : MallPointAccount) (effective : Bool)

abbrev Handler := Prog Label World

-- `addLiquidityToPool`
def provide (target : Target) (amount0 amount1 : ℚ) (provision : Provision) : Handler Unit :=
  .write (.providing target) fun w =>
    if provision.effective then w.record (.provided target amount0 amount1) else w

end Trade
