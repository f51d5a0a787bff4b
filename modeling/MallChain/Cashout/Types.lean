import MallChain.Backend.Payout
import MallChain.Lib.Document
import MallChain.Lib.Interleaving
import MallChain.Lib.KVStore

namespace Cashout

open Interleaving

inductive SaleStatus
  | pending
  | broadcasted
  | completed
  | failed
  | queuedLiquidity
  | resignRequired
  deriving DecidableEq, Repr

-- The signed transaction is held as long as it is pending.
structure MallcoinSale where
  sellerAddress  : String
  amount         : ℚ
  phone          : Option String
  status         : SaleStatus := .pending
  txHash         : Option String := none
  pendingTxBytes : Option String := none
  deriving DecidableEq, Repr

inductive WithdrawalStatus
  | pendingReview
  | payoutInitiated
  | completed
  | failed
  | refunded
  | queuedLiquidity
  | resignRequired
  | amlRejected
  deriving DecidableEq, Repr

structure WithdrawalRequest where
  walletAddress : String
  phone         : String
  amountMlcns   : ℚ
  amountKes     : ℚ
  status        : WithdrawalStatus := .pendingReview
  payoutRef     : Option String := none
  saleId        : Option String := none
  queuedAt      : Option ℤ := none
  amlReviewId   : Option String := none
  createdAt     : ℤ
  deriving DecidableEq, Repr

inductive PayoutStatus
  | pending
  | initiated
  | succeeded
  | failed
  deriving DecidableEq, Repr

structure B2CPayout where
  sellerPhone   : String
  sellerAddress : String
  amount        : ℚ
  pesaAmount    : ℚ
  txHash        : Option String
  payoutStatus  : PayoutStatus := .pending
  payoutRef     : String
  deriving DecidableEq, Repr

inductive ReviewStatus
  | pending
  | approved
  | rejected
  deriving DecidableEq, Repr

structure WithdrawalAmlReview where
  walletAddress          : String
  status                 : ReviewStatus := .pending
  consumedByWithdrawalId : Option String := none
  submittedAt            : ℤ
  deriving DecidableEq, Repr

-- How a failed withdrawal was settled outside of the payouts.
inductive Outcome
  | completed
  | refunded
  deriving DecidableEq, Repr

def Outcome.status : Outcome → WithdrawalStatus
  | completed => .completed
  | refunded  => .refunded

inductive Event
  -- a request to pay that the provider has received, with its reference if the provider has answered
  | paid (withdrawalId : String) (payoutRef : Option String) (amount : ℚ)
  -- a callback that has arrived
  | delivered (payoutRef : String) (resultCode : ℤ)
  -- a callback that is acknowledged with the result code 0
  | acknowledged (payoutRef : String) (resultCode : ℤ)
  -- a withdrawal is saved with another status than failed
  | left (withdrawalId : String)
  -- a withdrawal is settled by an admin
  | resolved (withdrawalId : String) (outcome : Outcome)
  deriving DecidableEq, Repr

-- The collections, the transactions that the chain has accepted, each for a withdrawal, and what happened
-- so far, the latest first. Sales and payouts are stored under the id of the sale. The withdrawals are kept that an admin has
-- found failed, and has not saved since.
structure World where
  sales       : KVStore String MallcoinSale := .empty
  withdrawals : KVStore String WithdrawalRequest := .empty
  payouts     : KVStore String B2CPayout := .empty
  reviews     : KVStore String WithdrawalAmlReview := .empty
  accepted    : List (String × String) := []
  deciding    : List String := []
  events      : List Event := []

def saveSaleOn (d : Document MallcoinSale) (stored : MallcoinSale) : MallcoinSale :=
  { stored with
    status         := d.written (·.status) stored
    txHash         := d.written (·.txHash) stored
    pendingTxBytes := d.written (·.pendingTxBytes) stored
  }

def saveWithdrawalOn (d : Document WithdrawalRequest) (stored : WithdrawalRequest) : WithdrawalRequest :=
  { stored with
    amountKes := d.written (·.amountKes) stored
    status    := d.written (·.status) stored
    payoutRef := d.written (·.payoutRef) stored
    queuedAt  := d.written (·.queuedAt) stored
  }

def savePayoutOn (d : Document B2CPayout) (stored : B2CPayout) : B2CPayout :=
  { stored with payoutStatus := d.written (·.payoutStatus) stored }

namespace World

variable (w : World)

def record (e : Event) : World :=
  { w with events := e :: w.events }

-- An update of a document that is not there does nothing.
def updateSale (saleId : String) (f : MallcoinSale → MallcoinSale) : World :=
  match w.sales.get saleId with
  | some sale => { w with sales := w.sales.set saleId (f sale) }
  | none      => w

def updateWithdrawal (withdrawalId : String) (f : WithdrawalRequest → WithdrawalRequest) : World :=
  match w.withdrawals.get withdrawalId with
  | some withdrawal =>
    let w' := { w with withdrawals := w.withdrawals.set withdrawalId (f withdrawal) }
    if withdrawal.status = .failed ∧ (f withdrawal).status ≠ .failed then w'.record (.left withdrawalId)
    else w'
  | none => w

def updatePayout (saleId : String) (f : B2CPayout → B2CPayout) : World :=
  match w.payouts.get saleId with
  | some payout => { w with payouts := w.payouts.set saleId (f payout) }
  | none        => w

def updateReview (reviewId : String) (f : WithdrawalAmlReview → WithdrawalAmlReview) : World :=
  match w.reviews.get reviewId with
  | some review => { w with reviews := w.reviews.set reviewId (f review) }
  | none        => w

end World

-- Who saves a sale or a withdrawal.
inductive Saver
  | settlement
  | hold
  | resign
  | callback
  | status
  | retry
  | resolve
  deriving DecidableEq, Repr

-- The steps of the handlers.
inductive Label
  | read
  -- nothing is done to a sale, a withdrawal or a payout
  | write
  | creatingSale (saleId : String) (sale : MallcoinSale)
  | savingSale (saver : Saver) (saleId : String) (d : Document MallcoinSale)
  | creating (withdrawalId : String) (withdrawal : WithdrawalRequest)
  | savingWithdrawal (saver : Saver) (withdrawalId : String) (d : Document WithdrawalRequest)
  | creatingPayout (saleId : String) (payout : B2CPayout)
  | savingPayout (saleId : String) (d : Document B2CPayout)
  -- an attempt of a request to the provider
  | paying (withdrawalId : String) (attempt : Payout.Attempt)
  -- a callback looks for its payout
  | delivering (payoutRef : String) (resultCode : ℤ)
  -- a callback fails after its payout was saved
  | failing
  -- an admin looks at a withdrawal
  | deciding (withdrawalId : String)

abbrev Handler := Prog Label World

def saveSale (saver : Saver) (saleId : String) (sale : Document MallcoinSale) : Handler Unit :=
  .write (.savingSale saver saleId sale) (·.updateSale saleId (saveSaleOn sale))

def saveWithdrawal (saver : Saver) (withdrawalId : String) (withdrawal : Document WithdrawalRequest) :
    Handler Unit :=
  .write (.savingWithdrawal saver withdrawalId withdrawal)
    (·.updateWithdrawal withdrawalId (saveWithdrawalOn withdrawal))

section Payouts

def attemptRef : Payout.Attempt → Option String
  | .accepted conversationId => conversationId
  | .failed _ _ _            => none

def post (withdrawalId : String) (pesaAmount : ℚ) (attempt : Payout.Attempt) : Handler Unit :=
  .write (.paying withdrawalId attempt) fun w =>
    if attempt.received then w.record (.paid withdrawalId (attemptRef attempt) pesaAmount) else w

def postEach (withdrawalId : String) (pesaAmount : ℚ) : List Payout.Attempt → Handler Unit
  | []                  => return
  | attempt :: attempts => do
    post withdrawalId pesaAmount attempt
    postEach withdrawalId pesaAmount attempts

-- The requests of a payout are sent for a withdrawal one after another.
def initiateB2CPayout (cfg : Payout.Config) (env : Payout.Environment) (withdrawalId : String)
    (mlcnsAmount : ℚ) : Handler (Except Payout.PayoutError Payout.InitiatedPayout) := do
  match Payout.preparePayout cfg env mlcnsAmount with
  | .error error    => return .error error
  | .ok pesaAmount =>
    let (result, calls) := Payout.initiateB2CPayout cfg env mlcnsAmount
    postEach withdrawalId pesaAmount ((List.range calls).map env.provider)
    return result

end Payouts

end Cashout
