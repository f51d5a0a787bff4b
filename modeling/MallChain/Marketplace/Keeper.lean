import MallChain.Marketplace.Types

namespace Marketplace

open Sdk

def maxEscrowDescriptionLen : ℕ := 2000

namespace Keeper

-- What the bodies of the messages must look like.

def validateBasicCreateEscrow (k : Keeper) (msg : MsgCreateEscrow) : Result Unit := do
  let buyerAddr ← orFail (k.accAddressFromBech32 msg.buyer)
    (Error.invalidRequest.wrap "invalid buyer address")
  let sellerAddr ← orFail (k.accAddressFromBech32 msg.seller)
    (Error.invalidRequest.wrap "invalid seller address")
  failIf (buyerAddr = sellerAddr)
    (Error.invalidRequest.wrap "buyer and seller cannot be the same address")
  failIf (validDenom msg.denom = false) (Error.invalidRequest.wrap "invalid denom")
  let amount ← orFail (k.newIntFromString msg.amount)
    (Error.invalidRequest.wrap "invalid amount format")
  failIf (¬0 < amount) (Error.invalidRequest.wrap "amount must be positive")
  failIf (msg.description.utf8ByteSize > maxEscrowDescriptionLen)
    (Error.invalidRequest.wrap s!"description exceeds {maxEscrowDescriptionLen} characters")

-- The other messages name an escrow and the account that asks.
def validateBasic (k : Keeper) (escrowId account label : String) : Result Unit := do
  failIf (escrowId = "") (Error.invalidRequest.wrap "escrow_id cannot be empty")
  let _ ← orFail (k.accAddressFromBech32 account)
    (Error.invalidRequest.wrap s!"invalid {label} address")

def validateBasicReleaseFunds (k : Keeper) (msg : MsgReleaseFunds) : Result Unit :=
  k.validateBasic msg.escrowId msg.releaseBy "release_by"

def validateBasicRefundBuyer (k : Keeper) (msg : MsgRefundBuyer) : Result Unit :=
  k.validateBasic msg.escrowId msg.requestedBy "requested_by"

def validateBasicOpenDispute (k : Keeper) (msg : MsgOpenDispute) : Result Unit :=
  k.validateBasic msg.escrowId msg.opener "opener"

end Keeper

-- `fmt.Sprintf("%s-%d-%d-%d", …)`
def escrowID (ctx : Context) (buyer : String) (seq : ℕ) : String :=
  s!"{buyer}-{ctx.blockHeight.toInt}-{(Context.unixNano ctx.blockTime).toInt}-{seq}"

namespace Keeper

def createEscrow (k : Keeper) (ctx : Context) (buyer seller amount denom description : String)
    (disputeWindowSeconds : UInt64) (s : State) : Result (State × String) := do
  let amountInt ← orFail (k.newIntFromString amount)
    (Error.invalidAmount.wrap "invalid amount format")
  failIf (amountInt < 0 ∨ amountInt = 0) (Error.invalidAmount.wrap "amount must be positive")
  let buyerAddr ← orFail (k.accAddressFromBech32 buyer)
    (Error.invalidAmount.wrap "invalid buyer address")
  let _ ← orFail (k.accAddressFromBech32 seller)
    (Error.invalidAmount.wrap "invalid seller address")
  failIf (validDenom denom = false) (Error.invalidAmount.wrap "invalid denom")
  let coins ← Coins.new [← Coin.new denom amountInt]
  let bank ← Error.insufficientBalance.wrapErr <| s.bank.sendCoins buyerAddr k.moduleAddr coins
  let id := escrowID ctx buyer s.escrowSeq
  let escrow : Escrow := {
    id            := id
    buyer         := buyer
    seller        := seller
    amount        := amount
    denom         := denom
    description   := description
    status        := .held
    lockedFunds   := amount
    createdAt     := Context.unix ctx.blockTime
    releaseTime   := 0
    disputeWindow := disputeWindowSeconds.toInt64
  }
  let s' : State := {
    bank      := bank
    escrows   := s.escrows.set id escrow
    escrowSeq := s.escrowSeq + 1
  }
  return (s', id)

-- The second half of `ReleaseFunds` and `RefundBuyer`: the status is final before the payment, and
-- held again when the payment fails.
def payOut (k : Keeper) (escrowID : String) (escrow : Escrow) (status : Status) (recipient : String)
    (s : State) : Result (State × Option Failure) := do
  let s := { s with escrows := s.escrows.set escrowID { escrow with status } }
  let amountInt ← orFail (k.newIntFromString escrow.amount) (.panic "amount is nil")
  let coins ← Coins.new [← Coin.new escrow.denom amountInt]
  match k.accAddressFromBech32 recipient with
  | none => return (s, some (.error "decoding bech32 failed"))
  | some addr =>
    match s.bank.sendCoinsFromModuleToAccount k.moduleAddr addr coins with
    | .ok bank => return ({ s with bank }, none)
    | .error (.error text) =>
      let escrows := s.escrows.set escrowID { escrow with status := .held }
      return ({ s with escrows }, some (.error text))
    | .error (.panic text) => .error (.panic text)

def releaseFunds (k : Keeper) (ctx : Context) (escrowID releaseBy : String) (s : State) :
    Result (State × Option Failure) := do
  let escrow ← orFail (s.escrows.get escrowID)
    (Error.escrowNotFound.wrap s!"escrow {escrowID} not found")
  failIf (releaseBy ≠ escrow.buyer)
    (Error.unauthorized.wrap "only the escrow's buyer can release funds")
  failIf (escrow.status ≠ .held ∧ escrow.status ≠ .disputed)
    (Error.invalidStatus.wrap "escrow not in releasable state")
  failIf (escrow.status = .released ∨ escrow.status = .refunded)
    (Error.alreadyResolved.wrap "escrow already resolved")
  failIf (escrow.status = .disputed ∧ 0 < escrow.releaseTime ∧
      Context.unix ctx.blockTime < escrow.releaseTime)
    (Error.disputePeriodPassed.wrap "dispute resolution period not yet elapsed")
  k.payOut escrowID escrow .released escrow.seller s

def refundBuyer (k : Keeper) (escrowID requestedBy : String) (s : State) :
    Result (State × Option Failure) := do
  let escrow ← orFail (s.escrows.get escrowID)
    (Error.escrowNotFound.wrap s!"escrow {escrowID} not found")
  failIf (requestedBy ≠ escrow.seller)
    (Error.unauthorized.wrap "only the escrow's seller can approve a refund")
  failIf (escrow.status = .released ∨ escrow.status = .refunded)
    (Error.alreadyResolved.wrap "escrow already resolved")
  k.payOut escrowID escrow .refunded escrow.buyer s

def openDispute (ctx : Context) (escrowID opener : String) (s : State) : Result State := do
  let escrow ← orFail (s.escrows.get escrowID)
    (Error.escrowNotFound.wrap s!"escrow {escrowID} not found")
  failIf (opener ≠ escrow.buyer) (Error.unauthorized.wrap "only buyer can open dispute")
  failIf (escrow.status ≠ .held) (Error.invalidStatus.wrap "escrow not in held state")
  -- a duration is a 64-bit number of nanoseconds
  let window : Int64 := escrow.disputeWindow * 1000000000
  let releaseTime := Context.unix (ctx.blockTime + window.toInt)
  let escrow := { escrow with status := .disputed, releaseTime }
  return { s with escrows := s.escrows.set escrowID escrow }

end Keeper

namespace MsgServer

def createEscrow (k : Keeper) (ctx : Context) (msg : MsgCreateEscrow) (s : State) :
    Result (State × String) := do
  k.validateBasicCreateEscrow msg
  k.createEscrow ctx msg.buyer msg.seller msg.amount msg.denom msg.description
    msg.disputeWindowSeconds s

def releaseFunds (k : Keeper) (ctx : Context) (msg : MsgReleaseFunds) (s : State) :
    Result (State × Option Failure) := do
  k.validateBasicReleaseFunds msg
  k.releaseFunds ctx msg.escrowId msg.releaseBy s

def refundBuyer (k : Keeper) (msg : MsgRefundBuyer) (s : State) :
    Result (State × Option Failure) := do
  k.validateBasicRefundBuyer msg
  k.refundBuyer msg.escrowId msg.requestedBy s

def openDispute (k : Keeper) (ctx : Context) (msg : MsgOpenDispute) (s : State) : Result State := do
  k.validateBasicOpenDispute msg
  Keeper.openDispute ctx msg.escrowId msg.opener s

end MsgServer

end Marketplace
