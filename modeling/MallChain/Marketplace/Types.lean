import MallChain.Lib.KVStore
import MallChain.Sdk.Bank

namespace Marketplace

open Sdk

-- Nothing sets the status `pending`.
inductive Status
  | pending
  | held
  | released
  | disputed
  | refunded
  deriving DecidableEq, Repr

structure Escrow where
  id            : String
  buyer         : String
  seller        : String
  amount        : String
  denom         : String
  description   : String
  status        : Status
  lockedFunds   : String
  createdAt     : Int64
  releaseTime   : Int64
  disputeWindow : Int64
  deriving DecidableEq, Repr

-- The buyer or the seller may still get the funds.
def Escrow.live (e : Escrow) : Bool :=
  e.status ≠ .released && e.status ≠ .refunded

-- The registered errors of the module.
inductive Error
  | escrowNotFound
  | invalidAmount
  | invalidStatus
  | unauthorized
  | alreadyResolved
  | disputePeriodPassed
  | insufficientBalance
  | invalidRequest
  deriving DecidableEq, Repr

namespace Error

def text : Error → String
  | escrowNotFound => "escrow not found"
  | invalidAmount => "invalid amount"
  | invalidStatus => "invalid status transition"
  | unauthorized => "unauthorized"
  | alreadyResolved => "escrow already resolved"
  | disputePeriodPassed => "dispute period has passed"
  | insufficientBalance => "insufficient balance"
  | invalidRequest => "invalid request"

def wrap (e : Error) (text : String) : Failure :=
  .error s!"{text}: {e.text}"

-- The error of a call, wrapped. A panic goes through.
def wrapErr {α : Type} (e : Error) : Result α → Result α
  | .error (.error text) => .error (e.wrap text)
  | r => r

@[simp]
theorem wrapErr_eq_ok {α : Type} {e : Error} {r : Result α} {a : α} :
    e.wrapErr r = .ok a ↔ r = .ok a := by
  rcases r with (_ | _) | _ <;> simp [wrapErr]

end Error

structure MsgCreateEscrow where
  buyer                : String
  seller               : String
  amount               : String
  denom                : String
  description          : String
  disputeWindowSeconds : UInt64
  deriving DecidableEq, Repr

structure MsgReleaseFunds where
  escrowId  : String
  releaseBy : String
  deriving DecidableEq, Repr

structure MsgRefundBuyer where
  escrowId    : String
  requestedBy : String
  deriving DecidableEq, Repr

structure MsgOpenDispute where
  escrowId : String
  opener   : String
  deriving DecidableEq, Repr

-- The block in which a message runs. The time is in nanoseconds since 1970.
structure Context where
  blockHeight : Int64
  blockTime   : ℤ
  deriving DecidableEq, Repr

namespace Context

-- `Time.Unix`
def unix (t : ℤ) : Int64 :=
  .ofInt (t / 1000000000)

-- `Time.UnixNano`
def unixNano (t : ℤ) : Int64 :=
  .ofInt t

end Context

-- The collections of the module and the bank that it calls.
structure State where
  bank      : Bank
  escrows   : KVStore String Escrow
  escrowSeq : ℕ

def State.live (s : State) (id : String) : Bool :=
  (s.escrows.get id).any Escrow.live

-- The module account and the decoders of the SDK.
structure Keeper where
  moduleAddr           : AccAddress
  accAddressFromBech32 : String → Option AccAddress
  newIntFromString     : String → Option ℤ

end Marketplace
