import MallChain.Mlcoin.Transfer
import MallChain.Sdk.Json
import MallChain.Wasm.Types

namespace Wasmbridge

open Sdk Wasm

def errInvalidRequest : String := "invalid request"
def errUnauthorized : String := "unauthorized"

structure MGP20TransferFromMsg where
  owner     : String
  spender   : String
  recipient : String
  amount    : UInt64
  deriving DecidableEq, Repr

structure Keeper where
  addressCodec : String → Option AccAddress
  mlcoinKeeper : Option Mlcoin.Keeper

namespace Keeper

variable (k : Keeper) (ctx : Mlcoin.Context)

def validateAddress (address : String) : Result Unit := do
  failIf (address = "") (wrap Mlcoin.errInvalidRequest "address is required")
  failIf (k.addressCodec address = none) (.error "invalid address")

def mlcoin : Result Mlcoin.Keeper :=
  orFail k.mlcoinKeeper (wrap errInvalidRequest "mlcoin keeper not initialized")

def handleTransfer (msg : MGP20TransferMsg) (s : Mlcoin.State) : Result Mlcoin.State := do
  let mlcoin ← k.mlcoin
  k.validateAddress msg.fromAddr
  k.validateAddress msg.toAddr
  failIf (msg.amount = 0)
    (wrap Mlcoin.errInvalidRequest "transfer amount must be greater than zero")
  mlcoin.transfer ctx msg.fromAddr msg.toAddr msg.amount s

def handleApprove (msg : MGP20ApproveMsg) (s : Mlcoin.State) : Result Mlcoin.State := do
  let mlcoin ← k.mlcoin
  k.validateAddress msg.owner
  k.validateAddress msg.spender
  failIf (msg.amount = 0)
    (wrap Mlcoin.errInvalidRequest "approve amount must be greater than zero")
  mlcoin.approve msg.owner msg.spender msg.amount s

def handleTransferFrom (msg : MGP20TransferFromMsg) (s : Mlcoin.State) : Result Mlcoin.State := do
  let mlcoin ← k.mlcoin
  k.validateAddress msg.owner
  k.validateAddress msg.spender
  k.validateAddress msg.recipient
  failIf (msg.amount = 0)
    (wrap Mlcoin.errInvalidRequest "transfer amount must be greater than zero")
  mlcoin.transferFrom ctx msg.owner msg.spender msg.recipient msg.amount s

def queryBalance (address : String) (s : Mlcoin.State) : Result UInt64 := do
  let _ ← k.mlcoin
  k.validateAddress address
  return ((s.walletBalance.get address).map (·.balance)).getD 0

end Keeper

-- The fields of the action messages. The last field of a name counts, and null leaves it as it is.
section Decoding

def isField (name key : String) : Bool :=
  key.toList.map Char.toLower = name.toList

def decodeString (name : String) (o : JsonObject) : Result String :=
  o.foldlM (fun field (key, value) =>
    if isField name key then
      match value with
      | .null     => .ok field
      | .string s => .ok s
      | _         => .error (wrap errInvalidRequest s!"cannot unmarshal into field {name} of type string")
    else .ok field) ""

def decodeUint (name : String) (o : JsonObject) : Result UInt64 :=
  o.foldlM (fun field (key, value) =>
    if isField name key then
      match value with
      | .null     => .ok field
      | .number n =>
        orFail n.parseUint
          (wrap errInvalidRequest s!"cannot unmarshal number into field {name} of type uint64")
      | _         => .error (wrap errInvalidRequest s!"cannot unmarshal into field {name} of type uint64")
    else .ok field) 0

def decodeTransfer (o : JsonObject) : Result MGP20TransferMsg := do
  return {
    fromAddr := ← decodeString "from" o
    toAddr   := ← decodeString "to" o
    amount   := ← decodeUint "amount" o
  }

def decodeApprove (o : JsonObject) : Result MGP20ApproveMsg := do
  return {
    owner   := ← decodeString "owner" o
    spender := ← decodeString "spender" o
    amount  := ← decodeUint "amount" o
  }

def decodeTransferFrom (o : JsonObject) : Result MGP20TransferFromMsg := do
  return {
    owner     := ← decodeString "owner" o
    spender   := ← decodeString "spender" o
    recipient := ← decodeString "recipient" o
    amount    := ← decodeUint "amount" o
  }

end Decoding

-- `ExecuteAction`. Who spends must have signed.
def Keeper.executeAction (k : Keeper) (ctx : Mlcoin.Context) (sender action : String)
    (message : JsonObject) (s : Mlcoin.State) : Result Mlcoin.State :=
  match action with
  | "transfer" => do
    let msg ← decodeTransfer message
    failIf (sender ≠ msg.fromAddr) (wrap errUnauthorized
      s!"sender {sender} is not authorized to transfer from {msg.fromAddr}")
    k.handleTransfer ctx msg s
  | "approve" => do
    let msg ← decodeApprove message
    failIf (sender ≠ msg.owner) (wrap errUnauthorized
      s!"sender {sender} is not authorized to approve on behalf of {msg.owner}")
    k.handleApprove msg s
  | "transfer_from" => do
    let msg ← decodeTransferFrom message
    failIf (sender ≠ msg.spender) (wrap errUnauthorized
      s!"sender {sender} is not the approved spender {msg.spender}")
    k.handleTransferFrom ctx msg s
  | _ => .error (wrap errInvalidRequest s!"unknown action: {action}")

-- The bridge as the contracts of the wasm module see it. A call that fails may leave what it wrote
-- before, which its caller keeps or undoes.
def Keeper.interface (k : Keeper) (ctx : Mlcoin.Context) (leave : Mlcoin.State → Mlcoin.State) :
    WasmBridgeKeeper Mlcoin.State where
  handleTransfer msg s _ :=
    match k.handleTransfer ctx msg s with
    | .ok s'   => { tokens := s', gas := [], result := .ok () }
    | .error e => { tokens := leave s, gas := [], result := .error e }
  handleApprove msg s _ :=
    match k.handleApprove msg s with
    | .ok s'   => { tokens := s', gas := [], result := .ok () }
    | .error e => { tokens := leave s, gas := [], result := .error e }
  queryBalance address s _ :=
    { tokens := s, gas := [], result := k.queryBalance address s }

end Wasmbridge
