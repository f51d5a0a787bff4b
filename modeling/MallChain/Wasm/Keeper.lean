import MallChain.Lib.Transition
import MallChain.Wasm.Vm

namespace Wasm

open Sdk

variable {τ ι : Type}

-- The keys that the keeper writes under the address of a contract.
def adminKey : Bytes := bytes "admin"
def lastActionKey : Bytes := bytes "last_action"

-- `binary.BigEndian.PutUint64`
def bigEndian (n : UInt64) : Bytes :=
  ofNats ((List.range 8).map fun i => n.toNat / 256 ^ (7 - i))

def modifyState (f : State τ → State τ) : Action τ Unit :=
  Effect.modify fun w => { w with state := f w.state }

namespace Keeper

variable (k : Keeper τ ι)

def nextCodeID : Action τ UInt64 := do
  k.charge .nextCodeID
  let codeID ← Effect.asks fun w => w.state.contractCodeID
  modifyState fun s => { s with contractCodeID := codeID + 1 }
  return codeID

def setCodeID (codeID : UInt64) : Action τ Unit := do
  k.charge (.setCodeID codeID)
  modifyState fun s => { s with contractCodeID := codeID }

def setCode (codeID : UInt64) (code : Bytes) : Action τ Unit := do
  k.charge (.setCode codeID code)
  modifyState fun s => { s with contractCode := s.contractCode.set codeID code }

def nextContract : Action τ UInt64 := do
  k.charge .nextContract
  let seq ← Effect.asks fun w => w.state.contractSeq
  modifyState fun s => { s with contractSeq := seq + 1 }
  return seq

def setContract (contractAddr : String) (contract : ContractMetadata) : Action τ Unit := do
  k.charge (.setContract contractAddr contract)
  modifyState fun s => { s with contracts := s.contracts.set contractAddr contract }

-- Ids start at one.
def firstCodeID (codeID : UInt64) : Action τ UInt64 :=
  if codeID = 0 then do
    k.setCodeID 2
    return 1
  else return codeID

def storeCode (wasmCode : Bytes) : Action τ UInt64 := do
  let next ← k.nextCodeID
  let codeID ← k.firstCodeID next
  .lift (failIf (wasmCode.length = 0) (wrap errInvalidRequest "contract code is empty"))
  k.setCode codeID wasmCode
  return codeID

def generateContractAddress (sender : String) : Action τ String := do
  let seq ← k.nextContract
  let senderAddr ← .lift ((k.accAddressFromBech32 sender).mapError .error)
  let hash := k.sum256 (bytes "mallchain/wasm" ++ senderAddr.bytes ++ bigEndian seq)
  return k.bech32 ⟨hash.take 20⟩

def runVm (c : VmCall) : Action τ VmResult := fun w =>
  (.ok (k.call c w).1, (k.call c w).2)

-- The error of the setter is dropped by the caller, its panic is not.
def setAdmin (contractAddr sender : String) : Action τ Unit :=
  k.setContractState .host contractAddr adminKey (bytes sender)

-- The part of `InstantiateContract` before the run.
def prepareInstantiation (sender : String) (codeID : UInt64) (label : String) (initMsg : Bytes) :
    Action τ VmCall := do
  let wasmBytes ← k.getCode codeID "code not found"
  let contractAddr ← k.generateContractAddress sender
  k.setContract contractAddr {
    codeID, creator := sender, label, initMsg, admin := sender, version := "1.0.0"
  }
  k.setAdmin contractAddr sender
  return {
    wasmBytes, contractAddr, sender
    entrypoint     := "_instantiate"
    msg            := initMsg
    gasLimit       := defaultGasConfig.defaultGasLimit
    baseCost       := defaultGasConfig.instantiateCost
    entrypointCost := 0
  }

-- What the run used is not asked for.
def instantiateContract (sender : String) (codeID : UInt64) (label : String) (initMsg : Bytes) :
    Action τ String := do
  let c ← k.prepareInstantiation sender codeID label initMsg
  let r ← k.runVm c
  let _ ← .lift (r.output.mapError fun text => .error s!"failed to initialize WASM contract: {text}")
  return c.contractAddr

def isContractAdmin (contractAddr sender : String) : Action τ Bool := do
  let admin ← k.getContractState contractAddr adminKey
  return admin.getD [] = bytes sender

def authorizeAction (contractAddr sender action : String) : Action τ Unit := do
  let contract ← k.getContract contractAddr
  if ← k.isContractAdmin contractAddr sender then return ()
  .lift (failIf (¬(contract.creator = sender ∨ action = "transfer" ∨ action = "approve"))
    (wrap errUnauthorized "sender not authorized for action"))

def setExecutionResult (contractAddr : String) (key : Bytes) (value : String) : Action τ Unit :=
  k.setContractState .host contractAddr key (bytes value)

-- The limit that a message asks for.
def requestedGasLimit (actionMsg : ActionMsg) : UInt64 :=
  match (actionMsg "gas_limit").bind JsonValue.asNumber with
  | some gl => k.uint64 gl
  | none    => defaultGasConfig.defaultGasLimit

def stringField (actionMsg : ActionMsg) (key : String) : String :=
  ((actionMsg key).bind JsonValue.asString).getD ""

def amountField (actionMsg : ActionMsg) : UInt64 :=
  k.uint64 (((actionMsg "amount").bind JsonValue.asNumber).getD 0)

def executeTransfer (sender : String) (actionMsg : ActionMsg) : Action τ Bytes := do
  bridge (k.wasmbridgeKeeper.handleTransfer {
    fromAddr := sender
    toAddr   := stringField actionMsg "to"
    amount   := k.amountField actionMsg
  })
  return bytes "transfer_executed"

def executeApprove (sender : String) (actionMsg : ActionMsg) : Action τ Bytes := do
  bridge (k.wasmbridgeKeeper.handleApprove {
    owner   := sender
    spender := stringField actionMsg "spender"
    amount  := k.amountField actionMsg
  })
  return bytes "approve_executed"

def wasmExecuteDescriptor : String := "wasm execute"

def consumeSDKGas (gasUsed : UInt64) : Action τ Unit := do
  if gasUsed = 0 then return ()
  let remaining ← Effect.asks fun w => w.meter.remaining
  .lift (failIf (gasUsed > remaining) (wrap errContractFailed "out of gas"))
  consumeGas gasUsed wasmExecuteDescriptor

-- The part of `executeWASMRaw` before the run.
def prepareWASMRaw (contract : ContractMetadata) (contractAddr sender : String) (msg : Bytes)
    (gasLimit : UInt64) : Action τ VmCall := do
  let wasmBytes ← k.getCode contract.codeID
    s!"collections: not found: key '{contract.codeID}' of type bytes"
  return {
    wasmBytes, msg, contractAddr, sender, gasLimit
    entrypoint     := "_execute"
    baseCost       := defaultGasConfig.executeBaseCost
    entrypointCost := defaultGasConfig.executeExportCost
  }

def executeWASMRaw (contract : ContractMetadata) (contractAddr sender : String) (msg : Bytes)
    (gasLimit : UInt64) : Action τ Bytes := do
  let c ← k.prepareWASMRaw contract contractAddr sender msg gasLimit
  let r ← k.runVm c
  let result ← .lift (r.output.mapError .error)
  consumeSDKGas r.gasUsed
  return result

-- The part of `ExecuteContract` before the actions.
def prepareExecution (sender contractAddr : String) (msg : Bytes) :
    Action τ (ContractMetadata × ActionMsg × String × UInt64) := do
  let contract ← k.getContract contractAddr
  let actionMsg ← .lift ((k.unmarshal msg).mapError .error)
  let action ← .lift (orFail ((actionMsg "action").bind JsonValue.asString)
    (wrap errInvalidRequest "missing action field"))
  k.authorizeAction contractAddr sender action
  k.setExecutionResult contractAddr lastActionKey action
  return (contract, actionMsg, action, k.requestedGasLimit actionMsg)

def executeContract (sender contractAddr : String) (msg : Bytes) : Action τ Bytes := do
  let (contract, actionMsg, action, gasLimit) ← k.prepareExecution sender contractAddr msg
  match action with
  | "transfer"     => k.executeTransfer sender actionMsg
  | "approve"      => k.executeApprove sender actionMsg
  | "wasm_execute" => k.executeWASMRaw contract contractAddr sender msg gasLimit
  | _              => .fail (wrap errContractFailed "unknown action")

end Keeper

inductive Msg
  | storeCode (sender : String) (wasmCode : Bytes)
  | instantiateContract (sender : String) (codeID : UInt64) (label : String) (initMsg : Bytes)
  | executeContract (sender contractAddr : String) (msg : Bytes)
  deriving DecidableEq, Repr

inductive Response
  | storeCode (codeID : UInt64)
  | instantiateContract (contractAddr : String)
  | executeContract (data : Bytes)
  deriving DecidableEq, Repr

def Keeper.handle (k : Keeper τ ι) : Msg → Action τ Response
  | .storeCode _ wasmCode => .storeCode <$> k.storeCode wasmCode
  | .instantiateContract sender codeID label initMsg =>
    .instantiateContract <$> k.instantiateContract sender codeID label initMsg
  | .executeContract sender contractAddr msg =>
    .executeContract <$> k.executeContract sender contractAddr msg

-- A transaction with the meter that its checks before the messages leave. It runs in a block and at
-- a time of its own, so that the keeper is part of it.
structure Tx (τ ι : Type) where
  keeper : Keeper τ ι
  meter  : GasMeter
  msgs   : List Msg

def Tx.runMsgs (tx : Tx τ ι) : Action τ Unit :=
  tx.msgs.forM fun msg => do let _ ← tx.keeper.handle msg

-- What a failed transaction wrote is undone. What was read and consumed has happened.
def Tx.deliver (tx : Tx τ ι) (w : World τ) : World τ :=
  match tx.runMsgs { w with meter := tx.meter } with
  | (.ok _, w')    => w'
  | (.error _, w') => { w' with state := w.state, writes := w.writes }

inductive Step (τ ι : Type)
  | deliver (tx : Tx τ ι)
  -- another module moves tokens
  | elsewhere (tokens : τ)

def Step.apply : Step τ ι → World τ → World τ
  | .deliver tx, w       => tx.deliver w
  | .elsewhere tokens, w => { w with state := { w.state with tokens := tokens } }

-- The chain from a state in which no contract has written anything yet.
def chain (τ ι : Type) : TransitionSystem (World τ) (Step τ ι) where
  init w      := w.state.contractState = .empty ∧ w.writes = [] ∧ w.reads = []
  step w a w' := w' = a.apply w

end Wasm
