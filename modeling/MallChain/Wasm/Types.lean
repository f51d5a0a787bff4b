import MallChain.Lib.Effect
import MallChain.Lib.KVStore
import MallChain.Sdk.Bank

namespace Wasm

open Sdk

abbrev Bytes := List (Fin 256)

def ofNats (l : List ℕ) : Bytes :=
  (AccAddress.ofBytes l).bytes

-- `[]byte(s)`
def bytes (s : String) : Bytes :=
  ofNats (s.toUTF8.toList.map UInt8.toNat)

-- `string(b)`. No address has bytes that are not UTF-8, so that they may be any other string.
def ofBytes (b : Bytes) : String :=
  (String.fromUTF8? ⟨(b.map fun n => UInt8.ofNat n.val).toArray⟩).getD "\uFFFD"

-- A field of a decoded message. Its numbers are the float64 values that the decoder yields.
inductive JsonValue
  | string (s : String)
  | number (x : ℚ)
  | other
  deriving DecidableEq

namespace JsonValue

def asString : JsonValue → Option String
  | string s => some s
  | _        => none

def asNumber : JsonValue → Option ℚ
  | number x => some x
  | _        => none

end JsonValue

abbrev ActionMsg := String → Option JsonValue

structure ContractMetadata where
  codeID  : UInt64
  creator : String
  label   : String
  initMsg : Bytes
  admin   : String
  version : String
  deriving DecidableEq, Repr

structure GasConfig where
  defaultGasLimit   : UInt64
  instantiateCost   : UInt64
  executeBaseCost   : UInt64
  executeExportCost : UInt64
  queryCost         : UInt64
  perCallGasCost    : UInt64
  deriving DecidableEq, Repr

def defaultGasConfig : GasConfig where
  defaultGasLimit   := 100000
  instantiateCost   := 20000
  executeBaseCost   := 10000
  executeExportCost := 50000
  queryCost         := 5000
  perCallGasCost    := 10

def errInvalidRequest : String := "invalid request"
def errCodeNotFound : String := "code not found"
def errContractFailed : String := "contract execution failed"
def errUnauthorized : String := "unauthorized"

def wrap (err text : String) : Failure :=
  .error s!"{text}: {err}"

-- `collections.Join`
def join (contractAddr : String) (key : Bytes) : String ×ₗ Bytes :=
  toLex (contractAddr, key)

-- The collections of the module, and the tokens that the bridge moves.
structure State (τ : Type) where
  contractCode   : KVStore UInt64 Bytes := .empty
  contractCodeID : UInt64 := 0
  contracts      : KVStore String ContractMetadata := .empty
  contractSeq    : UInt64 := 0
  contractState  : KVStore (String ×ₗ Bytes) Bytes := .empty
  tokens         : τ

-- The gas meter of a transaction.
structure GasMeter where
  limit    : UInt64
  consumed : UInt64
  deriving DecidableEq, Repr

def GasMeter.gasConsumedToLimit (m : GasMeter) : UInt64 :=
  if m.consumed > m.limit then m.limit else m.consumed

def GasMeter.remaining (m : GasMeter) : UInt64 :=
  m.limit - m.gasConsumedToLimit

inductive Author
  | contract
  | host
  deriving DecidableEq, Repr

-- A value written under the address of a contract: by `db_write`, or by the keeper for itself.
structure Write where
  author   : Author
  contract : String
  key      : Bytes
  value    : Bytes
  deriving DecidableEq, Repr

-- A call of `db_read`, with all that was written before, the value that was found, and the pointer
-- that the contract got.
structure Read where
  contract : String
  key      : Bytes
  written  : List Write
  found    : Option Bytes
  pointer  : UInt32
  deriving DecidableEq, Repr

inductive GasEvent
  -- a run of the VM with the limit it was given, what the meter had left then, and what it used
  | ran (limit remaining used : UInt64)
  | consumed (amount : UInt64) (descriptor : String)
  deriving DecidableEq, Repr

-- The state that a message works on, its gas meter, and what happened so far, the latest first.
structure World (τ : Type) where
  state  : State τ
  meter  : GasMeter
  writes : List Write := []
  reads  : List Read := []
  gas    : List GasEvent := []

abbrev Action (τ α : Type) := Effect (World τ) Failure α

structure MGP20TransferMsg where
  fromAddr : String
  toAddr   : String
  amount   : UInt64

structure MGP20ApproveMsg where
  owner   : String
  spender : String
  amount  : UInt64

-- What a call of the bridge did to the tokens, what it consumed on the way, and what it returned.
structure Bridged (τ α : Type) where
  tokens : τ
  gas    : List UInt64
  result : Result α

structure WasmBridgeKeeper (τ : Type) where
  handleTransfer : MGP20TransferMsg → τ → GasMeter → Bridged τ Unit
  handleApprove  : MGP20ApproveMsg → τ → GasMeter → Bridged τ Unit
  queryBalance   : String → τ → GasMeter → Bridged τ UInt64

-- An access of the store of the module.
inductive Access
  | getCode (codeID : UInt64)
  | setCode (codeID : UInt64) (code : Bytes)
  | nextCodeID
  | setCodeID (codeID : UInt64)
  | getContract (contractAddr : String)
  | setContract (contractAddr : String) (contract : ContractMetadata)
  | nextContract
  | getContractState (contractAddr : String) (key : Bytes)
  | setContractState (contractAddr : String) (key value : Bytes)

-- A call into a contract until it returns, as the tree of all that it does on the way: the functions
-- that are entered, each of which learns whether the call is cancelled by now, and the host functions
-- that are called from the module, with what they answer.
inductive Behaviour (ι : Type)
  | returned (mod : ι) (results : List UInt64)
  | failed (mod : ι) (text : String)
  | entered (next : Bool → Behaviour ι)
  | dbWrite (mod : ι) (keyPtr keyLen valPtr valLen : UInt32) (next : Unit → Behaviour ι)
  | dbRead (mod : ι) (keyPtr keyLen : UInt32) (allocate : UInt64 → Behaviour ι)
      (next : ι → UInt32 → Behaviour ι)
  | getBalance (mod : ι) (addrPtr addrLen : UInt32) (next : UInt64 → Behaviour ι)
  | transfer (mod : ι) (toPtr toLen : UInt32) (amount : UInt64) (next : UInt32 → Behaviour ι)

-- The runtime: a compiled module is given by its instantiation, an instance by its memory and the
-- functions that it exports. The clock decides whether the timeout has passed.
structure Wazero (ι : Type) where
  compileModule    : Bytes → Except String (Behaviour ι)
  hostModule       : Except String Unit
  exportedFunction : ι → String → Option (List UInt64 → Behaviour ι)
  read             : ι → UInt32 → UInt32 → Option Bytes
  write            : ι → UInt32 → Bytes → Option ι
  readUint32Le     : ι → UInt32 → Option UInt32
  writeUint32Le    : ι → UInt32 → UInt32 → Option ι
  timedOut         : Bool

-- The store says what it charges for an access one after another, or that it panics.
structure Keeper (τ ι : Type) where
  accAddressFromBech32 : String → Except String AccAddress
  bech32               : AccAddress → String
  sum256               : Bytes → Bytes
  unmarshal            : Bytes → Except String ActionMsg
  uint64               : ℚ → UInt64
  access               : Access → State τ → Except String (List UInt64)
  wasmbridgeKeeper     : WasmBridgeKeeper τ
  runtime              : Wazero ι

end Wasm
