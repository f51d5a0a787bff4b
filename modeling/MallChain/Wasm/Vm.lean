import MallChain.Wasm.Types

namespace Wasm

open Sdk

variable {τ ι α : Type}

-- `ConsumeGas`
def consumeGas (amount : UInt64) (descriptor : String) : Action τ Unit := fun w =>
  let gas := .consumed amount descriptor :: w.gas
  if 2 ^ 64 ≤ w.meter.consumed.toNat + amount.toNat then
    (.error (.panic "gas overflow"),
      { w with meter := { w.meter with consumed := UInt64.ofNat (2 ^ 64 - 1) }, gas := gas })
  else
    let meter : GasMeter := { w.meter with consumed := w.meter.consumed + amount }
    (if meter.consumed > meter.limit then .error (.panic "out of gas") else .ok (),
      { w with meter := meter, gas := gas })

-- What the store consumes is never charged under the descriptor of a run.
def storeDescriptor : String := "store"

def bridgeDescriptor : String := "bridge"

-- A call of the bridge keeper. What it has written stays when it fails on the way.
def bridge (call : τ → GasMeter → Bridged τ α) : Action τ α := fun w =>
  let b := call w.state.tokens w.meter
  (do b.gas.forM (consumeGas · bridgeDescriptor); .lift b.result : Action τ α)
    { w with state := { w.state with tokens := b.tokens } }

def recordWrite (x : Write) (w : World τ) : World τ :=
  { w with
    state  := { w.state with
      contractState := w.state.contractState.set (join x.contract x.key) x.value
    }
    writes := x :: w.writes
  }

def recordRead (contract : String) (key : Bytes) (written : List Write) (found : Option Bytes)
    (pointer : UInt32) (w : World τ) : World τ :=
  { w with reads := { contract, key, written, found, pointer } :: w.reads }

namespace Keeper

variable (k : Keeper τ ι)

def charge (a : Access) : Action τ Unit := fun w =>
  match k.access a w.state with
  | .error text  => (.error (.panic text), w)
  | .ok amounts  => amounts.forM (consumeGas · storeDescriptor) w

def getCode (codeID : UInt64) (notFound : String) : Action τ Bytes := do
  k.charge (.getCode codeID)
  let code ← Effect.asks fun w => w.state.contractCode.get codeID
  .lift (orFail code (wrap errCodeNotFound notFound))

def getContract (contractAddr : String) : Action τ ContractMetadata := do
  k.charge (.getContract contractAddr)
  let contract ← Effect.asks fun w => w.state.contracts.get contractAddr
  .lift (orFail contract (wrap errCodeNotFound "contract not found"))

-- The author is kept for the record only.
def setContractState (author : Author) (contractAddr : String) (key value : Bytes) :
    Action τ Unit := do
  k.charge (.setContractState contractAddr key value)
  Effect.modify (recordWrite { author, contract := contractAddr, key, value })

def getContractState (contractAddr : String) (key : Bytes) : Action τ (Option Bytes) := do
  k.charge (.getContractState contractAddr key)
  Effect.asks fun w => w.state.contractState.get (join contractAddr key)

end Keeper

structure HostEnvironment where
  contractAddr : String
  sender       : String
  deriving DecidableEq, Repr

namespace HostEnvironment

variable (h : HostEnvironment) (k : Keeper τ ι)

def storageGet (key : Bytes) : Action τ (Option Bytes) :=
  k.getContractState h.contractAddr key

def storageSet (key value : Bytes) : Action τ Unit :=
  k.setContractState .contract h.contractAddr key value

def mgp20Transfer (toAddr : String) (amount : UInt64) : Action τ Unit :=
  bridge (k.wasmbridgeKeeper.handleTransfer { fromAddr := h.contractAddr, toAddr, amount })

def mgp20QueryBalance (_ : HostEnvironment) (address : String) : Action τ UInt64 :=
  bridge (k.wasmbridgeKeeper.queryBalance address)

end HostEnvironment

-- The gas meter of a run.
structure VmMeter where
  limit   : UInt64
  used    : UInt64 := 0
  perCall : UInt64
  aborted : Bool := false
  deriving DecidableEq, Repr

def VmMeter.before (g : VmMeter) : VmMeter :=
  let used := g.used + g.perCall
  { g with used := used, aborted := if used > g.limit then true else g.aborted }

-- How a call into a module ends, with the module and the meter as they are then.
structure Called (ι : Type) where
  result : Except String (List UInt64)
  mod    : ι
  meter  : VmMeter

-- A host function goes on after an error. The runtime turns its panic into an error of the call.
def answer (onError : α) (m : Action τ α) (w : World τ) : Except String α × World τ :=
  match m w with
  | (.ok a, w)                => (.ok a, w)
  | (.error (.error _), w)    => (.ok onError, w)
  | (.error (.panic text), w) => (.error text, w)

namespace Keeper

variable (k : Keeper τ ι)

-- The part of `writeRegion` after the call of the allocator.
def fillRegion (c : Called ι) (data : Bytes) : ι × Except String UInt32 :=
  match c.result with
  | .error text => (c.mod, .error s!"allocate call failed: {text}")
  | .ok []      => (c.mod, .error "allocate returned no result")
  | .ok (r :: _) =>
    let ptr := r.toUInt32
    match k.runtime.writeUint32Le c.mod ptr (UInt32.ofNat data.length) with
    | none     => (c.mod, .error s!"failed to write region length at {ptr}")
    | some mod =>
      if data.length = 0 then (mod, .ok ptr)
      else match k.runtime.write mod (ptr + 4) data with
        | none     => (mod, .error s!"failed to write region data at {ptr + 4} (len {data.length})")
        | some mod => (mod, .ok ptr)

end Keeper

namespace Behaviour

-- The call with the host functions of the environment.
def run (k : Keeper τ ι) (h : HostEnvironment) :
    Behaviour ι → VmMeter → World τ → Called ι × World τ
  | .returned mod results, g, w => ({ result := .ok results, mod, meter := g }, w)
  | .failed mod text, g, w => ({ result := .error text, mod, meter := g }, w)
  | .entered next, g, w => (next g.before.aborted).run k h g.before w
  | .dbWrite mod keyPtr keyLen valPtr valLen next, g, w =>
    match k.runtime.read mod keyPtr keyLen, k.runtime.read mod valPtr valLen with
    | some key, some val =>
      match answer () (h.storageSet k key val) w with
      | (.ok u, w)       => (next u).run k h g w
      | (.error text, w) => ({ result := .error text, mod, meter := g }, w)
    | _, _ => (next ()).run k h g w
  | .dbRead mod keyPtr keyLen allocate next, g, w =>
    match k.runtime.read mod keyPtr keyLen with
    | none     => (next mod 0).run k h g w
    | some key =>
      match answer none (h.storageGet k key) w with
      | (.error text, w)   => ({ result := .error text, mod, meter := g }, w)
      | (.ok none, w)      =>
        (next mod 0).run k h g (recordRead h.contractAddr key w.writes none 0 w)
      | (.ok (some val), w) =>
        match k.runtime.exportedFunction mod "allocate" with
        | none   => (next mod 0).run k h g (recordRead h.contractAddr key w.writes (some val) 0 w)
        | some _ =>
          -- the allocator belongs to the contract and may call host functions in its turn
          let (c, w') := (allocate (UInt64.ofNat (4 + val.length))).run k h g w
          let (mod, region) := k.fillRegion c val
          let ptr := match region with
            | .ok ptr  => ptr
            | .error _ => 0
          (next mod ptr).run k h c.meter (recordRead h.contractAddr key w.writes (some val) ptr w')
  | .getBalance mod addrPtr addrLen next, g, w =>
    match k.runtime.read mod addrPtr addrLen with
    | none      => (next 0).run k h g w
    | some addr =>
      match answer 0 (h.mgp20QueryBalance k (ofBytes addr)) w with
      | (.ok balance, w) => (next balance).run k h g w
      | (.error text, w) => ({ result := .error text, mod, meter := g }, w)
  | .transfer mod toPtr toLen amount next, g, w =>
    match k.runtime.read mod toPtr toLen with
    | none   => (next 1).run k h g w
    | some addr =>
      match answer 1 (do h.mgp20Transfer k (ofBytes addr) amount; return 0) w with
      | (.ok status, w)  => (next status).run k h g w
      | (.error text, w) => ({ result := .error text, mod, meter := g }, w)

end Behaviour

def maxWasmCodeSize : ℕ := 256 * 1024

def validateWasmCode (wasmBytes : Bytes) : Except String Unit :=
  if wasmBytes.length = 0 then .error "contract code is empty"
  else if wasmBytes.length > maxWasmCodeSize then
    .error s!"contract code exceeds maximum size: {wasmBytes.length} > {maxWasmCodeSize} bytes"
  else .ok ()

structure VmResult where
  output  : Except String Bytes
  gasUsed : UInt64

structure VmCall where
  wasmBytes      : Bytes
  entrypoint     : String
  msg            : Bytes
  contractAddr   : String
  sender         : String
  gasLimit       : UInt64
  baseCost       : UInt64
  entrypointCost : UInt64

namespace Keeper

variable (k : Keeper τ ι)

def readRegion (mod : ι) (ptr : UInt32) : Except String Bytes :=
  if ptr = 0 then .ok []
  else match k.runtime.readUint32Le mod ptr with
    | none        => .error s!"failed to read region length at {ptr}"
    | some length =>
      if length = 0 then .ok []
      else match k.runtime.read mod (ptr + 4) length with
        | none      => .error s!"failed to read region data at {ptr + 4} (len {length})"
        | some data => .ok data

-- The part of `writeRawBytes` after the call of the allocator.
def fillRawBytes (c : Called ι) (data : Bytes) : ι × Except String UInt32 :=
  match c.result with
  | .error text => (c.mod, .error s!"allocate call failed: {text}")
  | .ok []      => (c.mod, .error "allocate returned no result")
  | .ok (r :: _) =>
    let ptr := r.toUInt32
    if data.length = 0 then (c.mod, .ok ptr)
    else match k.runtime.write c.mod ptr data with
      | none     => (c.mod, .error s!"failed to write input data at {ptr} (len {data.length})")
      | some mod => (mod, .ok ptr)

def writeRawBytes (h : HostEnvironment) (mod : ι) (data : Bytes) (g : VmMeter) (w : World τ) :
    (ι × Except String UInt32) × VmMeter × World τ :=
  match k.runtime.exportedFunction mod "allocate" with
  | none => ((mod, .error "contract does not export allocate(size:i32)->i32"), g, w)
  | some allocate =>
    let (c, w) := (allocate [UInt64.ofNat data.length]).run k h g w
    (k.fillRawBytes c data, c.meter, w)

def outOfGas (g : VmMeter) : String :=
  s!"wasm out of gas: used {g.used}, limit {g.limit}"

-- The error of a call into the module.
def runError (g : VmMeter) (text : String) : String :=
  if g.aborted then outOfGas g
  else if k.runtime.timedOut then "wasm execution timed out"
  else text

-- The part of `call` from the entry point on.
def invoke (c : VmCall) (mod : ι) (g : VmMeter) (w : World τ) : VmResult × World τ :=
  let h : HostEnvironment := { contractAddr := c.contractAddr, sender := c.sender }
  match k.runtime.exportedFunction mod c.entrypoint with
  | none =>
    ({ output  := .error s!"contract does not export {c.entrypoint}(msg_ptr:i32,msg_len:i32)->i32"
       gasUsed := g.used }, w)
  | some fn =>
    let g := { g with used := g.used + c.entrypointCost }
    if g.used > g.limit then ({ output := .error (outOfGas g), gasUsed := g.used }, w)
    else match k.writeRawBytes h mod c.msg g w with
      | ((_, .error text), g, w) =>
        ({ output := .error s!"failed to pass input to contract: {text}", gasUsed := g.used }, w)
      | ((_, .ok msgPtr), g, w) =>
        let (r, w) := (fn [msgPtr.toUInt64, UInt64.ofNat c.msg.length]).run k h g w
        let output := match r.result with
          | .error text =>
            .error (k.runError r.meter s!"contract {c.entrypoint} failed: {text}")
          | .ok []       => .ok []
          | .ok (p :: _) =>
            (k.readRegion r.mod p.toUInt32).mapError (s!"failed to read contract result: {·}")
        ({ output, gasUsed := r.meter.used }, w)

-- The meter of a run with the flat cost charged up front.
def startMeter (c : VmCall) : VmMeter where
  limit   := c.gasLimit
  used    := c.baseCost
  perCall := defaultGasConfig.perCallGasCost

-- `call` without the record of the run.
def callUnrecorded (c : VmCall) (w : World τ) : VmResult × World τ :=
  let h : HostEnvironment := { contractAddr := c.contractAddr, sender := c.sender }
  match validateWasmCode c.wasmBytes with
  | .error text => ({ output := .error text, gasUsed := 0 }, w)
  | .ok () =>
    let g := startMeter c
    if g.used > g.limit then ({ output := .error (outOfGas g), gasUsed := g.used }, w)
    else match k.runtime.compileModule c.wasmBytes with
      | .error text =>
        ({ output := .error s!"failed to compile contract: {text}", gasUsed := g.used }, w)
      | .ok compiled =>
        match k.runtime.hostModule with
        | .error text =>
          ({ output := .error s!"failed to build host module: {text}", gasUsed := g.used }, w)
        | .ok () =>
          match compiled.run k h g w with
          | ({ result := .error text, mod := _, meter := g }, w) =>
            ({ output  := .error (k.runError g s!"failed to instantiate contract: {text}")
               gasUsed := g.used }, w)
          | ({ result := .ok _, mod, meter := g }, w) => k.invoke c mod g w

def call (c : VmCall) (w : World τ) : VmResult × World τ :=
  let (r, w') := k.callUnrecorded c w
  (r, { w' with gas := .ran c.gasLimit w.meter.remaining r.gasUsed :: w'.gas })

end Keeper

end Wasm
