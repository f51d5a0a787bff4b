import MallChain.Wasm.Keeper

namespace Wasm

open Sdk Effect

variable {τ ι α : Type} {k : Keeper τ ι} {h : HostEnvironment} {I : World τ → Prop}

section Answer

variable {m : Action τ α} {onError a : α} {w w' : World τ} {r : Except String α}

theorem of_answer (ha : answer onError m w = (r, w')) : (m w).2 = w' := by
  cases hm : m w with
  | mk r₀ w₀ =>
    simp only [answer, hm] at ha
    cases r₀ with
    | ok a => exact (Prod.mk.inj ha).2
    | error e => cases e <;> exact (Prod.mk.inj ha).2

theorem answer_keeps (hm : Keeps I m) (hw : I w) (ha : answer onError m w = (r, w')) : I w' :=
  of_answer ha ▸ hm w hw

end Answer

-- What a property of the world must survive to survive the calls of a contract.
structure HostKeeps (k : Keeper τ ι) (h : HostEnvironment) (I : World τ → Prop) : Prop where
  set      : ∀ key val, Keeps I (h.storageSet k key val)
  get      : ∀ key, Keeps I (h.storageGet k key)
  balance  : ∀ addr, Keeps I (h.mgp20QueryBalance k addr)
  transfer : ∀ addr amount, Keeps I (h.mgp20Transfer k addr amount)
  read     : ∀ {key found w w₁ w₂ ptr}, I w → answer none (h.storageGet k key) w = (.ok found, w₁) →
    I w₂ → I (recordRead h.contractAddr key w₁.writes found ptr w₂)

namespace Behaviour

theorem run_keeps (hI : HostKeeps k h I) (b : Behaviour ι) {g : VmMeter} {w : World τ} (hw : I w) :
    I (b.run k h g w).2 := by
  induction b generalizing g w with
  | returned mod results => exact hw
  | failed mod text => exact hw
  | entered next ih =>
    rw [run]
    exact ih _ hw
  | dbWrite mod keyPtr keyLen valPtr valLen next ih =>
    rw [run]
    split
    case h_2 => exact ih _ hw
    case h_1 key val _ _ =>
      split
      case h_1 u w₁ ha => exact ih u (answer_keeps (hI.set key val) hw ha)
      case h_2 text w₁ ha => exact answer_keeps (hI.set key val) hw ha
  | dbRead mod keyPtr keyLen allocate next ih₁ ih₂ =>
    rw [run]
    split
    case h_1 => exact ih₂ _ _ hw
    case h_2 key _ =>
      split
      case h_1 text w₁ ha => exact answer_keeps (hI.get key) hw ha
      case h_2 w₁ ha =>
        have h₁ : I w₁ := answer_keeps (hI.get key) hw ha
        exact ih₂ _ _ (hI.read hw ha h₁)
      case h_3 val w₁ ha =>
        have h₁ : I w₁ := answer_keeps (hI.get key) hw ha
        split
        case h_1 => exact ih₂ _ _ (hI.read hw ha h₁)
        case h_2 => exact ih₂ _ _ (hI.read hw ha (ih₁ _ h₁))
  | getBalance mod addrPtr addrLen next ih =>
    rw [run]
    split
    case h_1 => exact ih _ hw
    case h_2 addr _ =>
      split
      case h_1 balance w₁ ha => exact ih _ (answer_keeps (hI.balance _) hw ha)
      case h_2 text w₁ ha => exact answer_keeps (hI.balance _) hw ha
  | transfer mod toPtr toLen amount next ih =>
    have ht (addr : String) : Keeps I (do h.mgp20Transfer k addr amount; return (0 : UInt32)) :=
      (hI.transfer addr amount).bind fun _ => Keeps.pure _
    rw [run]
    split
    case h_1 => exact ih _ hw
    case h_2 addr _ =>
      split
      case h_1 status w₁ ha => exact ih _ (answer_keeps (ht _) hw ha)
      case h_2 text w₁ ha => exact answer_keeps (ht _) hw ha

end Behaviour

namespace Keeper

-- The calls of the VM keep what the calls of the contract keep.
section Vm

variable {c : VmCall} (hI : HostKeeps k { contractAddr := c.contractAddr, sender := c.sender } I)

include hI

theorem writeRawBytes_keeps (mod : ι) (data : Bytes) (g : VmMeter) {w : World τ} (hw : I w) :
    I (k.writeRawBytes { contractAddr := c.contractAddr, sender := c.sender } mod data g w).2.2 := by
  rw [writeRawBytes]
  split
  case h_1 => exact hw
  case h_2 allocate _ => exact Behaviour.run_keeps hI _ hw

theorem invoke_keeps {mod : ι} {g : VmMeter} {w : World τ} (hw : I w) : I (k.invoke c mod g w).2 := by
  rw [invoke]
  split
  case h_1 => exact hw
  case h_2 fn _ =>
    dsimp only
    split_ifs
    case pos => exact hw
    case neg =>
      have hk := writeRawBytes_keeps hI mod c.msg { g with used := g.used + c.entrypointCost } hw
      split
      case h_1 hb =>
        rw [hb] at hk
        exact hk
      case h_2 hb =>
        rw [hb] at hk
        exact Behaviour.run_keeps hI _ hk

theorem callUnrecorded_keeps {w : World τ} (hw : I w) : I (k.callUnrecorded c w).2 := by
  rw [callUnrecorded]
  split
  case h_1 => exact hw
  case h_2 =>
    dsimp only
    split_ifs
    case pos => exact hw
    case neg =>
      split
      case h_1 => exact hw
      case h_2 compiled _ =>
        split
        case h_1 => exact hw
        case h_2 =>
          have hk := compiled.run_keeps hI (g := startMeter c) hw
          split
          case h_1 hr =>
            rw [hr] at hk
            exact hk
          case h_2 hr =>
            rw [hr] at hk
            exact invoke_keeps hI hk

end Vm

end Keeper

-- The keys under which the keeper writes for itself.
def hostKeys : List Bytes := [adminKey, lastActionKey]

theorem adminKey_mem : adminKey ∈ hostKeys := by
  simp [hostKeys]

theorem lastActionKey_mem : lastActionKey ∈ hostKeys := by
  simp [hostKeys]

-- What a property of the world must survive to survive all that is not charged for a run and leaves
-- the codes and the contracts alone.
structure Framed (I : World τ → Prop) : Prop where
  consume : ∀ {amount descriptor}, descriptor ≠ Keeper.wasmExecuteDescriptor →
    Keeps I (consumeGas amount descriptor)
  tokens  : ∀ {w tokens}, I w → I { w with state := { w.state with tokens } }
  write   : ∀ {w x}, I w → (x.author = .host → x.key ∈ hostKeys) → I (recordWrite x w)
  read    : ∀ {w w₁ contract key ptr}, I w → I w₁ → I
    (recordRead contract key w.writes (w.state.contractState.get (join contract key)) ptr w₁)

-- The same for what stores codes and contracts.
structure Indifferent (I : World τ → Prop) : Prop extends Framed I where
  other  : ∀ {w s}, I w → s.contractState = w.state.contractState → I { w with state := s }
  tokens := fun hw => other hw rfl

-- The computation fails only by a panic.
def OnlyPanics (m : Action τ α) : Prop :=
  ∀ w text, (m w).1 ≠ .error (.error text)

theorem consumeGas_onlyPanics {amount : UInt64} {descriptor : String} :
    OnlyPanics (consumeGas amount descriptor : Action τ Unit) := by
  intro w text
  rw [consumeGas]
  dsimp only
  split_ifs <;> simp

theorem OnlyPanics.forM {l : List α} {f : α → Action τ Unit} (h : ∀ a, OnlyPanics (f a)) :
    OnlyPanics (l.forM f) := by
  induction l with
  | nil => exact fun w text => by simp [pure_apply]
  | cons a l ih =>
    intro w text
    change (((f a) >>= fun _ => l.forM f) w).1 ≠ _
    cases hr : f a w with
    | mk r w₁ =>
      cases r with
      | ok u =>
        rw [bind_of_ok hr]
        exact ih w₁ text
      | error e =>
        rw [bind_of_error hr]
        have hp := h a w text
        rw [hr] at hp
        exact hp

namespace Keeper

theorem charge_onlyPanics (a : Access) : OnlyPanics (k.charge a) := by
  intro w text
  rw [charge]
  split
  case h_1 => simp
  case h_2 => exact OnlyPanics.forM (fun _ => consumeGas_onlyPanics) w text

theorem charge_keeps (hI : Framed I) (a : Access) : Keeps I (k.charge a) := by
  intro w hw
  rw [charge]
  split
  case h_1 => exact hw
  case h_2 => exact Keeps.forM (fun _ _ => hI.consume (by decide)) w hw

theorem bridge_keeps (hI : Framed I) {call : τ → GasMeter → Bridged τ α} : Keeps I (bridge call) := by
  intro w hw
  have hm : Keeps I (do
      (call w.state.tokens w.meter).gas.forM (consumeGas · bridgeDescriptor)
      .lift (call w.state.tokens w.meter).result : Action τ α) :=
    (Keeps.forM fun _ _ => hI.consume (by decide)).bind fun _ => Keeps.lift _
  exact hm _ (hI.tokens hw)

theorem setContractState_keeps (hI : Framed I) {author : Author} {contract : String}
    {key value : Bytes} (hkey : author = .host → key ∈ hostKeys) :
    Keeps I (k.setContractState author contract key value) :=
  (k.charge_keeps hI _).bind fun _ => Keeps.modify fun _ hw => hI.write hw hkey

theorem getContractState_keeps (hI : Framed I) {contract : String} {key : Bytes} :
    Keeps I (k.getContractState contract key) :=
  (k.charge_keeps hI _).bind fun _ => Keeps.asks _

theorem of_getContractState {contract : String} {key : Bytes} {w w₁ : World τ}
    {found : Option Bytes}
    (ha : answer none (k.getContractState contract key) w = (.ok found, w₁)) :
    found = w₁.state.contractState.get (join contract key) := by
  cases hc : k.charge (.getContractState contract key) w with
  | mk r w₀ =>
    have hp := k.charge_onlyPanics (.getContractState contract key) w
    rw [hc] at hp
    cases r with
    | ok u =>
      have hg : k.getContractState contract key w =
          (.ok (w₀.state.contractState.get (join contract key)), w₀) := by
        rw [getContractState, bind_of_ok hc]
        rfl
      simp only [answer, hg, Prod.mk.injEq, Except.ok.injEq] at ha
      rw [← ha.1, ← ha.2]
    | error e =>
      cases e with
      | error text => exact absurd rfl (hp text)
      | panic text =>
        have hg : k.getContractState contract key w = (.error (.panic text), w₀) :=
          bind_of_error hc
        simp [answer, hg] at ha

end Keeper

theorem Framed.hostKeeps (hI : Framed I) : HostKeeps k h I where
  set _ _      := k.setContractState_keeps hI (by simp)
  get _        := k.getContractState_keeps hI
  balance _    := Keeper.bridge_keeps hI
  transfer _ _ := Keeper.bridge_keeps hI
  read hw ha h₂ := by
    rw [k.of_getContractState ha]
    exact hI.read (answer_keeps (k.getContractState_keeps hI) hw ha) h₂

namespace Keeper

section Messages

variable (hI : Framed I)

include hI

theorem getCode_keeps {codeID : UInt64} {notFound : String} : Keeps I (k.getCode codeID notFound) :=
  (k.charge_keeps hI _).bind fun _ => (Keeps.asks _).bind fun _ => Keeps.lift _

theorem getContract_keeps {contract : String} : Keeps I (k.getContract contract) :=
  (k.charge_keeps hI _).bind fun _ => (Keeps.asks _).bind fun _ => Keeps.lift _

theorem authorizeAction_keeps {contract sender action : String} :
    Keeps I (k.authorizeAction contract sender action) := by
  have ha : Keeps I (k.isContractAdmin contract sender) :=
    (k.getContractState_keeps hI).bind fun _ => Keeps.pure _
  refine (k.getContract_keeps hI).bind fun _ => ha.bind fun admin => ?_
  exact Keeps.ite (fun _ => Keeps.pure ()) fun _ => Keeps.lift _

theorem prepareExecution_keeps {sender contract : String} {msg : Bytes} :
    Keeps I (k.prepareExecution sender contract msg) :=
  (k.getContract_keeps hI).bind fun _ => (Keeps.lift _).bind fun _ => (Keeps.lift _).bind fun _ =>
    (k.authorizeAction_keeps hI).bind fun _ =>
      (k.setContractState_keeps hI fun _ => lastActionKey_mem).bind fun _ => Keeps.pure _

theorem prepareWASMRaw_keeps {contract : ContractMetadata} {contractAddr sender : String}
    {msg : Bytes} {gasLimit : UInt64} :
    Keeps I (k.prepareWASMRaw contract contractAddr sender msg gasLimit) :=
  (k.getCode_keeps hI).bind fun _ => Keeps.pure _

theorem executeTransfer_keeps {sender : String} {actionMsg : ActionMsg} :
    Keeps I (k.executeTransfer sender actionMsg) :=
  (bridge_keeps hI).bind fun _ => Keeps.pure _

theorem executeApprove_keeps {sender : String} {actionMsg : ActionMsg} :
    Keeps I (k.executeApprove sender actionMsg) :=
  (bridge_keeps hI).bind fun _ => Keeps.pure _

end Messages

section Registration

variable (hI : Indifferent I)

include hI

theorem modifyState_keeps {f : State τ → State τ}
    (hf : ∀ s, (f s).contractState = s.contractState) : Keeps I (modifyState f) :=
  Keeps.modify fun w hw => hI.other hw (hf w.state)

theorem setCodeID_keeps {codeID : UInt64} : Keeps I (k.setCodeID codeID) :=
  (k.charge_keeps hI.toFramed _).bind fun _ => modifyState_keeps hI fun _ => rfl

theorem setCode_keeps {codeID : UInt64} {code : Bytes} : Keeps I (k.setCode codeID code) :=
  (k.charge_keeps hI.toFramed _).bind fun _ => modifyState_keeps hI fun _ => rfl

theorem setContract_keeps {contract : String} {record : ContractMetadata} :
    Keeps I (k.setContract contract record) :=
  (k.charge_keeps hI.toFramed _).bind fun _ => modifyState_keeps hI fun _ => rfl

theorem nextCodeID_keeps : Keeps I k.nextCodeID := by
  refine (k.charge_keeps hI.toFramed _).bind fun _ => (Keeps.asks _).bind fun codeID => ?_
  refine Keeps.bind ?_ fun _ => Keeps.pure codeID
  exact modifyState_keeps hI fun _ => rfl

theorem nextContract_keeps : Keeps I k.nextContract := by
  refine (k.charge_keeps hI.toFramed _).bind fun _ => (Keeps.asks _).bind fun seq => ?_
  refine Keeps.bind ?_ fun _ => Keeps.pure seq
  exact modifyState_keeps hI fun _ => rfl

theorem firstCodeID_keeps {codeID : UInt64} : Keeps I (k.firstCodeID codeID) := by
  refine Keeps.ite (fun _ => ?_) fun _ => Keeps.pure codeID
  exact (k.setCodeID_keeps hI).bind fun _ => Keeps.pure 1

theorem storeCode_keeps {code : Bytes} : Keeps I (k.storeCode code) :=
  (k.nextCodeID_keeps hI).bind fun _ => (k.firstCodeID_keeps hI).bind fun codeID =>
    (Keeps.lift _).bind fun _ => (k.setCode_keeps hI).bind fun _ => Keeps.pure codeID

theorem prepareInstantiation_keeps {sender label : String} {codeID : UInt64} {initMsg : Bytes} :
    Keeps I (k.prepareInstantiation sender codeID label initMsg) := by
  have hg : Keeps I (k.generateContractAddress sender) :=
    (k.nextContract_keeps hI).bind fun _ => (Keeps.lift _).bind fun _ => Keeps.pure _
  exact (k.getCode_keeps hI.toFramed).bind fun _ => hg.bind fun _ =>
    (k.setContract_keeps hI).bind fun _ => (k.setContractState_keeps hI.toFramed fun _ => adminKey_mem).bind fun _ =>
      Keeps.pure _

end Registration

end Keeper

-- What a property of the world must survive to survive the runs of contracts as well.
structure Undisturbed (I : World τ → Prop) : Prop extends Framed I where
  charge : ∀ {amount descriptor}, Keeps I (consumeGas amount descriptor)
  ran    : ∀ {w limit remaining used}, I w →
    I { w with gas := .ran limit remaining used :: w.gas }

-- The same for all that a message does.
structure Preserved (I : World τ → Prop) : Prop extends Indifferent I, Undisturbed I

namespace Keeper

section Handlers

variable (hI : Undisturbed I)

include hI

theorem runVm_keeps {c : VmCall} : Keeps I (k.runVm c) :=
  fun _ hw => hI.ran (k.callUnrecorded_keeps hI.hostKeeps hw)

theorem consumeSDKGas_keeps {gasUsed : UInt64} :
    Keeps I (consumeSDKGas gasUsed : Action τ Unit) := by
  rw [consumeSDKGas]
  refine Keeps.ite (fun _ => Keeps.pure ()) fun _ => ?_
  exact (Keeps.asks _).bind fun _ => (Keeps.lift _).bind fun _ => hI.charge

theorem executeWASMRaw_keeps {record : ContractMetadata} {contractAddr sender : String}
    {msg : Bytes} {gasLimit : UInt64} :
    Keeps I (k.executeWASMRaw record contractAddr sender msg gasLimit) :=
  (k.prepareWASMRaw_keeps hI.toFramed).bind fun _ => (k.runVm_keeps hI).bind fun _ =>
    (Keeps.lift _).bind fun _ => (consumeSDKGas_keeps hI).bind fun _ => Keeps.pure _

theorem executeContract_keeps {sender contractAddr : String} {msg : Bytes} :
    Keeps I (k.executeContract sender contractAddr msg) := by
  refine (k.prepareExecution_keeps hI.toFramed).bind fun e => ?_
  obtain ⟨record, actionMsg, action, gasLimit⟩ := e
  dsimp only
  split
  · exact k.executeTransfer_keeps hI.toFramed
  · exact k.executeApprove_keeps hI.toFramed
  · exact k.executeWASMRaw_keeps hI
  · exact Keeps.fail _

end Handlers

theorem instantiateContract_keeps (hI : Preserved I) {sender label : String} {codeID : UInt64}
    {initMsg : Bytes} :
    Keeps I (k.instantiateContract sender codeID label initMsg) :=
  (k.prepareInstantiation_keeps hI.toIndifferent).bind fun _ => (k.runVm_keeps hI.toUndisturbed).bind fun _ =>
    (Keeps.lift _).bind fun _ => Keeps.pure _

theorem handle_keeps (hI : Preserved I) (msg : Msg) : Keeps I (k.handle msg) := by
  cases msg with
  | storeCode sender code => exact (k.storeCode_keeps hI.toIndifferent).bind fun _ => Keeps.pure _
  | instantiateContract sender codeID label initMsg =>
    exact (k.instantiateContract_keeps hI).bind fun _ => Keeps.pure _
  | executeContract sender contractAddr msg =>
    exact (k.executeContract_keeps hI.toUndisturbed).bind fun _ => Keeps.pure _

end Keeper

end Wasm
