import MallChain.Wasm.Effects

namespace Wasm

open Sdk Effect

variable {τ ι α : Type}

structure CodeEntry where
  codeID   : UInt64
  wasmCode : Bytes
  deriving DecidableEq, Repr

structure StateEntry where
  contractAddr : String
  key          : Bytes
  value        : Bytes
  deriving DecidableEq, Repr

structure ContractEntry where
  contractAddr : String
  metadata     : ContractMetadata
  stateEntries : List StateEntry
  deriving DecidableEq, Repr

structure GenesisState where
  codeEntries     : List CodeEntry := []
  contractEntries : List ContractEntry := []
  deriving DecidableEq, Repr

-- The counter is set to the id of the entry, not to the one after it.
def setCodeEntry (s : State τ) (entry : CodeEntry) : State τ :=
  { s with
    contractCode   := s.contractCode.set entry.codeID entry.wasmCode
    contractCodeID := if entry.codeID > 0 then entry.codeID else s.contractCodeID
  }

def setStateEntry (s : State τ) (se : StateEntry) : State τ :=
  { s with contractState := s.contractState.set (join se.contractAddr se.key) se.value }

def setContractEntry (s : State τ) (entry : ContractEntry) : State τ :=
  entry.stateEntries.foldl setStateEntry
    { s with contracts := s.contracts.set entry.contractAddr entry.metadata }

def initGenesis (genState : GenesisState) (s : State τ) : State τ :=
  genState.contractEntries.foldl setContractEntry (genState.codeEntries.foldl setCodeEntry s)

-- The walk over all entries, of which those of one contract are taken.
def exportStateEntries (s : State τ) (addr : String) : List StateEntry :=
  s.contractState.entries.filterMap fun (key, value) =>
    if (ofLex key).1 = addr then some ⟨addr, (ofLex key).2, value⟩ else none

def exportGenesis (s : State τ) : GenesisState where
  codeEntries     := s.contractCode.entries.map fun (codeID, code) => ⟨codeID, code⟩
  contractEntries := s.contracts.entries.map fun (addr, metadata) =>
    ⟨addr, metadata, exportStateEntries s addr⟩

-- What an export of the world leaves after its import into an empty store.
def World.imported (w : World τ) : World τ where
  state := initGenesis (exportGenesis w.state) { tokens := w.state.tokens }
  meter := w.meter

-- The codes and contracts with the counters that name them.
structure Registry where
  contractCode   : KVStore UInt64 Bytes := .empty
  contractCodeID : UInt64 := 0
  contracts      : KVStore String ContractMetadata := .empty
  contractSeq    : UInt64 := 0

def State.registry (s : State τ) : Registry :=
  ⟨s.contractCode, s.contractCodeID, s.contracts, s.contractSeq⟩

def addressPreimage (senderAddr : AccAddress) (seq : UInt64) : Bytes :=
  bytes "mallchain/wasm" ++ senderAddr.bytes ++ bigEndian seq

def Keeper.hashedAddress (k : Keeper τ ι) (preimage : Bytes) : String :=
  k.bech32 ⟨(k.sum256 preimage).take 20⟩

variable {k : Keeper τ ι} {w w' : World τ} {r r' : Registry} {meter : GasMeter}

-- Neither the runs of contracts nor the accounting touch the codes and contracts.
theorem registry_undisturbed (P : Registry → Prop) :
    Undisturbed fun w : World τ => P w.state.registry := by
  have hgas {amount : UInt64} {descriptor : String} :
      Keeps (fun w : World τ => P w.state.registry) (consumeGas amount descriptor) := by
    intro w hw
    rw [consumeGas]
    dsimp only
    split_ifs <;> exact hw
  exact {
    consume _    := hgas
    tokens hw    := hw
    write hw _   := hw
    read _ hw    := hw
    charge       := hgas
    ran hw       := hw
  }

theorem registry_of_keeps {m : Action τ α} {x : Except Failure α}
    (hm : ∀ P : Registry → Prop, Keeps (fun w => P w.state.registry) m) (h : m w = (x, w')) :
    w'.state.registry = w.state.registry := by
  have hk := hm (· = w.state.registry) w rfl
  rw [h] at hk
  exact hk

-- What a message that succeeds does to the codes and contracts.
inductive Registry.Step (k : Keeper τ ι) (r : Registry) : Msg → Response → Registry → Prop
  | first {sender : String} {wasmCode : Bytes} :
    r.contractCodeID = 0 →
    Step k r (.storeCode sender wasmCode) (.storeCode 1)
      { r with contractCode := r.contractCode.set 1 wasmCode, contractCodeID := 2 }
  | stored {sender : String} {wasmCode : Bytes} :
    r.contractCodeID ≠ 0 →
    Step k r (.storeCode sender wasmCode) (.storeCode r.contractCodeID) { r with
      contractCode   := r.contractCode.set r.contractCodeID wasmCode
      contractCodeID := r.contractCodeID + 1
    }
  | instantiated {sender label contractAddr : String} {codeID : UInt64} {initMsg code : Bytes}
      {senderAddr : AccAddress} {contract : ContractMetadata} :
    r.contractCode.get codeID = some code →
    k.accAddressFromBech32 sender = .ok senderAddr →
    contractAddr = k.hashedAddress (addressPreimage senderAddr r.contractSeq) →
    Step k r (.instantiateContract sender codeID label initMsg) (.instantiateContract contractAddr)
      { r with
        contracts   := r.contracts.set contractAddr contract
        contractSeq := r.contractSeq + 1
      }
  | executed {sender contractAddr : String} {msg data : Bytes} :
    Step k r (.executeContract sender contractAddr msg) (.executeContract data) r

namespace Keeper

theorem of_charge {a : Access} {u : Unit} (h : k.charge a w = (.ok u, w')) :
    w'.state.registry = w.state.registry :=
  registry_of_keeps (fun P => k.charge_keeps (registry_undisturbed P).toFramed a) h

-- A charged change of the state acts on the codes and contracts as they were before.
theorem of_charge_modify {a : Access} {f : State τ → State τ} {u : Unit}
    (h : (do k.charge a; modifyState f : Action τ Unit) w = (.ok u, w')) :
    ∃ s, s.registry = w.state.registry ∧ w'.state = f s := by
  obtain ⟨_, w₁, h₁, h₂⟩ := bind_eq_ok.mp h
  cases h₂
  exact ⟨w₁.state, of_charge h₁, rfl⟩

theorem of_nextCodeID {n : UInt64} (h : k.nextCodeID w = (.ok n, w')) :
    n = w.state.registry.contractCodeID ∧
      w'.state.registry = { w.state.registry with contractCodeID := n + 1 } := by
  obtain ⟨_, w₁, h₁, h₂⟩ := bind_eq_ok.mp h
  have hr := of_charge h₁
  cases h₂
  exact ⟨congrArg Registry.contractCodeID hr, by rw [← hr]; rfl⟩

theorem of_nextContract {seq : UInt64} (h : k.nextContract w = (.ok seq, w')) :
    seq = w.state.registry.contractSeq ∧
      w'.state.registry = { w.state.registry with contractSeq := seq + 1 } := by
  obtain ⟨_, w₁, h₁, h₂⟩ := bind_eq_ok.mp h
  have hr := of_charge h₁
  cases h₂
  exact ⟨congrArg Registry.contractSeq hr, by rw [← hr]; rfl⟩

theorem of_setCode {codeID : UInt64} {code : Bytes} {u : Unit}
    (h : k.setCode codeID code w = (.ok u, w')) :
    w'.state.registry = { w.state.registry with
      contractCode := w.state.registry.contractCode.set codeID code } := by
  obtain ⟨s, hs, hw⟩ := of_charge_modify h
  rw [hw, ← hs]
  rfl

theorem of_setContract {contractAddr : String} {contract : ContractMetadata} {u : Unit}
    (h : k.setContract contractAddr contract w = (.ok u, w')) :
    w'.state.registry = { w.state.registry with
      contracts := w.state.registry.contracts.set contractAddr contract } := by
  obtain ⟨s, hs, hw⟩ := of_charge_modify h
  rw [hw, ← hs]
  rfl

theorem of_firstCodeID {n codeID : UInt64} (h : k.firstCodeID n w = (.ok codeID, w')) :
    n = 0 ∧ codeID = 1 ∧ w'.state.registry = { w.state.registry with contractCodeID := 2 } ∨
      n ≠ 0 ∧ codeID = n ∧ w'.state.registry = w.state.registry := by
  rw [firstCodeID] at h
  split_ifs at h with hn
  case pos =>
    obtain ⟨_, w₁, h₁, h₂⟩ := bind_eq_ok.mp h
    obtain ⟨s, hs, hw⟩ := of_charge_modify h₁
    cases h₂
    exact .inl ⟨hn, rfl, by rw [hw, ← hs]; rfl⟩
  case neg =>
    cases h
    exact .inr ⟨hn, rfl, rfl⟩

theorem of_storeCode {sender : String} {wasmCode : Bytes} {codeID : UInt64}
    (h : k.storeCode wasmCode w = (.ok codeID, w')) :
    w.state.registry.Step k (.storeCode sender wasmCode) (.storeCode codeID) w'.state.registry := by
  obtain ⟨n, w₁, h₁, h⟩ := bind_eq_ok.mp h
  obtain ⟨codeID', w₂, h₂, h⟩ := bind_eq_ok.mp h
  obtain ⟨_, w₃, h₃, h⟩ := bind_eq_ok.mp h
  obtain ⟨_, w₄, h₄, h⟩ := bind_eq_ok.mp h
  obtain ⟨hn, hr₁⟩ := of_nextCodeID h₁
  have hr₃ : w₃ = w₂ := (Prod.mk.inj h₃).2.symm
  have hr₄ := of_setCode h₄
  cases h
  rw [hr₄, hr₃]
  rcases of_firstCodeID h₂ with ⟨h0, rfl, hr₂⟩ | ⟨h0, rfl, hr₂⟩
  case inl =>
    rw [hr₂, hr₁]
    exact .first (hn ▸ h0)
  case inr =>
    rw [hr₂, hr₁, hn]
    exact .stored (hn ▸ h0)

theorem of_getCode {codeID : UInt64} {notFound : String} {code : Bytes}
    (h : k.getCode codeID notFound w = (.ok code, w')) :
    w.state.registry.contractCode.get codeID = some code ∧
      w'.state.registry = w.state.registry := by
  obtain ⟨_, w₁, h₁, h₂⟩ := bind_eq_ok.mp h
  have hr := of_charge h₁
  obtain ⟨hc, rfl⟩ := Prod.mk.inj h₂
  exact ⟨hr ▸ orFail_eq_ok.mp hc, hr⟩

theorem of_generateContractAddress {sender contractAddr : String}
    (h : k.generateContractAddress sender w = (.ok contractAddr, w')) :
    ∃ senderAddr, k.accAddressFromBech32 sender = .ok senderAddr ∧
      contractAddr = k.hashedAddress
        (addressPreimage senderAddr w.state.registry.contractSeq) ∧
      w'.state.registry = { w.state.registry with
        contractSeq := w.state.registry.contractSeq + 1 } := by
  obtain ⟨seq, w₁, h₁, h⟩ := bind_eq_ok.mp h
  obtain ⟨senderAddr, w₂, h₂, h⟩ := bind_eq_ok.mp h
  obtain ⟨hseq, hr⟩ := of_nextContract h₁
  obtain ⟨ha, rfl⟩ := Prod.mk.inj h₂
  cases h
  rw [← hseq]
  refine ⟨senderAddr, ?_, rfl, hr⟩
  cases hs : k.accAddressFromBech32 sender with
  | error text =>
    rw [hs] at ha
    cases ha
  | ok a =>
    rw [hs] at ha
    cases ha
    rfl

theorem of_prepareInstantiation {sender label : String} {codeID : UInt64} {initMsg : Bytes}
    {c : VmCall} (h : k.prepareInstantiation sender codeID label initMsg w = (.ok c, w')) :
    w.state.registry.Step k (.instantiateContract sender codeID label initMsg)
      (.instantiateContract c.contractAddr) w'.state.registry := by
  obtain ⟨code, w₁, h₁, h⟩ := bind_eq_ok.mp h
  obtain ⟨contractAddr, w₂, h₂, h⟩ := bind_eq_ok.mp h
  obtain ⟨_, w₃, h₃, h⟩ := bind_eq_ok.mp h
  obtain ⟨_, w₄, h₄, h⟩ := bind_eq_ok.mp h
  obtain ⟨hcode, hr₁⟩ := of_getCode h₁
  obtain ⟨senderAddr, ha, haddr, hr₂⟩ := of_generateContractAddress h₂
  have hr₄ : w₄.state.registry = w₃.state.registry :=
    registry_of_keeps (fun P => k.setContractState_keeps (registry_undisturbed P).toFramed
      fun _ => adminKey_mem) h₄
  cases h
  rw [hr₁] at haddr hr₂
  rw [hr₄, of_setContract h₃, hr₂]
  exact .instantiated hcode ha haddr

theorem of_instantiateContract {sender label contractAddr : String} {codeID : UInt64}
    {initMsg : Bytes}
    (h : k.instantiateContract sender codeID label initMsg w = (.ok contractAddr, w')) :
    w.state.registry.Step k (.instantiateContract sender codeID label initMsg)
      (.instantiateContract contractAddr) w'.state.registry := by
  obtain ⟨c, w₁, h₁, h⟩ := bind_eq_ok.mp h
  obtain ⟨r, w₂, h₂, h⟩ := bind_eq_ok.mp h
  obtain ⟨_, w₃, h₃, h⟩ := bind_eq_ok.mp h
  have hr₂ : w₂.state.registry = w₁.state.registry :=
    registry_of_keeps (fun P => k.runVm_keeps (registry_undisturbed P)) h₂
  have hr₃ : w₃ = w₂ := (Prod.mk.inj h₃).2.symm
  cases h
  rw [hr₃, hr₂]
  exact of_prepareInstantiation h₁

theorem of_handle {msg : Msg} {response : Response} (h : k.handle msg w = (.ok response, w')) :
    w.state.registry.Step k msg response w'.state.registry := by
  cases msg with
  | storeCode sender wasmCode =>
    obtain ⟨codeID, hs, rfl⟩ := map_eq_ok.mp h
    exact of_storeCode hs
  | instantiateContract sender codeID label initMsg =>
    obtain ⟨contractAddr, hi, rfl⟩ := map_eq_ok.mp h
    exact of_instantiateContract hi
  | executeContract sender contractAddr msg =>
    obtain ⟨data, he, rfl⟩ := map_eq_ok.mp h
    rw [registry_of_keeps (fun P => k.executeContract_keeps (registry_undisturbed P)) he]
    exact .executed

end Keeper

-- Codes are numbered from one, and nothing is instantiated without a code.
structure Registry.Founded (r : Registry) : Prop where
  positive : r.contractCode.get 0 = none
  coded    : r.contractCode = .empty → r.contracts = .empty

theorem set_ne_empty {κ ν : Type*} [LinearOrder κ] {s : KVStore κ ν} {key : κ} {v : ν} :
    s.set key v ≠ .empty := by
  intro h
  have hg : (s.set key v).get key = none := by
    rw [h, KVStore.get_empty]
  rw [KVStore.get_set_self] at hg
  cases hg

theorem Registry.Step.founded {msg : Msg} {response : Response} (h : r.Step k msg response r')
    (hr : r.Founded) : r'.Founded := by
  cases h with
  | first h0 =>
    refine ⟨?_, fun he => absurd he set_ne_empty⟩
    rw [KVStore.get_set_ne (by decide), hr.positive]
  | stored h0 =>
    refine ⟨?_, fun he => absurd he set_ne_empty⟩
    rw [KVStore.get_set_ne h0.symm, hr.positive]
  | instantiated hcode =>
    refine ⟨hr.positive, fun he => ?_⟩
    rw [he, KVStore.get_empty] at hcode
    cases hcode
  | executed => exact hr

-- The chain from an empty store on.
def chainFromEmpty (τ ι : Type) : TransitionSystem (World τ) (Step τ ι) :=
  { chain τ ι with init := fun w => ∃ tokens meter, w = { state := { tokens }, meter } }

theorem founded_runMsgs {msgs : List Msg} {u : Unit}
    (h : (⟨k, meter, msgs⟩ : Tx τ ι).runMsgs w = (.ok u, w'))
    (hw : w.state.registry.Founded) : w'.state.registry.Founded := by
  induction msgs generalizing w with
  | nil =>
    cases h
    exact hw
  | cons msg msgs ih =>
    obtain ⟨_, w₁, h₁, h⟩ := bind_eq_ok.mp h
    obtain ⟨response, w₂, h₂, hu⟩ := bind_eq_ok.mp h₁
    cases hu
    exact ih h ((Keeper.of_handle h₂).founded hw)

theorem founded_invariant {guard : World τ → Step τ ι → Prop} :
    (chainFromEmpty τ ι).Invariant guard fun w => w.state.registry.Founded where
  init := by
    rintro _ ⟨tokens, meter, rfl⟩
    exact ⟨rfl, fun _ => rfl⟩
  step {w a w'} h _ hs := by
    cases hs
    cases a with
    | elsewhere tokens => exact h
    | deliver tx =>
      rw [Step.apply, Tx.deliver]
      split
      case h_1 hr => exact founded_runMsgs hr h
      case h_2 => exact h

-- A message that is delivered on its own.
structure Request (τ ι : Type) where
  keeper : Keeper τ ι
  meter  : GasMeter
  msg    : Msg

namespace Request

def deliver (a : Request τ ι) (w : World τ) : World τ :=
  (⟨a.keeper, a.meter, [a.msg]⟩ : Tx τ ι).deliver w

def answer (a : Request τ ι) (w : World τ) : Except Failure Response :=
  (a.keeper.handle a.msg { w with meter := a.meter }).1

end Request

-- The messages that follow an import.
def afterImport (τ ι : Type) (start : World τ) : TransitionSystem (World τ) (Request τ ι) where
  init w      := w = start
  step w a w' := w' = a.deliver w

-- The code or contract that the response names was not there before.
def Registry.Unused (r : Registry) : Response → Prop
  | .storeCode codeID                 => r.contractCode.get codeID = none
  | .instantiateContract contractAddr => r.contracts.get contractAddr = none
  | .executeContract _                => True

-- The hash tells the senders and numbers apart for which it is asked.
def CollisionFree (k : Keeper τ ι) (senders : Set AccAddress) (n : UInt64) : Prop :=
  Set.InjOn k.hashedAddress
    {preimage | ∃ senderAddr ∈ senders, ∃ seq < n, preimage = addressPreimage senderAddr seq}

-- No counter has run over, and the sender and the number are among those.
def Covered (k : Keeper τ ι) (senders : Set AccAddress) (n : UInt64) (w : World τ)
    (a : Request τ ι) : Prop :=
  a.keeper.hashedAddress = k.hashedAddress ∧
    match a.msg with
    | .storeCode ..                   => w.state.contractCodeID = 0 → w.state.contractCode = .empty
    | .instantiateContract sender ..  => w.state.contractSeq < n ∧
      ∀ senderAddr, a.keeper.accAddressFromBech32 sender = .ok senderAddr → senderAddr ∈ senders
    | .executeContract ..             => True

def IdsStayFresh (k : Keeper τ ι) (senders : Set AccAddress) (n : UInt64) (start : World τ) :
    Prop :=
  ∀ w, (afterImport τ ι start).Run (Covered k senders n) w → ∀ a, Covered k senders n w a →
    ∀ response, a.answer w = .ok response → w.state.registry.Unused response

-- What is known of the names that were given out since the import of an empty store.
structure Registry.Named (k : Keeper τ ι) (senders : Set AccAddress) (n : UInt64) (r : Registry) :
    Prop where
  codes     : ∀ codeID, r.contractCode.get codeID ≠ none →
    codeID < r.contractCodeID ∨ r.contractCodeID = 0
  contracts : ∀ contractAddr, r.contracts.get contractAddr ≠ none →
    ∃ senderAddr ∈ senders, ∃ seq < r.contractSeq,
      contractAddr = k.hashedAddress (addressPreimage senderAddr seq)
  bound     : r.contractSeq ≤ n

theorem bigEndian_injective : Function.Injective bigEndian := by
  intro a b h
  simp only [bigEndian, ofNats, AccAddress.ofBytes, List.map_map, List.map_inj_left, List.mem_range,
    Function.comp_apply, Fin.ofNat, Fin.mk.injEq] at h
  have h0 := h 0 (by decide)
  have h1 := h 1 (by decide)
  have h2 := h 2 (by decide)
  have h3 := h 3 (by decide)
  have h4 := h 4 (by decide)
  have h5 := h 5 (by decide)
  have h6 := h 6 (by decide)
  have h7 := h 7 (by decide)
  have ha := a.toNat_lt
  have hb := b.toNat_lt
  refine UInt64.toNat_inj.mp ?_
  norm_num at h0 h1 h2 h3 h4 h5 h6 h7
  omega

theorem seq_of_addressPreimage {a b : AccAddress} {m n : UInt64}
    (h : addressPreimage a m = addressPreimage b n) : m = n := by
  refine bigEndian_injective (List.append_inj_right' h ?_)
  simp [bigEndian, ofNats, AccAddress.ofBytes]

section Counters

variable {m n : UInt64}

theorem lt_succ_or_eq_zero (h : m ≤ n) : m < n + 1 ∨ n + 1 = 0 := by
  simp only [UInt64.lt_iff_toNat_lt, UInt64.le_iff_toNat_le, ← UInt64.toNat_inj,
    UInt64.toNat_add] at *
  have hn := n.toNat_lt
  have h0 : (0 : UInt64).toNat = 0 := rfl
  have h1 : (1 : UInt64).toNat = 1 := rfl
  omega

theorem succ_ne_zero (h : m < n) : m + 1 ≠ 0 := by
  simp only [UInt64.lt_iff_toNat_lt, ne_eq, ← UInt64.toNat_inj, UInt64.toNat_add] at *
  have hn := n.toNat_lt
  have h0 : (0 : UInt64).toNat = 0 := rfl
  have h1 : (1 : UInt64).toNat = 1 := rfl
  omega

theorem succ_le (h : m < n) : m + 1 ≤ n := by
  simp only [UInt64.lt_iff_toNat_lt, UInt64.le_iff_toNat_le, UInt64.toNat_add] at *
  have hn := n.toNat_lt
  have h1 : (1 : UInt64).toNat = 1 := rfl
  omega

end Counters

section Requests

variable {senders : Set AccAddress} {n : UInt64} {a : Request τ ι} {response : Response}

theorem step_of_answer (h : a.answer w = .ok response) :
    ∃ r', w.state.registry.Step a.keeper a.msg response r' := by
  cases hm : a.keeper.handle a.msg { w with meter := a.meter } with
  | mk x w₁ =>
    rw [Request.answer, hm] at h
    cases h
    exact ⟨_, Keeper.of_handle (w := { w with meter := a.meter }) hm⟩

theorem registry_of_deliver :
    (a.deliver w).state.registry = w.state.registry ∨
      ∃ response, w.state.registry.Step a.keeper a.msg response (a.deliver w).state.registry := by
  rw [Request.deliver, Tx.deliver]
  split
  case h_2 => exact .inl rfl
  case h_1 hr =>
    obtain ⟨_, w₁, h₁, h⟩ := bind_eq_ok.mp hr
    obtain ⟨response, w₂, h₂, hu⟩ := bind_eq_ok.mp h₁
    cases hu
    cases h
    exact .inr ⟨response, Keeper.of_handle (w := { w with meter := a.meter }) h₂⟩

namespace Registry.Named

variable (hc : Covered k senders n w a) (hr : w.state.registry.Named k senders n)

include hc hr

-- A number above all that were given out gives an address above all that were given out.
theorem unused (hk : CollisionFree k senders n)
    (h : w.state.registry.Step a.keeper a.msg response r') :
    w.state.registry.Unused response := by
  obtain ⟨hhash, hc⟩ := hc
  generalize a.msg = msg at h hc
  cases h with
  | first h0 =>
    exact (congrArg (KVStore.get · 1) (hc h0)).trans KVStore.get_empty
  | stored h0 =>
    by_contra hne
    exact (hr.codes _ hne).elim (lt_irrefl _) h0
  | @instantiated sender label contractAddr codeID initMsg code senderAddr contract _ ha haddr =>
    by_contra hne
    obtain ⟨senderAddr', hs', seq, hseq, he⟩ := hr.contracts _ hne
    rw [hhash] at haddr
    have hlt : w.state.registry.contractSeq < n := hc.1
    have hp := hk ⟨senderAddr', hs', seq, hseq.trans hlt, rfl⟩
      ⟨senderAddr, hc.2 _ ha, _, hlt, rfl⟩ (he.symm.trans haddr)
    exact hseq.ne (seq_of_addressPreimage hp)
  | executed => trivial

theorem step (h : w.state.registry.Step a.keeper a.msg response r') : r'.Named k senders n := by
  obtain ⟨hhash, hc⟩ := hc
  generalize a.msg = msg at h hc
  cases h with
  | first h0 =>
    refine ⟨fun codeID hne => .inl ?_, hr.contracts, hr.bound⟩
    have he : w.state.registry.contractCode = .empty := hc h0
    by_cases hid : codeID = 1
    case pos =>
      rw [hid]
      exact (by decide : (1 : UInt64) < 2)
    case neg =>
      rw [KVStore.get_set_ne hid, he] at hne
      exact absurd KVStore.get_empty hne
  | stored h0 =>
    refine ⟨fun codeID hne => lt_succ_or_eq_zero ?_, hr.contracts, hr.bound⟩
    by_cases hid : codeID = w.state.registry.contractCodeID
    case pos => exact hid.le
    case neg =>
      rw [KVStore.get_set_ne hid] at hne
      exact ((hr.codes _ hne).resolve_right h0).le
  | @instantiated sender label contractAddr codeID initMsg code senderAddr contract _ ha haddr =>
    have hlt : w.state.registry.contractSeq < n := hc.1
    have hsucc {seq : UInt64} (h : seq ≤ w.state.registry.contractSeq) :
        seq < w.state.registry.contractSeq + 1 :=
      (lt_succ_or_eq_zero h).resolve_right (succ_ne_zero hlt)
    refine ⟨hr.codes, fun addr hne => ?_, succ_le hlt⟩
    by_cases haddr' : addr = contractAddr
    case pos =>
      exact ⟨senderAddr, hc.2 _ ha, _, hsucc le_rfl, haddr'.trans (haddr.trans (congrFun hhash _))⟩
    case neg =>
      rw [KVStore.get_set_ne haddr'] at hne
      obtain ⟨senderAddr', hs', seq, hseq, he⟩ := hr.contracts _ hne
      exact ⟨senderAddr', hs', seq, hsucc hseq.le, he⟩
  | executed => exact hr

end Registry.Named

end Requests

theorem foldl_setContractEntry (entries : List ContractEntry) (s : State τ) :
    (entries.foldl setContractEntry s).contractCode = s.contractCode ∧
      (entries.foldl setContractEntry s).contractCodeID = s.contractCodeID := by
  induction entries generalizing s with
  | nil => exact ⟨rfl, rfl⟩
  | cons entry entries ih =>
    have hs (ses : List StateEntry) (s : State τ) :
        (ses.foldl setStateEntry s).registry = s.registry := by
      induction ses generalizing s with
      | nil => rfl
      | cons se ses ih => exact ih _
    have he : (setContractEntry s entry).registry = _ := hs entry.stateEntries _
    obtain ⟨h₁, h₂⟩ := ih (setContractEntry s entry)
    exact ⟨h₁.trans (congrArg Registry.contractCode he),
      h₂.trans (congrArg Registry.contractCodeID he)⟩

-- The counter names the last code of the list.
theorem imported_counter (hf : w.state.registry.Founded) (hne : w.state.contractCode ≠ .empty) :
    w.imported.state.contractCodeID ≠ 0 ∧
      w.imported.state.contractCode.get w.imported.state.contractCodeID ≠ none := by
  obtain ⟨hcode, hid⟩ := foldl_setContractEntry (exportGenesis w.state).contractEntries
    ((exportGenesis w.state).codeEntries.foldl setCodeEntry { tokens := w.state.tokens })
  rw [World.imported, initGenesis, hcode, hid]
  rcases List.eq_nil_or_concat w.state.contractCode.entries with he | ⟨entries, ⟨codeID, code⟩, he⟩
  case inl =>
    refine absurd ?_ hne
    cases hs : w.state.contractCode with
    | mk entries sorted =>
      rw [hs] at he
      cases he
      rfl
  case inr =>
    have hmem : (codeID, code) ∈ w.state.contractCode.entries := by simp [he]
    have h0 : codeID ≠ 0 := by
      rintro rfl
      have hget : w.state.contractCode.get 0 = some code := KVStore.mem_entries_iff.mp hmem
      cases hget.symm.trans hf.positive
    have hpos : codeID > 0 := UInt64.pos_iff_ne_zero.mpr h0
    simp [exportGenesis, he, setCodeEntry, hpos, h0]

theorem imported_of_no_code (hf : w.state.registry.Founded) (he : w.state.contractCode = .empty) :
    w.imported.state.registry = {} := by
  have hc : w.state.contracts = .empty := hf.coded he
  rw [World.imported, exportGenesis, he, hc]
  rfl

theorem named_invariant {senders : Set AccAddress} {n : UInt64} {start : World τ}
    (h : start.state.registry = {}) :
    (afterImport τ ι start).Invariant (Covered k senders n) fun w =>
      w.state.registry.Named k senders n where
  init := by
    rintro _ rfl
    rw [h]
    exact ⟨fun _ hne => absurd rfl hne, fun _ hne => absurd rfl hne, UInt64.zero_le⟩
  step {w a w'} hr hc hs := by
    cases hs
    rcases registry_of_deliver (a := a) (w := w) with he | ⟨response, h⟩
    · rw [he]
      exact hr
    · exact hr.step hc h

-- One code, from a sender whose accesses of the store cost nothing.
def Keeper.storeRequest (k : Keeper τ ι) : Request τ ι where
  keeper := { k with access := fun _ _ => .ok [] }
  meter  := { limit := 0, consumed := 0 }
  msg    := .storeCode "" [Fin.last 255]

theorem answer_storeRequest (h : w.state.contractCodeID ≠ 0) :
    k.storeRequest.answer w = .ok (.storeCode w.state.contractCodeID) := by
  have hs : (k.storeRequest.keeper.storeCode [Fin.last 255] { w with meter := k.storeRequest.meter }).1 =
      .ok w.state.contractCodeID := by
    simp [Keeper.storeRequest, Keeper.storeCode, Keeper.nextCodeID, Keeper.firstCodeID,
      Keeper.charge, Keeper.setCode, bind, Effect.asks, modifyState, Effect.modify, pure,
      Effect.lift, failIf, h]
  cases hm : k.storeRequest.keeper.storeCode [Fin.last 255] { w with meter := k.storeRequest.meter } with
  | mk x w' =>
    rw [hm] at hs
    cases hs
    exact congrArg Prod.fst (map_eq_ok.mpr ⟨_, hm, rfl⟩)

-- Ids stay fresh after an import exactly when there was no code to be exported.
theorem idsStayFresh_iff (k : Keeper τ ι) (senders : Set AccAddress) (n : UInt64)
    (hk : CollisionFree k senders n) {w : World τ} (h : (chainFromEmpty τ ι).Reachable w) :
    IdsStayFresh k senders n w.imported ↔ w.state.contractCode = .empty := by
  have hf : w.state.registry.Founded := founded_invariant.holds h
  constructor
  case mp =>
    intro hfresh
    by_contra hne
    obtain ⟨h0, hused⟩ := imported_counter hf hne
    have hc : Covered k senders n w.imported k.storeRequest := ⟨rfl, fun he => absurd he h0⟩
    exact hused (hfresh w.imported (.init rfl) _ hc _ (answer_storeRequest h0))
  case mpr =>
    intro he w' hw' a hc response ha
    have hr := (named_invariant (imported_of_no_code hf he)).holds hw'
    obtain ⟨r', hs⟩ := step_of_answer ha
    exact hr.unused hc hk hs

namespace Sample

-- Addresses are written out as they are, and the hash is cut off behind the number.
def genesisKeeper : Keeper Unit Unit where
  accAddressFromBech32 sender := .ok ⟨bytes sender⟩
  bech32 addr                 := ofBytes addr.bytes
  sum256 data                 := data.reverse
  unmarshal _                 := .error "invalid character"
  uint64 x                    := UInt64.ofNat x.floor.toNat
  access _ _                  := .ok []
  wasmbridgeKeeper            := {
    handleTransfer _ _ _ := { tokens := (), gas := [], result := .ok () }
    handleApprove _ _ _  := { tokens := (), gas := [], result := .ok () }
    queryBalance _ _ _   := { tokens := (), gas := [], result := .ok 0 }
  }
  runtime                     := {
    compileModule _       := .error "invalid magic number"
    hostModule            := .ok ()
    exportedFunction _ _  := none
    read _ _ _            := none
    write _ _ _           := none
    readUint32Le _ _      := none
    writeUint32Le _ _ _   := none
    timedOut              := false
  }

def blank : World Unit where
  state := { tokens := () }
  meter := { limit := 0, consumed := 0 }

-- One code is stored.
def coded : World Unit :=
  (⟨genesisKeeper, ⟨0, 0⟩, [.storeCode "alice" [Fin.last 255]]⟩ : Tx Unit Unit).deliver blank

theorem coded_reachable : (chainFromEmpty Unit Unit).Reachable coded :=
  .step (a := .deliver ⟨genesisKeeper, ⟨0, 0⟩, [.storeCode "alice" [Fin.last 255]]⟩) (.init ⟨(), ⟨0, 0⟩, rfl⟩)
    trivial rfl

theorem genesisKeeper_collisionFree : CollisionFree genesisKeeper {⟨bytes "alice"⟩} 1 := by
  rintro _ ⟨_, rfl, m, hm, rfl⟩ _ ⟨_, rfl, n, hn, rfl⟩ -
  have hm0 : m = 0 := by
    simpa [UInt64.lt_iff_toNat_lt, ← UInt64.toNat_inj] using hm
  have hn0 : n = 0 := by
    simpa [UInt64.lt_iff_toNat_lt, ← UInt64.toNat_inj] using hn
  rw [hm0, hn0]

end Sample

theorem sample_idsStayFresh_iff :
    IdsStayFresh Sample.genesisKeeper {⟨bytes "alice"⟩} 1 Sample.coded.imported ↔
      Sample.coded.state.contractCode = .empty :=
  idsStayFresh_iff _ _ _ Sample.genesisKeeper_collisionFree Sample.coded_reachable

-- The first code after an import takes the id of the last one before it.
theorem imported_code_overwritten :
    ¬∀ (k : Keeper Unit Unit) (senders : Set AccAddress) (n : UInt64), CollisionFree k senders n →
      ∀ w : World Unit, (chainFromEmpty Unit Unit).Reachable w →
        IdsStayFresh k senders n w.imported := by
  intro h
  have hfresh := h _ _ _ Sample.genesisKeeper_collisionFree _ Sample.coded_reachable
  have hc : Covered Sample.genesisKeeper {⟨bytes "alice"⟩} 1 Sample.coded.imported
      Sample.genesisKeeper.storeRequest := ⟨rfl, fun he => absurd he (by decide +kernel)⟩
  have hused : Sample.coded.imported.state.registry.contractCode.get 1 ≠ none := by decide +kernel
  exact hused (hfresh _ (.init rfl) _ hc (.storeCode 1) (by decide +kernel))

end Wasm
