import MallChain.Wasm.Effects

namespace Wasm

open Sdk Effect

variable {τ ι : Type} {k : Keeper τ ι} {w w' : World τ} {contract : String} {key : Bytes}
variable {writes : List Write} {x : Write} {r : Read}

def Write.isFor (contract : String) (key : Bytes) (x : Write) : Bool :=
  x.contract = contract ∧ x.key = key

-- The latest value under a key of a contract, whoever wrote it.
def lastStored (contract : String) (key : Bytes) (writes : List Write) : Option Bytes :=
  (writes.find? fun x => x.isFor contract key).map Write.value

-- What the code of the contract wrote there last.
def lastWritten (contract : String) (key : Bytes) (writes : List Write) : Option Bytes :=
  (writes.find? fun x => x.isFor contract key && x.author = .contract).map Write.value

-- The value that a call of `db_read` returns to the contract: the region at a pointer that is not 0.
def Read.result (r : Read) : Option Bytes :=
  if r.pointer = 0 then none else r.found

def Read.isolated (r : Read) : Prop :=
  r.result = lastWritten r.contract r.key r.written

-- The latest value under the key is one that the host wrote for itself, and not the last value of the
-- contract.
def shadowed (contract : String) (key : Bytes) (writes : List Write) : Prop :=
  ∃ x, writes.find? (fun x => x.isFor contract key) = some x ∧ x.author = .host ∧
    lastWritten contract key writes ≠ some x.value

-- The allocator of the contract took the value that was found.
def Read.delivered (r : Read) : Prop :=
  r.found = none ∨ r.pointer ≠ 0

structure Read.Clear (r : Read) : Prop where
  unshadowed : r.delivered → ¬shadowed r.contract r.key r.written
  unwritten  : ¬r.delivered → lastWritten r.contract r.key r.written = none

theorem lastStored_cons :
    lastStored contract key (x :: writes) =
      if x.isFor contract key then some x.value else lastStored contract key writes := by
  rw [lastStored, List.find?_cons]
  cases x.isFor contract key <;> rfl

theorem lastWritten_of_contract (h : writes.find? (fun x => x.isFor contract key) = some x)
    (ha : x.author = .contract) : lastWritten contract key writes = some x.value := by
  induction writes with
  | nil => cases h
  | cons y writes ih =>
    rw [List.find?_cons] at h
    rw [lastWritten, List.find?_cons]
    cases hy : y.isFor contract key with
    | true =>
      rw [hy] at h
      cases h
      simp [ha]
    | false =>
      rw [hy] at h
      exact ih h

theorem lastWritten_of_none (h : lastStored contract key writes = none) :
    lastWritten contract key writes = none := by
  simp only [lastStored, lastWritten, Option.map_eq_none_iff, List.find?_eq_none] at h ⊢
  intro x hx
  simp [h x hx]

theorem shadowed_iff (h : writes.find? (fun x => x.isFor contract key) = some x) :
    shadowed contract key writes ↔ lastWritten contract key writes ≠ some x.value := by
  constructor
  · rintro ⟨y, hy, -, hne⟩
    rw [h] at hy
    cases hy
    exact hne
  · intro hne
    refine ⟨x, h, ?_, hne⟩
    cases ha : x.author with
    | contract => exact absurd (lastWritten_of_contract h ha) hne
    | host => rfl

namespace Read

theorem isolated_iff_clear (h : r.found = lastStored r.contract r.key r.written) :
    r.isolated ↔ r.Clear := by
  cases hf : r.written.find? (fun x => x.isFor r.contract r.key) with
  | none =>
    have hs : lastStored r.contract r.key r.written = none := by
      rw [lastStored, hf]
      rfl
    have hw : lastWritten r.contract r.key r.written = none := lastWritten_of_none hs
    have hsh : ¬shadowed r.contract r.key r.written := by
      rintro ⟨x, hx, -⟩
      rw [hf] at hx
      cases hx
    have hr : r.isolated := by
      rw [isolated, result, h, hs, hw, ite_self]
    exact ⟨fun _ => ⟨fun _ => hsh, fun _ => hw⟩, fun _ => hr⟩
  | some x =>
    have hs : r.found = some x.value := by
      rw [h, lastStored, hf]
      rfl
    by_cases hp : r.pointer = 0
    case pos =>
      -- nothing is handed over, which is right if and only if nothing was written
      have hd : ¬r.delivered := by simp [delivered, hs, hp]
      rw [isolated, result, if_pos hp]
      exact ⟨fun hr => ⟨fun h => absurd h hd, fun _ => hr.symm⟩, fun hc => (hc.unwritten hd).symm⟩
    case neg =>
      have hd : r.delivered := .inr hp
      have hr : r.isolated ↔ ¬shadowed r.contract r.key r.written := by
        rw [isolated, result, if_neg hp, hs, shadowed_iff hf, not_not, eq_comm]
      rw [hr]
      exact ⟨fun hn => ⟨fun _ => hn, fun h => absurd hd h⟩, fun hc => hc.unshadowed hd⟩

end Read

-- The store holds what was written last, and every call of `db_read` found that. The host writes
-- under keys of its own.
structure Consistent (w : World τ) : Prop where
  state : ∀ contract key,
    w.state.contractState.get (join contract key) = lastStored contract key w.writes
  hosts : ∀ x ∈ w.writes, x.author = .host → x.key ∈ hostKeys
  found : ∀ r ∈ w.reads, r.found = lastStored r.contract r.key r.written
  known : ∀ r ∈ w.reads, ∀ x ∈ r.written, x.author = .host → x.key ∈ hostKeys

namespace Consistent

theorem init (h : (chain τ ι).init w) : Consistent w := by
  obtain ⟨hs, hw, hr⟩ := h
  refine ⟨fun contract key => ?_, ?_, ?_, ?_⟩
  · rw [hs, hw]
    rfl
  all_goals simp [hw, hr]

theorem congr (h : Consistent w) (hs : w'.state.contractState = w.state.contractState)
    (hw : w'.writes = w.writes) (hr : w'.reads = w.reads) : Consistent w' where
  state := by rw [hs, hw]; exact h.state
  hosts := by rw [hw]; exact h.hosts
  found := by rw [hr]; exact h.found
  known := by rw [hr]; exact h.known

theorem consumeGas_keeps {amount : UInt64} {descriptor : String} :
    Keeps Consistent (consumeGas amount descriptor : Action τ Unit) := by
  intro w hw
  rw [consumeGas]
  dsimp only
  split_ifs <;> exact hw.congr rfl rfl rfl

theorem write (h : Consistent w) (hkey : x.author = .host → x.key ∈ hostKeys) :
    Consistent (recordWrite x w) where
  state contract key := by
    have hk : join contract key = join x.contract x.key ↔ x.isFor contract key = true := by
      simp only [join, Write.isFor, toLex_inj, Prod.mk.injEq, decide_eq_true_eq]
      exact and_congr eq_comm eq_comm
    rw [recordWrite, KVStore.get_set, lastStored_cons, h.state]
    simp only [hk]
  hosts y hy := by
    rcases List.mem_cons.mp hy with rfl | hy
    · exact hkey
    · exact h.hosts y hy
  found := h.found
  known := h.known

theorem indifferent : Indifferent (Consistent (τ := τ)) where
  consume _  := consumeGas_keeps
  other h hs := h.congr hs rfl rfl
  write h    := h.write
  read {w w₁ contract key ptr} h h₁ := {
    state := h₁.state
    hosts := h₁.hosts
    found := by
      intro r hr
      rcases List.mem_cons.mp hr with rfl | hr
      · exact h.state contract key
      · exact h₁.found r hr
    known := by
      intro r hr
      rcases List.mem_cons.mp hr with rfl | hr
      · exact h.hosts
      · exact h₁.known r hr
  }

theorem preserved : Preserved (Consistent (τ := τ)) where
  toIndifferent := indifferent
  charge   := consumeGas_keeps
  ran h    := h.congr rfl rfl rfl

theorem deliver (tx : Tx τ ι) (h : Consistent w) : Consistent (tx.deliver w) := by
  have hm : Keeps Consistent tx.runMsgs :=
    Keeps.forM fun msg _ => (tx.keeper.handle_keeps preserved msg).bind fun _ => Keeps.pure ()
  have h₀ : Consistent { w with meter := tx.meter } := h.congr rfl rfl rfl
  have h₁ := hm _ h₀
  rw [Tx.deliver]
  split
  case h_1 hr =>
    rw [hr] at h₁
    exact h₁
  case h_2 hr =>
    rw [hr] at h₁
    exact ⟨h.state, h.hosts, h₁.found, h₁.known⟩

theorem invariant : (chain τ ι).Invariant (fun _ _ => True) Consistent where
  init := init
  step {w a w'} h _ hs := by
    cases hs
    cases a with
    | deliver tx => exact h.deliver tx
    | elsewhere tokens => exact h.congr rfl rfl rfl

end Consistent

-- A key that the host does not use is out of its reach.
theorem isolated_of_key (h : (chain τ ι).Reachable w) (hr : r ∈ w.reads) (hkey : r.key ∉ hostKeys)
    (hd : r.delivered) : r.isolated := by
  have hc := Consistent.invariant.holds h
  refine (r.isolated_iff_clear (hc.found r hr)).mpr ⟨?_, fun hn => absurd hd hn⟩
  rintro - ⟨x, hx, ha, -⟩
  have hf : x.isFor r.contract r.key = true := List.find?_some hx
  have hk : x.key ∈ hostKeys := hc.known r hr x (List.mem_of_find?_eq_some hx) ha
  simp only [Write.isFor, decide_eq_true_eq] at hf
  exact hkey (hf.2 ▸ hk)

namespace Sample

-- A contract with one byte of memory for its value. It writes under `key` when it is instantiated, and
-- reads it when it is executed.
def runtime (key : Bytes) : Wazero Unit where
  compileModule _        := .ok (.returned () [])
  hostModule             := .ok ()
  exportedFunction _ name :=
    if name = "allocate" then some fun _ => .entered fun _ => .returned () [1024]
    else if name = "_instantiate" then some fun _ =>
      .entered fun _ => .dbWrite () 0 64 100 1 fun _ => .returned () [0]
    else if name = "_execute" then some fun _ =>
      .entered fun _ => .dbRead () 0 64 (fun _ => .entered fun _ => .returned () [1024])
        fun _ _ => .returned () [0]
    else none
  read _ ptr _           := some (if ptr = 0 then key else ofNats [7])
  write _ _ _            := some ()
  readUint32Le _ _       := some 0
  writeUint32Le _ _ _    := some ()
  timedOut               := false

def wasmbridgeKeeper : WasmBridgeKeeper Unit where
  handleTransfer _ _ _ := { tokens := (), gas := [], result := .ok () }
  handleApprove _ _ _  := { tokens := (), gas := [], result := .ok () }
  queryBalance _ _ _   := { tokens := (), gas := [], result := .ok 0 }

def keeper (key : Bytes) : Keeper Unit Unit where
  accAddressFromBech32 sender := .ok ⟨bytes sender⟩
  bech32 addr                 := if addr.bytes = [] then "" else "contract"
  sum256 data                 := data
  unmarshal _                 := .ok fun field =>
    if field = "action" then some (.string "wasm_execute") else none
  uint64 x                    := UInt64.ofNat x.floor.toNat
  access _ _                  := .ok [1000]
  wasmbridgeKeeper            := wasmbridgeKeeper
  runtime                     := runtime key

def tx (key : Bytes) : Tx Unit Unit where
  keeper := keeper key
  meter  := { limit := 1000000, consumed := 0 }
  msgs   := [
    .storeCode "alice" (ofNats [0]),
    .instantiateContract "alice" 1 "" [],
    .executeContract "alice" "contract" []
  ]

def start : World Unit where
  state := { tokens := () }
  meter := { limit := 0, consumed := 0 }

def finish (key : Bytes) : World Unit :=
  (tx key).deliver start

theorem finish_reachable {key : Bytes} : (chain Unit Unit).Reachable (finish key) :=
  .step (a := .deliver (tx key)) (.init ⟨rfl, rfl, rfl⟩) trivial rfl

end Sample

-- What a contract reads is what it wrote, as far as no value of the host stands there and the
-- allocator of the contract takes the value.
theorem storage_isolated (h : (chain τ ι).Reachable w) :
    (∀ r ∈ w.reads, r.isolated) ↔ ∀ r ∈ w.reads, r.Clear :=
  forall₂_congr fun r hr => r.isolated_iff_clear ((Consistent.invariant.holds h).found r hr)

theorem storage_isolated_plain_key :
    (∀ r ∈ (Sample.finish (ofNats [1])).reads, r.isolated) ↔ ∀ r ∈ (Sample.finish (ofNats [1])).reads, r.Clear :=
  storage_isolated Sample.finish_reachable

instance : Decidable r.isolated :=
  inferInstanceAs (Decidable (_ = _))

-- The contract writes a value and reads the name of the action instead.
theorem storage_overwritten :
    ¬∀ w : World Unit, (chain Unit Unit).Reachable w → ∀ r ∈ w.reads, r.isolated := by
  intro h
  have hr : ∃ r ∈ (Sample.finish lastActionKey).reads, ¬r.isolated := by decide +kernel
  obtain ⟨r, hr, hn⟩ := hr
  exact hn (h _ Sample.finish_reachable r hr)

end Wasm
