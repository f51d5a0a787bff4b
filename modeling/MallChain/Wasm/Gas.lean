import MallChain.Wasm.Storage

namespace Wasm

open Sdk Effect

variable {τ ι : Type} {k : Keeper τ ι} {w : World τ} {gas : List GasEvent}

-- What was charged for runs of the VM.
def charged : List GasEvent → ℕ
  | [] => 0
  | .ran .. :: gas => charged gas
  | .consumed amount descriptor :: gas =>
    (if descriptor = Keeper.wasmExecuteDescriptor then amount.toNat else 0) + charged gas

structure VmRun where
  limit     : UInt64
  remaining : UInt64
  used      : UInt64

def runs : List GasEvent → List VmRun
  | [] => []
  | .ran limit remaining used :: gas => ⟨limit, remaining, used⟩ :: runs gas
  | .consumed .. :: gas => runs gas

-- All that the runs used is charged, and no run was given more than was left.
structure Accounted (gas : List GasEvent) : Prop where
  paid    : charged gas = ((runs gas).map (·.used.toNat)).sum
  bounded : ∀ r ∈ runs gas, r.limit ≤ r.remaining

namespace Keeper

-- The run of the VM that a message comes to, if it comes to one.
def vmCall (k : Keeper τ ι) : Msg → Action τ (Option VmCall)
  | .storeCode _ _ => return none
  | .instantiateContract sender codeID label initMsg =>
    some <$> k.prepareInstantiation sender codeID label initMsg
  | .executeContract sender contractAddr msg => do
    let (contract, _, action, gasLimit) ← k.prepareExecution sender contractAddr msg
    if action = "wasm_execute" then
      some <$> k.prepareWASMRaw contract contractAddr sender msg gasLimit
    else return none

-- The limit is covered when the run starts. An execution ends without an error and what it used is
-- covered then as well, or the run uses nothing.
structure RunsWithin (k : Keeper τ ι) (c : VmCall) (w : World τ) : Prop where
  limit : c.gasLimit ≤ w.meter.remaining
  used  : (k.call c w).1.gasUsed = 0 ∨ c.entrypoint = "_execute" ∧
    (k.call c w).1.output.isOk ∧ (k.call c w).1.gasUsed ≤ (k.call c w).2.meter.remaining

def WithinBudget (k : Keeper τ ι) (msg : Msg) (w : World τ) : Prop :=
  ∀ c w', k.vmCall msg w = (.ok (some c), w') → k.RunsWithin c w'

end Keeper

-- The world in which a message starts.
def World.fresh (w : World τ) : World τ :=
  { w with gas := [] }

-- What the charge for a run does to the log.
section Charge

variable {gasUsed : UInt64}

theorem consumeGas_gas {amount : UInt64} {descriptor : String} :
    (consumeGas amount descriptor w).2.gas = .consumed amount descriptor :: w.gas := by
  rw [consumeGas]
  dsimp only
  split_ifs <;> rfl

theorem consumeSDKGas_zero : Keeper.consumeSDKGas 0 w = (.ok (), w) :=
  rfl

theorem consumeSDKGas_over (hz : gasUsed ≠ 0) (h : ¬gasUsed ≤ w.meter.remaining) :
    (Keeper.consumeSDKGas gasUsed w).2 = w := by
  have hf : failIf (gasUsed > w.meter.remaining) (wrap errContractFailed "out of gas") =
      .error (wrap errContractFailed "out of gas") := if_pos (UInt64.not_le.mp h)
  rw [Keeper.consumeSDKGas, if_neg hz, asks_bind, hf,
    bind_of_error lift_error]

theorem consumeSDKGas_charged (hz : gasUsed ≠ 0) (h : gasUsed ≤ w.meter.remaining) :
    (Keeper.consumeSDKGas gasUsed w).2.gas =
      .consumed gasUsed Keeper.wasmExecuteDescriptor :: w.gas := by
  have hf : failIf (gasUsed > w.meter.remaining) (wrap errContractFailed "out of gas") = .ok () :=
    if_neg (UInt64.not_lt.mpr h)
  rw [Keeper.consumeSDKGas, if_neg hz, asks_bind, hf,
    bind_of_ok lift_ok, consumeGas_gas]

end Charge

-- No run so far, and no charge for one.
structure Quiet (w : World τ) : Prop where
  charged : charged w.gas = 0
  runs    : runs w.gas = []

namespace Quiet

theorem fresh : Quiet w.fresh :=
  ⟨rfl, rfl⟩

theorem accounted (h : Quiet w) : Accounted w.gas where
  paid    := by simp [h.charged, h.runs]
  bounded := by simp [h.runs]

theorem consume {amount : UInt64} {descriptor : String}
    (hd : descriptor ≠ Keeper.wasmExecuteDescriptor) :
    Keeps Quiet (consumeGas amount descriptor : Action τ Unit) := by
  intro w hw
  constructor
  · rw [consumeGas_gas, Wasm.charged, if_neg hd, hw.charged]
  · rw [consumeGas_gas, Wasm.runs, hw.runs]

theorem indifferent : Indifferent (Quiet (τ := τ)) where
  consume hd := consume hd
  other h _  := ⟨h.charged, h.runs⟩
  write h _  := ⟨h.charged, h.runs⟩
  read _ h   := ⟨h.charged, h.runs⟩

end Quiet

-- The world after a run, before anything is charged for it.
structure Ran (r : VmRun) (w : World τ) : Prop where
  charged : charged w.gas = 0
  runs    : runs w.gas = [r]

namespace Ran

variable {r : VmRun}

theorem of_call {c : VmCall} (h : Quiet w) :
    Ran ⟨c.gasLimit, w.meter.remaining, (k.call c w).1.gasUsed⟩ (k.call c w).2 := by
  have hq : Quiet (k.callUnrecorded c w).2 := k.callUnrecorded_keeps Quiet.indifferent.toFramed.hostKeeps h
  constructor
  · exact hq.charged
  · exact congrArg (_ :: ·) hq.runs

theorem accounted_iff (h : Ran r w) : Accounted w.gas ↔ r.limit ≤ r.remaining ∧ r.used = 0 := by
  have hu : r.used = 0 ↔ 0 = r.used.toNat := by
    rw [← UInt64.toNat_inj, eq_comm]
    rfl
  constructor
  · intro ha
    have hp := ha.paid
    have hb := ha.bounded
    simp only [h.charged, h.runs, List.map_cons, List.map_nil, List.sum_cons, List.sum_nil,
      add_zero, List.mem_singleton, forall_eq] at hp hb
    exact ⟨hb, hu.mpr hp⟩
  · rintro ⟨hb, hz⟩
    constructor
    · simp [h.charged, h.runs, ← hu.mp hz]
    · simpa [h.runs] using hb

-- A run that ended well is charged unless it used more than is left.
theorem consumeSDKGas_iff (h : Ran r w) :
    Accounted (Keeper.consumeSDKGas r.used w).2.gas ↔
      r.limit ≤ r.remaining ∧ (r.used = 0 ∨ r.used ≤ w.meter.remaining) := by
  by_cases hz : r.used = 0
  case pos =>
    rw [hz, consumeSDKGas_zero, h.accounted_iff]
    simp [hz]
  case neg =>
    by_cases hle : r.used ≤ w.meter.remaining
    case neg =>
      rw [consumeSDKGas_over hz hle, h.accounted_iff]
      simp [hz, hle]
    case pos =>
      rw [consumeSDKGas_charged hz hle]
      constructor
      · intro ha
        have hb := ha.bounded
        simp only [Wasm.runs, h.runs, List.mem_singleton, forall_eq] at hb
        exact ⟨hb, .inr hle⟩
      · rintro ⟨hb, -⟩
        constructor
        · simp [Wasm.charged, Wasm.runs, h.charged, h.runs]
        · simpa [Wasm.runs, h.runs] using hb

end Ran

namespace Keeper

variable {c : VmCall}

theorem runVm_apply : k.runVm c w = (.ok (k.call c w).1, (k.call c w).2) :=
  rfl

-- A run of which nothing is charged.
theorem uncharged_iff (hq : Quiet w) (hc : c.entrypoint ≠ "_execute" ∨ ¬(k.call c w).1.output.isOk) :
    Accounted (k.call c w).2.gas ↔ k.RunsWithin c w := by
  rw [(Ran.of_call hq).accounted_iff]
  constructor
  · rintro ⟨hb, hz⟩
    exact ⟨hb, .inl hz⟩
  · rintro ⟨hb, hu⟩
    rcases hu with hz | ⟨he, ho, -⟩
    · exact ⟨hb, hz⟩
    · exact absurd ho (hc.resolve_left (not_not.mpr he))

theorem charged_iff (hq : Quiet w) (he : c.entrypoint = "_execute")
    (ho : (k.call c w).1.output.isOk) :
    Accounted (consumeSDKGas (k.call c w).1.gasUsed (k.call c w).2).2.gas ↔ k.RunsWithin c w := by
  rw [(Ran.of_call hq).consumeSDKGas_iff]
  constructor
  · rintro ⟨hb, hu⟩
    exact ⟨hb, hu.imp_right fun hu => ⟨he, ho, hu⟩⟩
  · rintro ⟨hb, hu⟩
    exact ⟨hb, hu.imp_right fun hu => hu.2.2⟩

theorem prepareInstantiation_returns {sender label : String} {codeID : UInt64} {initMsg : Bytes} :
    Returns (fun c => c.entrypoint = "_instantiate")
      (k.prepareInstantiation sender codeID label initMsg) :=
  Returns.bind fun _ => Returns.bind fun _ => Returns.bind fun _ => Returns.bind fun _ =>
    Returns.pure rfl

theorem prepareWASMRaw_returns {record : ContractMetadata} {contractAddr sender : String}
    {msg : Bytes} {gasLimit : UInt64} :
    Returns (fun c => c.entrypoint = "_execute")
      (k.prepareWASMRaw record contractAddr sender msg gasLimit) :=
  Returns.bind fun _ => Returns.pure rfl

-- What comes before a run does not count.
theorem accounted_bind {α β : Type} {m : Action τ α} {f : α → Action τ β} {P : α → World τ → Prop}
    (hm : Keeps Quiet m) (hq : Quiet w)
    (hf : ∀ a w', m w = (.ok a, w') → Quiet w' → (Accounted (f a w').2.gas ↔ P a w')) :
    Accounted ((m >>= f) w).2.gas ↔ ∀ a w', m w = (.ok a, w') → P a w' := by
  have hk := hm w hq
  cases hr : m w with
  | mk r w₁ =>
    rw [hr] at hk
    cases r with
    | error e =>
      rw [bind_of_error hr]
      exact iff_of_true hk.accounted (by simp)
    | ok a =>
      rw [bind_of_ok hr, hf a w₁ hr hk]
      simp

theorem instantiateContract_iff {sender label : String} {codeID : UInt64} {initMsg : Bytes}
    (hq : Quiet w) :
    Accounted (k.instantiateContract sender codeID label initMsg w).2.gas ↔
      ∀ c w', k.prepareInstantiation sender codeID label initMsg w = (.ok c, w') →
        k.RunsWithin c w' := by
  refine accounted_bind (k.prepareInstantiation_keeps Quiet.indifferent) hq fun c w' hc hq' => ?_
  have he : c.entrypoint = "_instantiate" := prepareInstantiation_returns _ _ _ hc
  rw [bind_of_ok runVm_apply, ← uncharged_iff hq' (.inl (by simp [he]))]
  cases (k.call c w').1.output <;> rfl

theorem executeWASMRaw_iff {record : ContractMetadata} {contractAddr sender : String} {msg : Bytes}
    {gasLimit : UInt64} (hq : Quiet w) :
    Accounted (k.executeWASMRaw record contractAddr sender msg gasLimit w).2.gas ↔
      ∀ c w', k.prepareWASMRaw record contractAddr sender msg gasLimit w = (.ok c, w') →
        k.RunsWithin c w' := by
  refine accounted_bind (k.prepareWASMRaw_keeps Quiet.indifferent.toFramed) hq fun c w' hc hq' => ?_
  have he : c.entrypoint = "_execute" := prepareWASMRaw_returns _ _ _ hc
  rw [bind_of_ok runVm_apply]
  cases ho : (k.call c w').1.output with
  | error text =>
    rw [← uncharged_iff hq' (.inr (by simp [ho, Except.isOk, Except.toBool]))]
    rfl
  | ok data =>
    rw [← charged_iff hq' he (by simp [ho, Except.isOk, Except.toBool])]
    change Accounted (((fun _ => data) <$> consumeSDKGas _ : Action τ Bytes) _).2.gas ↔ _
    rw [map_snd]

theorem executeContract_iff {sender contractAddr : String} {msg : Bytes} (hq : Quiet w) :
    Accounted (k.executeContract sender contractAddr msg w).2.gas ↔
      ∀ e w', k.prepareExecution sender contractAddr msg w = (.ok e, w') →
        e.2.2.1 = "wasm_execute" → ∀ c w'',
          k.prepareWASMRaw e.1 contractAddr sender msg e.2.2.2 w' = (.ok c, w'') →
            k.RunsWithin c w'' := by
  refine accounted_bind (k.prepareExecution_keeps Quiet.indifferent.toFramed) hq fun e w' _ hq' => ?_
  obtain ⟨record, actionMsg, action, gasLimit⟩ := e
  dsimp only
  split
  case h_1 => exact iff_of_true (k.executeTransfer_keeps Quiet.indifferent.toFramed _ hq').accounted (by simp)
  case h_2 => exact iff_of_true (k.executeApprove_keeps Quiet.indifferent.toFramed _ hq').accounted (by simp)
  case h_3 =>
    rw [executeWASMRaw_iff hq']
    simp
  case h_4 hne => exact iff_of_true hq'.accounted fun h => absurd h hne

theorem handle_iff {msg : Msg} (hq : Quiet w) :
    Accounted (k.handle msg w).2.gas ↔ k.WithinBudget msg w := by
  cases msg with
  | storeCode sender code =>
    rw [handle, map_snd]
    refine iff_of_true (k.storeCode_keeps Quiet.indifferent _ hq).accounted ?_
    intro c w' h
    cases h
  | instantiateContract sender codeID label initMsg =>
    rw [handle, map_snd, instantiateContract_iff hq]
    simp [WithinBudget, vmCall, map_eq_ok]
  | executeContract sender contractAddr msg =>
    rw [handle, map_snd, executeContract_iff hq]
    constructor
    · intro h c w' hc
      obtain ⟨⟨record, actionMsg, action, gasLimit⟩, w₁, he, hc⟩ := bind_eq_ok.mp hc
      dsimp only at hc
      split_ifs at hc with ha
      case pos =>
        obtain ⟨_, hc, heq⟩ := map_eq_ok.mp hc
        cases heq
        exact h _ w₁ he ha c w' hc
      case neg => cases hc
    · rintro h ⟨record, actionMsg, action, gasLimit⟩ w₁ he ha c w' hc
      refine h c w' (bind_eq_ok.mpr ⟨_, w₁, he, ?_⟩)
      dsimp only at ha hc ⊢
      rw [if_pos ha]
      exact map_eq_ok.mpr ⟨c, hc, rfl⟩

end Keeper

-- All that was consumed.
def consumed : List GasEvent → ℕ
  | [] => 0
  | .ran .. :: gas => consumed gas
  | .consumed amount _ :: gas => amount.toNat + consumed gas

-- The log is what the gas meter counts from the start on, until the meter overflows.
def Metered (start : ℕ) (w : World τ) : Prop :=
  w.meter.consumed.toNat = start + consumed w.gas ∨ w.meter.consumed.toNat = 2 ^ 64 - 1

theorem Metered.consumeGas_keeps {start : ℕ} {amount : UInt64} {descriptor : String} :
    Keeps (Metered start) (consumeGas amount descriptor : Action τ Unit) := by
  intro w hw
  have hlt := w.meter.consumed.toNat_lt
  rw [consumeGas]
  dsimp only
  split_ifs with ho
  case pos => exact .inr rfl
  all_goals
    have hs : (w.meter.consumed + amount).toNat = w.meter.consumed.toNat + amount.toNat := by
      rw [UInt64.toNat_add]
      omega
    simp only [Metered, consumed, hs] at hw ⊢
    omega

theorem Metered.preserved {start : ℕ} : Preserved (Metered (τ := τ) start) where
  consume _ := consumeGas_keeps
  charge    := consumeGas_keeps
  other h _ := h
  write h _ := h
  read _ h  := h
  ran h     := h

-- The gas meter of the transaction counts all that a message consumes.
theorem meter_consumed (k : Keeper τ ι) (msg : Msg) (w : World τ) :
    Metered w.meter.consumed.toNat (k.handle msg w.fresh).2 :=
  k.handle_keeps Metered.preserved msg _ (.inl rfl)

-- All gas of a message is paid for and bounded if and only if its run stays within the budget.
theorem gas_accounted (k : Keeper τ ι) (msg : Msg) (w : World τ) :
    Accounted (k.handle msg w.fresh).2.gas ↔ k.WithinBudget msg w.fresh :=
  Keeper.handle_iff Quiet.fresh

-- An instantiation runs the code of the contract for nothing.
theorem instantiation_unpaid :
    ¬∀ (k : Keeper Unit Unit) (msg : Msg) (w : World Unit),
      Accounted (k.handle msg w.fresh).2.gas := by
  intro h
  have hp := (h (Sample.keeper (ofNats [1])) (.instantiateContract "alice" 1 "" []) {
    state := { tokens := (), contractCode := KVStore.empty.set 1 (ofNats [0]) }
    meter := { limit := 1000000, consumed := 0 }
  }).paid
  revert hp
  decide +kernel

end Wasm
