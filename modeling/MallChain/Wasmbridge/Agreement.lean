import MallChain.Wasm.Keeper
import MallChain.Wasmbridge.Keeper

namespace Wasmbridge

open Sdk Wasm

variable {ι : Type}

-- How the wasm keeper decodes its message: without types, so that a number becomes a float64.
section Decoding

def decodeValue : Json → Except String JsonValue
  | .null     => .ok .other
  | .string s => .ok (.string s)
  | .number n =>
    match n.parseFloat with
    | some x => .ok (.number x)
    | none   => .error "cannot unmarshal number into Go value of type float64"
  | .other    => .ok .other

-- The last field of a name counts.
def lookupField (fields : List (String × JsonValue)) : ActionMsg :=
  fun key => (fields.reverse.find? (·.1 = key)).map (·.2)

def decodeActionMsg (o : JsonObject) : Except String ActionMsg := do
  let fields ← o.mapM fun (key, value) => do return (key, ← decodeValue value)
  return lookupField fields

end Decoding

-- `uint64(x)`: towards zero. Beyond the range the language leaves the result to the machine.
def uint64OfFloat (beyond : ℚ → UInt64) (x : ℚ) : UInt64 :=
  if 0 ≤ x ∧ x < 2 ^ 64 then UInt64.ofNat ⌊x⌋.toNat else beyond x

-- The chain with both entry points to the same tokens.
structure Chain (ι : Type) where
  wasm   : Wasm.Keeper Mlcoin.State ι
  bridge : Wasmbridge.Keeper
  ctx    : Mlcoin.Context
  leave  : Mlcoin.State → Mlcoin.State
  beyond : ℚ → UInt64

-- The tokens that a message leaves behind. One that fails has no effect.
def tokensOf {α : Type} (run : Except Failure α × World Mlcoin.State) : Option Mlcoin.State :=
  match run with
  | (.ok _, w')   => some w'.state.tokens
  | (.error _, _) => none

namespace Chain

variable (c : Chain ι)

def wasmKeeper : Wasm.Keeper Mlcoin.State ι :=
  { c.wasm with
    wasmbridgeKeeper := c.bridge.interface c.ctx c.leave
    uint64           := uint64OfFloat c.beyond
  }

-- The tokens after the built-in action of the wasm keeper.
def builtin (sender action : String) (msg : JsonObject) (w : World Mlcoin.State) :
    Option Mlcoin.State :=
  match decodeActionMsg msg with
  | .error _      => none
  | .ok actionMsg =>
    match action with
    | "transfer" => tokensOf (c.wasmKeeper.executeTransfer sender actionMsg w)
    | "approve"  => tokensOf (c.wasmKeeper.executeApprove sender actionMsg w)
    | _          => none

-- The tokens after the action of the bridge.
def bridged (sender action : String) (msg : JsonObject) (s : Mlcoin.State) : Option Mlcoin.State :=
  (c.bridge.executeAction c.ctx sender action msg s).toOption

end Chain

-- One request in the forms of the two entry points.
def transferFields (name sender recipient : String) (amount : JsonNumber) : JsonObject :=
  [(name, .string sender), ("to", .string recipient), ("amount", .number amount)]

def approveFields (name sender spender : String) (amount : JsonNumber) : JsonObject :=
  [(name, .string sender), ("spender", .string spender), ("amount", .number amount)]

variable {c : Chain ι} {sender recipient spender : String} {n : JsonNumber} {s : Mlcoin.State}

-- Which field of the messages goes where.
section Fields

theorem isField_self : isField "from" "from" ∧ isField "to" "to" ∧ isField "amount" "amount" ∧
    isField "owner" "owner" ∧ isField "spender" "spender" := by
  decide

theorem isField_transfer : ¬isField "from" "to" ∧ ¬isField "from" "amount" ∧
    ¬isField "to" "from" ∧ ¬isField "to" "amount" ∧ ¬isField "amount" "from" ∧
    ¬isField "amount" "to" := by
  decide

theorem isField_approve : ¬isField "owner" "spender" ∧ ¬isField "owner" "amount" ∧
    ¬isField "spender" "owner" ∧ ¬isField "spender" "amount" ∧ ¬isField "amount" "owner" ∧
    ¬isField "amount" "spender" := by
  decide

end Fields

theorem decodeTransfer_fields :
    (decodeTransfer (transferFields "from" sender recipient n)).toOption =
      n.parseUint.map fun a => ⟨sender, recipient, a⟩ := by
  cases h : n.parseUint <;>
    simp [decodeTransfer, decodeString, decodeUint, transferFields, isField_self, isField_transfer, h,
      orFail, Except.toOption, bind, Except.bind, pure, Except.pure]

theorem decodeApprove_fields :
    (decodeApprove (approveFields "owner" sender spender n)).toOption =
      n.parseUint.map fun a => ⟨sender, spender, a⟩ := by
  cases h : n.parseUint <;>
    simp [decodeApprove, decodeString, decodeUint, approveFields, isField_self, isField_approve, h,
      orFail, Except.toOption, bind, Except.bind, pure, Except.pure]

theorem toOption_eq_some {α : Type} {r : Result α} {a : α} :
    r.toOption = some a ↔ r = .ok a := by
  cases r <;> simp [Except.toOption]

theorem toOption_bind {α β : Type} {r : Result α} {f : α → Result β} :
    (r >>= f).toOption = r.toOption.bind fun a => (f a).toOption := by
  cases r <;> rfl

theorem bridged_transfer :
    c.bridged sender "transfer" (transferFields "from" sender recipient n) s =
      n.parseUint.bind fun a =>
        (c.bridge.handleTransfer c.ctx ⟨sender, recipient, a⟩ s).toOption := by
  rw [Chain.bridged, Keeper.executeAction, toOption_bind, decodeTransfer_fields, Option.bind_map]
  congr 1
  funext a
  rw [Function.comp_apply, toOption_bind, failIf, if_neg (by simp)]
  rfl

theorem bridged_approve :
    c.bridged sender "approve" (approveFields "owner" sender spender n) s =
      n.parseUint.bind fun a => (c.bridge.handleApprove ⟨sender, spender, a⟩ s).toOption := by
  rw [Chain.bridged, Keeper.executeAction, toOption_bind, decodeApprove_fields, Option.bind_map]
  congr 1
  funext a
  rw [Function.comp_apply, toOption_bind, failIf, if_neg (by simp)]
  rfl

-- The amount that the built-in action takes from a number.
def Chain.convert (c : Chain ι) (n : JsonNumber) : Option UInt64 :=
  n.parseFloat.map (uint64OfFloat c.beyond)

variable {w : World Mlcoin.State}

-- A call of the bridge that consumes no gas.
theorem bridge_apply {α : Type} {call : Mlcoin.State → GasMeter → Bridged Mlcoin.State α}
    {b : Bridged Mlcoin.State α} (hb : call w.state.tokens w.meter = b) (hg : b.gas = []) :
    Wasm.bridge call w =
      (b.result, { w with state := { w.state with tokens := b.tokens } }) := by
  rw [Wasm.bridge, hb]
  dsimp only
  rw [hg]
  cases b.result <;> rfl

theorem tokensOf_bridge {α β : Type} {call : Mlcoin.State → GasMeter → Bridged Mlcoin.State α}
    {r : Result Mlcoin.State} {leave : Mlcoin.State → Mlcoin.State} {a : α} {data : β}
    (hb : call w.state.tokens w.meter = match r with
      | .ok s'   => { tokens := s', gas := [], result := .ok a }
      | .error e => { tokens := leave w.state.tokens, gas := [], result := .error e }) :
    tokensOf ((do let _ ← Wasm.bridge call; return data : Action Mlcoin.State β) w) =
      r.toOption := by
  cases r with
  | error e =>
    rw [Effect.bind_of_error (bridge_apply hb rfl)]
    rfl
  | ok s' =>
    rw [Effect.bind_of_ok (bridge_apply hb rfl)]
    rfl

theorem tokensOf_executeTransfer {actionMsg : ActionMsg} :
    tokensOf (c.wasmKeeper.executeTransfer sender actionMsg w) =
      (c.bridge.handleTransfer c.ctx ⟨sender, Wasm.Keeper.stringField actionMsg "to",
        c.wasmKeeper.amountField actionMsg⟩ w.state.tokens).toOption :=
  tokensOf_bridge rfl

theorem tokensOf_executeApprove {actionMsg : ActionMsg} :
    tokensOf (c.wasmKeeper.executeApprove sender actionMsg w) =
      (c.bridge.handleApprove ⟨sender, Wasm.Keeper.stringField actionMsg "spender",
        c.wasmKeeper.amountField actionMsg⟩ w.state.tokens).toOption :=
  tokensOf_bridge rfl

theorem decode_error {name value key s : String} (h : n.parseFloat = none) :
    ∃ e, decodeActionMsg [(name, .string value), (key, .string s), ("amount", .number n)] =
      .error e := by
  simp [decodeActionMsg, decodeValue, h, List.mapM, List.mapM.loop, bind, Except.bind, pure,
    Except.pure]

theorem decode_transfer {x : ℚ} (h : n.parseFloat = some x) :
    ∃ msg, decodeActionMsg (transferFields "action" "transfer" recipient n) = .ok msg ∧
      Wasm.Keeper.stringField msg "to" = recipient ∧ msg "amount" = some (.number x) := by
  refine ⟨lookupField [("action", .string "transfer"), ("to", .string recipient), ("amount", .number x)],
    ?_, ?_, ?_⟩
  · simp only [decodeActionMsg, transferFields, decodeValue, h, List.mapM, List.mapM.loop, bind,
      Except.bind, pure, Except.pure]
    rfl
  · simp [lookupField, Wasm.Keeper.stringField, JsonValue.asString]
  · simp [lookupField]

theorem decode_approve {x : ℚ} (h : n.parseFloat = some x) :
    ∃ msg, decodeActionMsg (approveFields "action" "approve" spender n) = .ok msg ∧
      Wasm.Keeper.stringField msg "spender" = spender ∧ msg "amount" = some (.number x) := by
  refine ⟨lookupField [("action", .string "approve"), ("spender", .string spender), ("amount", .number x)],
    ?_, ?_, ?_⟩
  · simp only [decodeActionMsg, approveFields, decodeValue, h, List.mapM, List.mapM.loop, bind,
      Except.bind, pure, Except.pure]
    rfl
  · simp [lookupField, Wasm.Keeper.stringField, JsonValue.asString]
  · simp [lookupField]

theorem amountField_eq {msg : ActionMsg} {x : ℚ} (h : msg "amount" = some (.number x)) :
    c.wasmKeeper.amountField msg = uint64OfFloat c.beyond x := by
  simp [Wasm.Keeper.amountField, h, JsonValue.asNumber, Chain.wasmKeeper]

theorem builtin_transfer :
    c.builtin sender "transfer" (transferFields "action" "transfer" recipient n) w =
      (c.convert n).bind fun a =>
        (c.bridge.handleTransfer c.ctx ⟨sender, recipient, a⟩ w.state.tokens).toOption := by
  rw [Chain.builtin, Chain.convert]
  cases h : n.parseFloat with
  | none =>
    obtain ⟨e, he⟩ := decode_error h
    rw [transferFields, he]
    rfl
  | some x =>
    obtain ⟨msg, hm, ht, ha⟩ := decode_transfer h
    rw [hm]
    dsimp only
    rw [tokensOf_executeTransfer, ht, amountField_eq ha]
    rfl

theorem builtin_approve :
    c.builtin sender "approve" (approveFields "action" "approve" spender n) w =
      (c.convert n).bind fun a =>
        (c.bridge.handleApprove ⟨sender, spender, a⟩ w.state.tokens).toOption := by
  rw [Chain.builtin, Chain.convert]
  cases h : n.parseFloat with
  | none =>
    obtain ⟨e, he⟩ := decode_error h
    rw [approveFields, he]
    rfl
  | some x =>
    obtain ⟨msg, hm, ht, ha⟩ := decode_approve h
    rw [hm]
    dsimp only
    rw [tokensOf_executeApprove, ht, amountField_eq ha]
    rfl

-- When the tokens let the bridge move or approve an amount.
section Possible

open Mlcoin

-- What a wallet can spend, with what its unlock time releases.
def spendable (ctx : Context) (wallet : WalletBalance) : UInt64 :=
  if Mlcoin.Keeper.vested ctx wallet then wallet.balance + wallet.locked else wallet.balance

def ValidAddress (k : Keeper) (mlcoin : Mlcoin.Keeper) (addr : String) : Prop :=
  addr ≠ "" ∧ k.addressCodec addr ≠ none ∧ mlcoin.stringToBytes addr ≠ none

structure Movable (k : Keeper) (ctx : Context) (sender recipient : String) (s : State)
    (amount : UInt64) : Prop where
  addresses : ∃ mlcoin, k.mlcoinKeeper = some mlcoin ∧ ValidAddress k mlcoin sender ∧
    ValidAddress k mlcoin recipient
  positive  : amount ≠ 0
  funded    : ∃ wallet, s.walletBalance.get sender = some wallet ∧ amount ≤ spendable ctx wallet
  fits      : sender ≠ recipient →
    ((s.walletBalance.get recipient).elim 0 (·.balance)).toNat + amount.toNat < 2 ^ 64

structure Approvable (k : Keeper) (owner spender : String) (amount : UInt64) : Prop where
  addresses : ∃ mlcoin, k.mlcoinKeeper = some mlcoin ∧ ValidAddress k mlcoin owner ∧
    ValidAddress k mlcoin spender
  positive  : amount ≠ 0

variable {k : Keeper} {mlcoin : Mlcoin.Keeper} {ctx : Context} {a b amount : UInt64}
  {owner addr : String} {wallet : WalletBalance} {s' : State}

theorem validateAddress_ok_iff {u : Unit} :
    k.validateAddress addr = .ok u ↔ addr ≠ "" ∧ k.addressCodec addr ≠ none := by
  simp [Keeper.validateAddress]

theorem safeSub_ok_iff {x : UInt64} : safeSub a b = .ok x ↔ b ≤ a ∧ a - b = x := by
  simp only [safeSub, Result.bind_eq_ok, failIf_eq_ok, Result.pure_eq_ok, exists_const,
    gt_iff_lt, UInt64.not_lt]

theorem safeAdd_ok_iff {x : UInt64} :
    safeAdd a b = .ok x ↔ a.toNat + b.toNat < 2 ^ 64 ∧ a + b = x := by
  have hb := b.toNat_lt
  have h : ¬a.toNat > 2 ^ 64 - 1 - b.toNat ↔ a.toNat + b.toNat < 2 ^ 64 := by omega
  simp only [safeAdd, Result.bind_eq_ok, failIf_eq_ok, Result.pure_eq_ok, h]
  tauto

theorem releaseVested_wallet {wallet' : WalletBalance}
    (h : Mlcoin.Keeper.releaseVested ctx addr wallet s = (s', wallet')) :
    wallet'.balance = spendable ctx wallet ∧
      ∀ other ≠ addr, s'.walletBalance.get other = s.walletBalance.get other := by
  rw [Mlcoin.Keeper.releaseVested] at h
  split_ifs at h with hv
  case pos =>
    cases h
    exact ⟨(if_pos hv).symm, fun other hne => KVStore.get_set_ne hne⟩
  case neg =>
    cases h
    exact ⟨(if_neg hv).symm, fun _ _ => rfl⟩

-- The balance of the recipient after the amount has left the sender.
theorem recipient_balance {wallet' : WalletBalance} {newBalance : UInt64}
    (hs : ∀ other ≠ sender, s'.walletBalance.get other = s.walletBalance.get other) :
    (((s'.setWallet sender { wallet' with balance := newBalance }).walletBalance.get recipient).getD
      { address := recipient, balance := 0 }).balance =
      if sender = recipient then newBalance
      else (s.walletBalance.get recipient).elim 0 (·.balance) := by
  by_cases heq : sender = recipient
  case pos =>
    subst heq
    rw [State.get_setWallet, if_pos rfl]
    rfl
  case neg =>
    have hg : (s'.setWallet sender { wallet' with balance := newBalance }).walletBalance.get
        recipient = s.walletBalance.get recipient :=
      (KVStore.get_set_ne (Ne.symm heq)).trans (hs recipient (Ne.symm heq))
    rw [hg, if_neg heq]
    cases s.walletBalance.get recipient <;> rfl

theorem recipient_fits (hle : amount ≤ a) :
    (if sender = recipient then a - amount else b).toNat + amount.toNat < 2 ^ 64 ↔
      (sender ≠ recipient → b.toNat + amount.toNat < 2 ^ 64) := by
  have ha := a.toNat_lt
  have hn := UInt64.le_iff_toNat_le.mp hle
  split_ifs with heq
  case pos =>
    rw [UInt64.toNat_sub_of_le _ _ hle]
    simp only [heq, ne_eq, not_true_eq_false, false_implies, iff_true]
    omega
  case neg => simp [heq]

theorem transfer_ok {s₁ : State} {wallet₁ : WalletBalance} (hne : sender ≠ "" ∧ recipient ≠ "")
    (hs : mlcoin.stringToBytes sender ≠ none) (hr : mlcoin.stringToBytes recipient ≠ none)
    (hw : s.walletBalance.get sender = some wallet)
    (hv : Mlcoin.Keeper.releaseVested ctx sender wallet s = (s₁, wallet₁))
    (hle : amount ≤ wallet₁.balance)
    (hfit : ((((s₁.setWallet sender { wallet₁ with balance := wallet₁.balance - amount }).walletBalance.get
      recipient).getD { address := recipient, balance := 0 }).balance).toNat + amount.toNat < 2 ^ 64) :
    (mlcoin.transfer ctx sender recipient amount s).isOk = true := by
  have hsub : safeSub wallet₁.balance amount = .ok (wallet₁.balance - amount) :=
    safeSub_ok_iff.mpr ⟨hle, rfl⟩
  have hadd := safeAdd_ok_iff.mpr ⟨hfit, rfl⟩
  simp only [Mlcoin.Keeper.transfer, Mlcoin.Keeper.validateAddress, failIf, orFail, hne.1, hne.2, hs,
    hr, hw, or_self, if_false, Option.elim, Result.ok_bind, hv, UInt64.not_lt.mpr hle, hsub, hadd]
  rfl

theorem transfer_ok_iff :
    (mlcoin.transfer ctx sender recipient amount s).isOk = true ↔
      (sender ≠ "" ∧ recipient ≠ "") ∧ mlcoin.stringToBytes sender ≠ none ∧
      mlcoin.stringToBytes recipient ≠ none ∧
      (∃ wallet, s.walletBalance.get sender = some wallet ∧ amount ≤ spendable ctx wallet) ∧
      (sender ≠ recipient →
        ((s.walletBalance.get recipient).elim 0 (·.balance)).toNat + amount.toNat < 2 ^ 64) := by
  constructor
  case mp =>
    intro h
    obtain ⟨s', h⟩ := Result.isOk_iff.mp h
    simp only [Mlcoin.Keeper.transfer, Mlcoin.Keeper.validateAddress, Result.bind_eq_ok, failIf_eq_ok,
      orFail_eq_ok, Result.pure_eq_ok, safeSub_ok_iff, safeAdd_ok_iff, not_or] at h
    obtain ⟨_, hne, _, hs, _, hr, wallet, hw, h⟩ := h
    cases hv : Mlcoin.Keeper.releaseVested ctx sender wallet s with
    | mk s₁ wallet₁ =>
      obtain ⟨hb, hf⟩ := releaseVested_wallet hv
      rw [hv] at h
      obtain ⟨_, _, _, hsub, _, hadd, _⟩ := h
      rw [← hsub.2, recipient_balance hf, recipient_fits hsub.1] at hadd
      exact ⟨hne, hs, hr, ⟨wallet, hw, hb ▸ hsub.1⟩, hadd.1⟩
  case mpr =>
    intro h
    obtain ⟨hne, hs, hr, hwallet, hfit⟩ := h
    obtain ⟨wallet, hw, hle⟩ := hwallet
    cases hv : Mlcoin.Keeper.releaseVested ctx sender wallet s with
    | mk s₁ wallet₁ =>
      obtain ⟨hb, hf⟩ := releaseVested_wallet hv
      rw [← hb] at hle
      apply transfer_ok hne hs hr hw hv hle
      rw [recipient_balance hf, recipient_fits hle]
      exact hfit

theorem handleTransfer_ok_iff :
    (k.handleTransfer ctx ⟨sender, recipient, amount⟩ s).isOk = true ↔
      Movable k ctx sender recipient s amount := by
  constructor
  case mp =>
    intro h
    obtain ⟨s', h⟩ := Result.isOk_iff.mp h
    simp only [Keeper.handleTransfer, Keeper.mlcoin, Result.bind_eq_ok, failIf_eq_ok, orFail_eq_ok,
      validateAddress_ok_iff] at h
    obtain ⟨mlcoin, hm, _, hs, _, hr, _, hz, h⟩ := h
    obtain ⟨_, hs', hr', hw, hfit⟩ := transfer_ok_iff.mp (Result.isOk_iff.mpr ⟨s', h⟩)
    exact ⟨⟨mlcoin, hm, ⟨hs.1, hs.2, hs'⟩, ⟨hr.1, hr.2, hr'⟩⟩, hz, hw, hfit⟩
  case mpr =>
    intro h
    obtain ⟨mlcoin, hm, hs, hr⟩ := h.addresses
    obtain ⟨s', ht⟩ := Result.isOk_iff.mp <| transfer_ok_iff.mpr
      ⟨⟨hs.1, hr.1⟩, hs.2.2, hr.2.2, h.funded, h.fits⟩
    refine Result.isOk_iff.mpr ⟨s', ?_⟩
    simp only [Keeper.handleTransfer, Keeper.mlcoin, Result.bind_eq_ok, failIf_eq_ok, orFail_eq_ok,
      validateAddress_ok_iff]
    exact ⟨mlcoin, hm, (), ⟨hs.1, hs.2.1⟩, (), ⟨hr.1, hr.2.1⟩, (), h.positive, ht⟩

theorem handleApprove_ok_iff :
    (k.handleApprove ⟨owner, spender, amount⟩ s).isOk = true ↔ Approvable k owner spender amount := by
  simp only [Result.isOk_iff, Keeper.handleApprove, Keeper.mlcoin, Mlcoin.Keeper.approve,
    Mlcoin.Keeper.validateAddress, Result.bind_eq_ok, failIf_eq_ok, orFail_eq_ok,
    validateAddress_ok_iff, Result.pure_eq_ok, not_or]
  constructor
  case mp =>
    intro h
    obtain ⟨_, mlcoin, hm, _, ho, _, hs, _, hz, _, _, _, ho', _, hs', _⟩ := h
    exact ⟨⟨mlcoin, hm, ⟨ho.1, ho.2, ho'⟩, ⟨hs.1, hs.2, hs'⟩⟩, hz⟩
  case mpr =>
    intro h
    obtain ⟨mlcoin, hm, ho, hs⟩ := h.addresses
    exact ⟨_, mlcoin, hm, (), ⟨ho.1, ho.2.1⟩, (), ⟨hs.1, hs.2.1⟩, (), h.positive, (), ⟨ho.1, hs.1⟩,
      (), ho.2.2, (), hs.2.2, rfl⟩

end Possible

-- Two decodings of a number that are used in the same way.
section Decodings

variable {α β : Type} {f : α → Option β} {x y : Option α}

theorem bind_eq_bind_iff (hf : ∀ a b z, f a = some z → f b = some z → a = b) :
    x.bind f = y.bind f ↔ x = y ∨ ∀ a, x = some a ∨ y = some a → f a = none := by
  constructor
  case mp =>
    intro h
    by_cases hx : ∃ z, x.bind f = some z
    case pos =>
      obtain ⟨z, hz⟩ := hx
      obtain ⟨a, ha, hfa⟩ := Option.bind_eq_some_iff.mp hz
      obtain ⟨b, hb, hfb⟩ := Option.bind_eq_some_iff.mp (h ▸ hz)
      left
      rw [ha, hb, hf a b z hfa hfb]
    case neg =>
      right
      intro a ha
      cases hfa : f a with
      | none => rfl
      | some z =>
        refine absurd ⟨z, ?_⟩ hx
        rcases ha with ha | ha
        case inl => rw [ha, Option.bind_some, hfa]
        case inr => rw [h, ha, Option.bind_some, hfa]
  case mpr =>
    intro h
    rcases h with h | h
    case inl => rw [h]
    case inr =>
      have hnone : ∀ o : Option α, (∀ a, o = some a → f a = none) → o.bind f = none := by
        intro o ho
        cases o with
        | none => rfl
        | some a => exact ho a rfl
      rw [hnone x fun a ha => h a (.inl ha), hnone y fun a ha => h a (.inr ha)]

end Decodings

section Distinct

open Mlcoin

variable {k : Keeper} {mlcoin : Mlcoin.Keeper} {ctx : Context} {a b : UInt64} {owner : String}
  {s' : State}

-- A transfer is recorded with its amount.
theorem transfer_recorded (h : mlcoin.transfer ctx sender recipient a s = .ok s') :
    (s'.transactions.get s!"TX-{s.transactionCount}").map (·.amount) = some a := by
  simp only [Mlcoin.Keeper.transfer, Result.bind_eq_ok, Result.pure_eq_ok] at h
  obtain ⟨_, _, _, _, _, _, wallet, _, _, _, _, _, _, _, hs⟩ := h
  subst hs
  have hc : (Mlcoin.Keeper.releaseVested ctx sender wallet s).1.transactionCount =
      s.transactionCount := by
    rw [Mlcoin.Keeper.releaseVested]
    split_ifs <;> rfl
  rw [Mlcoin.Keeper.recordTransaction]
  dsimp only [State.setWallet]
  rw [hc, KVStore.get_set_self]
  rfl

theorem of_handleTransfer (h : (k.handleTransfer ctx ⟨sender, recipient, a⟩ s).toOption = some s') :
    (s'.transactions.get s!"TX-{s.transactionCount}").map (·.amount) = some a := by
  rw [toOption_eq_some] at h
  simp only [Keeper.handleTransfer, Result.bind_eq_ok] at h
  obtain ⟨mlcoin, _, _, _, _, _, _, _, h⟩ := h
  exact transfer_recorded h

-- Different amounts leave different tokens.
theorem transfer_inj (a b : UInt64) (s' : State)
    (ha : (k.handleTransfer ctx ⟨sender, recipient, a⟩ s).toOption = some s')
    (hb : (k.handleTransfer ctx ⟨sender, recipient, b⟩ s).toOption = some s') : a = b :=
  Option.some_inj.mp ((of_handleTransfer ha).symm.trans (of_handleTransfer hb))

theorem of_handleApprove (h : (k.handleApprove ⟨owner, spender, a⟩ s).toOption = some s') :
    Mlcoin.Keeper.getAllowance owner spender s' = a := by
  rw [toOption_eq_some] at h
  simp only [Keeper.handleApprove, Mlcoin.Keeper.approve, Result.bind_eq_ok, Result.pure_eq_ok] at h
  obtain ⟨_, _, _, _, _, _, _, _, _, _, _, _, _, _, hs⟩ := h
  subst hs
  rw [Mlcoin.Keeper.getAllowance, Mlcoin.Keeper.setAllowance, KVStore.get_set_self]
  rfl

theorem approve_inj (a b : UInt64) (s' : State)
    (ha : (k.handleApprove ⟨owner, spender, a⟩ s).toOption = some s')
    (hb : (k.handleApprove ⟨owner, spender, b⟩ s).toOption = some s') : a = b :=
  (of_handleApprove ha).symm.trans (of_handleApprove hb)

end Distinct

-- The two decodings give one amount, or none of those that they give is possible.
def Chain.Agrees (c : Chain ι) (n : JsonNumber) (possible : UInt64 → Prop) : Prop :=
  c.convert n = n.parseUint ∨
    ∀ amount, c.convert n = some amount ∨ n.parseUint = some amount → ¬possible amount

theorem toOption_eq_none_iff {α : Type} {r : Result α} {p : Prop} (h : r.isOk = true ↔ p) :
    r.toOption = none ↔ ¬p := by
  rw [← h]
  cases r <;> simp [Except.toOption, Except.isOk, Except.toBool]

theorem entryPoints_agree_iff (c : Chain ι) (sender recipient spender : String) (n : JsonNumber)
    (w : World Mlcoin.State) :
    (c.builtin sender "transfer" (transferFields "action" "transfer" recipient n) w =
        c.bridged sender "transfer" (transferFields "from" sender recipient n) w.state.tokens ↔
      c.Agrees n (Movable c.bridge c.ctx sender recipient w.state.tokens)) ∧
    (c.builtin sender "approve" (approveFields "action" "approve" spender n) w =
        c.bridged sender "approve" (approveFields "owner" sender spender n) w.state.tokens ↔
      c.Agrees n (Approvable c.bridge sender spender)) := by
  constructor
  case left =>
    rw [builtin_transfer, bridged_transfer, bind_eq_bind_iff transfer_inj, Chain.Agrees]
    simp only [toOption_eq_none_iff handleTransfer_ok_iff]
  case right =>
    rw [builtin_approve, bridged_approve, bind_eq_bind_iff approve_inj, Chain.Agrees]
    simp only [toOption_eq_none_iff handleApprove_ok_iff]

-- Whole amounts that are written with digits only and have at most 53 binary digits agree.
theorem convert_of_parseUint {a : UInt64} (h : n.parseUint = some a) (ha : a.toNat < 2 ^ 53) :
    c.convert n = some a := by
  have hv : n.value = ((a.toNat : ℤ) : ℚ) := by
    rw [JsonNumber.value_of_parseUint h]
    norm_cast
  have habs : |(a.toNat : ℤ)| < 2 ^ 53 := by
    rw [abs_of_nonneg (by omega)]
    exact_mod_cast ha
  have hfit : (0 : ℚ) ≤ ((a.toNat : ℤ) : ℚ) ∧ ((a.toNat : ℤ) : ℚ) < 2 ^ 64 := by
    have hlt := a.toNat_lt
    constructor <;> exact_mod_cast (by omega)
  rw [Chain.convert, JsonNumber.parseFloat, hv, if_pos (Binary64.isFinite_intCast habs),
    Binary64.round_intCast habs, Option.map_some, uint64OfFloat, if_pos hfit, Int.floor_intCast,
    Int.toNat_natCast, UInt64.ofNat_toNat]

namespace Sample

def mlcoinKeeper : Mlcoin.Keeper where
  stringToBytes _ := some (.ofBytes [1])
  authority       := .ofBytes [0]
  authorityString := "gov"
  moduleAddr      := .ofBytes [0]
  treasuryAddr    := .ofBytes [0]
  mintAddr        := .ofBytes [0]

def bridge : Keeper where
  addressCodec _ := some (.ofBytes [1])
  mlcoinKeeper   := some mlcoinKeeper

def runtime : Wazero Unit where
  compileModule _      := .error "no contracts"
  hostModule           := .ok ()
  exportedFunction _ _ := none
  read _ _ _           := none
  write _ _ _          := none
  readUint32Le _ _     := none
  writeUint32Le _ _ _  := none
  timedOut             := false

def ctx : Mlcoin.Context where
  blockTime   := 1700000000
  blockHeight := 1

def wasm : Wasm.Keeper Mlcoin.State Unit where
  accAddressFromBech32 _ := .ok (.ofBytes [1])
  bech32 _               := "alice"
  sum256 data            := data
  unmarshal _            := .error "no messages"
  uint64 x               := UInt64.ofNat x.floor.toNat
  access _ _             := .ok []
  wasmbridgeKeeper       := bridge.interface ctx id
  runtime                := runtime

def chain : Chain Unit where
  wasm     := wasm
  bridge   := bridge
  ctx      := ctx
  leave s  := s
  beyond _ := 2 ^ 63

def tokens : Mlcoin.State where
  walletBalance := KVStore.empty.set "alice" { address := "alice", balance := 10 }

def world : World Mlcoin.State where
  state := { tokens := tokens }
  meter := { limit := 0, consumed := 0 }

-- 1.5
def number : JsonNumber where
  integer  := 1
  fraction := [5]

end Sample

-- The built-in action moves the whole part of 1.5, which the bridge refuses.
theorem fraction_moved :
    ¬∀ (sender recipient : String) (n : JsonNumber) (w : World Mlcoin.State),
      Sample.chain.builtin sender "transfer" (transferFields "action" "transfer" recipient n) w =
        Sample.chain.bridged sender "transfer" (transferFields "from" sender recipient n)
          w.state.tokens := by
  intro h
  have hw : ((Sample.chain.builtin "alice" "transfer"
      (transferFields "action" "transfer" "bob" Sample.number) Sample.world).bind fun s =>
        (s.walletBalance.get "bob").map (·.balance)) = some 1 := by
    decide +kernel
  have hb : (Sample.chain.bridged "alice" "transfer" (transferFields "from" "alice" "bob" Sample.number)
      Sample.world.state.tokens).isNone = true := by
    decide +kernel
  rw [h "alice" "bob" Sample.number Sample.world, Option.isNone_iff_eq_none.mp hb] at hw
  cases hw

end Wasmbridge
