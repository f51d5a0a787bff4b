import MallChain.Mlcoin.Genesis
import MallChain.Wasmbridge.Keeper

-- What spenders move out of the wallets of owners.

namespace Wasmbridge

open Sdk

-- A signed message of the bridge, or anything that the module itself does.
inductive Operation
  | execute (sender action : String) (message : JsonObject)
  | keeper (a : Mlcoin.Action)

-- The bridge over the keeper of the coins.
structure Module where
  addressCodec : String → Option AccAddress
  coins        : Mlcoin.Keeper

def Module.bridge (m : Module) : Keeper where
  addressCodec := m.addressCodec
  mlcoinKeeper := some m.coins

def Module.perform (m : Module) (p : Mlcoin.Chain) : Operation → Result Mlcoin.Chain
  | .execute sender action message =>
    return { p with state := ← m.bridge.executeAction p.ctx sender action message p.state }
  | .keeper a                      => m.coins.act p a

-- What is rejected changes nothing, as all checks come before the first write.
def Module.next (m : Module) (p : Mlcoin.Chain) (op : Operation) : Mlcoin.Chain :=
  (m.perform p op).toOption.getD p

-- What an operation asks of the coins.
def Operation.call : Operation → Option Mlcoin.Call
  | keeper (.call c)               => some c
  | keeper _                       => none
  | execute _ "transfer" msg       =>
    (decodeTransfer msg).toOption.map fun m => .transfer m.fromAddr m.toAddr m.amount
  | execute _ "approve" msg        =>
    (decodeApprove msg).toOption.map fun m => .approve m.owner m.spender m.amount
  | execute _ "transfer_from" msg  =>
    (decodeTransferFrom msg).toOption.map fun m => .transferFrom m.owner m.spender m.recipient m.amount
  | execute _ _ _                  => none

-- An operation with the states around it.
structure Entry where
  before   : Mlcoin.State
  op       : Operation
  accepted : Bool
  after    : Mlcoin.State

def Module.entry (m : Module) (p : Mlcoin.Chain) (op : Operation) (p' : Mlcoin.Chain) : Entry where
  before   := p.state
  op       := op
  accepted := (m.perform p op).isOk
  after    := p'.state

def Entry.call (e : Entry) : Option Mlcoin.Call :=
  if e.accepted then e.op.call else none

-- The amount of an approval
def Entry.approved (owner spender : String) (e : Entry) : Option UInt64 :=
  match e.call with
  | some (.approve owner' spender' amount) =>
    if owner' = owner ∧ spender' = spender then some amount else none
  | _ => none

-- What a spender took out of the wallet of an owner
def Entry.movedOut (owner spender : String) (e : Entry) : ℕ :=
  match e.call with
  | some (.transferFrom owner' spender' _ _) =>
    if owner' = owner ∧ spender' = spender then
      (e.before.wallet owner).balance.toNat - (e.after.wallet owner).balance.toNat
    else 0
  | _ => 0

-- What was approved last, the last entry first.
def lastApproved (owner spender : String) : List Entry → Option UInt64
  | []      => none
  | e :: es => (e.approved owner spender).or (lastApproved owner spender es)

def movedSince (owner spender : String) : List Entry → ℕ
  | []      => 0
  | e :: es =>
    if (e.approved owner spender).isSome then 0
    else e.movedOut owner spender + movedSince owner spender es

structure AllowanceSafe (history : List Entry) : Prop where
  bounded  : ∀ owner spender amount, lastApproved owner spender history = some amount →
    movedSince owner spender history ≤ amount.toNat
  signed   : ∀ e ∈ history, ∀ sender action message, e.op = .execute sender action message →
    ∀ owner spender recipient amount, e.call = some (.transferFrom owner spender recipient amount) →
      sender = spender
  separate : ∀ e ∈ history, ∀ owner spender,
    Mlcoin.Keeper.getAllowance owner spender e.after ≠
      Mlcoin.Keeper.getAllowance owner spender e.before →
    (∃ amount, e.call = some (.approve owner spender amount)) ∨
      ∃ recipient amount, e.call = some (.transferFrom owner spender recipient amount)
  rejected : ∀ e ∈ history, e.accepted = false → e.after = e.before

def allowances (m : Module) (init : Mlcoin.Chain → Prop) : TransitionSystem Mlcoin.Chain Operation where
  init         := init
  step p op p' := p' = m.next p op

-- An owner that pays itself has room for the amount.
def RoomForSelf (p : Mlcoin.Chain) (op : Operation) : Prop :=
  ∀ owner spender amount, op.call = some (.transferFrom owner spender owner amount) →
    (p.state.wallet owner).balance.toNat + amount.toNat < 2 ^ 64

-- Addresses have no separator in them.
def Module.Separated (m : Module) : Prop :=
  ∀ address, m.coins.stringToBytes address ≠ none → '|' ∉ address.toList

variable {m : Module} {ctx : Mlcoin.Context} {p : Mlcoin.Chain} {op : Operation} {s s' : Mlcoin.State}
variable {sender action owner spender owner' spender' recipient : String} {message : JsonObject}
variable {amount : UInt64} {e : Entry} {history : List Entry}

theorem allowanceKey_inj (ho : '|' ∉ owner.toList) (hs : '|' ∉ spender.toList)
    (h : Mlcoin.Keeper.allowanceKey owner' spender' = Mlcoin.Keeper.allowanceKey owner spender) :
    owner' = owner ∧ spender' = spender := by
  have hlist := congrArg String.toList h
  have hbar : "|".toList = ['|'] := rfl
  simp only [Mlcoin.Keeper.allowanceKey, String.toList_append, hbar, List.append_assoc,
    List.singleton_append] at hlist
  obtain ⟨hl, _, hr⟩ := (List.append_cons_inj_of_notMem ho hs).mp hlist.symm
  exact ⟨String.toList_injective hl.symm, String.toList_injective hr.symm⟩

-- A message that is accepted is a call that its sender may make.
theorem of_executeAction (h : m.bridge.executeAction ctx sender action message s = .ok s') :
    ∃ c, (Operation.execute sender action message).call = some c ∧ m.coins.call ctx s c = .ok s' ∧
      ∀ owner spender recipient amount, c = .transferFrom owner spender recipient amount →
        sender = spender := by
  simp only [Keeper.executeAction] at h
  split at h
  case h_1 =>
    simp only [Keeper.handleTransfer, Keeper.mlcoin, Module.bridge, Result.bind_eq_ok, failIf_eq_ok,
      orFail_eq_ok] at h
    obtain ⟨msg, hmsg, _, _, _, ⟨⟩, _, _, _, _, _, _, h⟩ := h
    refine ⟨.transfer msg.fromAddr msg.toAddr msg.amount, ?_, h, fun _ _ _ _ he => by cases he⟩
    simp [Operation.call, hmsg, Except.toOption]
  case h_2 =>
    simp only [Keeper.handleApprove, Keeper.mlcoin, Module.bridge, Result.bind_eq_ok, failIf_eq_ok,
      orFail_eq_ok] at h
    obtain ⟨msg, hmsg, _, _, _, ⟨⟩, _, _, _, _, _, _, h⟩ := h
    refine ⟨.approve msg.owner msg.spender msg.amount, ?_, h, fun _ _ _ _ he => by cases he⟩
    simp [Operation.call, hmsg, Except.toOption]
  case h_3 =>
    simp only [Keeper.handleTransferFrom, Keeper.mlcoin, Module.bridge, Result.bind_eq_ok,
      failIf_eq_ok, orFail_eq_ok, not_not] at h
    obtain ⟨msg, hmsg, _, hsender, _, ⟨⟩, _, _, _, _, _, _, _, _, h⟩ := h
    refine ⟨.transferFrom msg.owner msg.spender msg.recipient msg.amount, ?_, h, ?_⟩
    · simp [Operation.call, hmsg, Except.toOption]
    · rintro _ _ _ _ ⟨⟩
      exact hsender
  case h_4 => cases h

-- What a step is: a call, the work of the chain that leaves the allowances alone, or nothing.
inductive Stepped (m : Module) (p : Mlcoin.Chain) (op : Operation) (p' : Mlcoin.Chain) : Prop
  | called (c : Mlcoin.Call) (ctx : Mlcoin.Context)
    (h : m.coins.call ctx p.state c = .ok p'.state)
    (hcall : (m.entry p op p').call = some c)
    (hsender : ∀ sender action message, op = .execute sender action message →
      ∀ owner spender recipient amount, c = .transferFrom owner spender recipient amount →
        sender = spender)
  | other (h : p'.state.allowances = p.state.allowances) (hcall : (m.entry p op p').call = none)
    (hrejected : (m.entry p op p').accepted = false → p'.state = p.state)

theorem stepped (m : Module) (p : Mlcoin.Chain) (op : Operation) : Stepped m p op (m.next p op) := by
  cases hperform : m.perform p op with
  | error e =>
    have hnext : m.next p op = p := by
      rw [Module.next, hperform]
      rfl
    have hrejected : (m.entry p op (m.next p op)).accepted = false := by
      rw [Module.entry, hperform]
      rfl
    refine .other (by rw [hnext]) ?_ fun _ => by rw [hnext]
    rw [Entry.call, hrejected]
    rfl
  | ok p' =>
    have hnext : m.next p op = p' := by
      rw [Module.next, hperform]
      rfl
    have haccepted : (m.entry p op p').accepted = true := by
      rw [Module.entry, hperform]
      rfl
    have hcall : (m.entry p op p').call = op.call := if_pos haccepted
    rw [hnext]
    cases op with
    | execute sender action message =>
      simp only [Module.perform, Result.bind_eq_ok, Result.pure_eq_ok] at hperform
      obtain ⟨s', hexec, rfl⟩ := hperform
      obtain ⟨c, hc, hdone, hsender⟩ := of_executeAction hexec
      refine .called c p.ctx hdone (hcall.trans hc) ?_
      rintro _ _ _ ⟨⟩
      exact hsender
    | keeper a =>
      have hact : m.coins.act p a = .ok p' := hperform
      cases a with
      | call c =>
        simp only [Mlcoin.Keeper.act, Result.bind_eq_ok, Result.pure_eq_ok] at hact
        obtain ⟨s', hdone, rfl⟩ := hact
        exact .called c p.ctx hdone hcall fun _ _ _ he => by cases he
      | endBlock ctx =>
        refine .other ?_ hcall fun hr => by rw [haccepted] at hr; cases hr
        cases Mlcoin.of_act hact with
        | ended h => exact (congrArg Mlcoin.State.allowances h.state).trans rfl
      | rest bank =>
        refine .other ?_ hcall fun hr => by rw [haccepted] at hr; cases hr
        cases hact
        rfl

-- What a spender moves is valid, within the allowance and within the wallet.
theorem of_transferFrom (h : m.coins.transferFrom ctx owner spender recipient amount s = .ok s') :
    m.coins.stringToBytes owner ≠ none ∧ m.coins.stringToBytes spender ≠ none ∧
      amount.toNat ≤ (Mlcoin.Keeper.getAllowance owner spender s).toNat ∧
      amount.toNat ≤ (s.wallet owner).balance.toNat ∧
      (s'.wallet owner).balance =
        if recipient = owner then (s.wallet owner).balance + amount
        else (s.wallet owner).balance - amount := by
  simp only [Mlcoin.Keeper.transferFrom, Mlcoin.Keeper.validateAddress, Result.bind_eq_ok,
    failIf_eq_ok, orFail_eq_ok, Result.pure_eq_ok] at h
  obtain ⟨_, _, _, howner, _, hspender, _, _, _, hallow, w, hw, _, hbal, rfl⟩ := h
  have hwallet : s.wallet owner = w := by rw [Mlcoin.State.wallet, hw, Option.getD_some]
  rw [hwallet]
  refine ⟨howner, hspender, UInt64.le_iff_toNat_le.mp (UInt64.not_lt.mp hallow),
    UInt64.le_iff_toNat_le.mp (UInt64.not_lt.mp hbal), ?_⟩
  by_cases hself : recipient = owner
  case pos =>
    subst hself
    rw [if_pos rfl, hw]
    simp only [Mlcoin.State.wallet, Mlcoin.Keeper.recordTransaction, Mlcoin.State.get_setWallet,
      Option.getD_some]
  case neg =>
    rw [if_neg hself]
    simp only [Mlcoin.State.wallet, Mlcoin.Keeper.recordTransaction, Mlcoin.State.setWallet]
    rw [KVStore.get_set_ne (Ne.symm hself), KVStore.get_set_self]
    rfl

theorem of_approve (h : m.coins.approve owner spender amount s = .ok s') :
    m.coins.stringToBytes owner ≠ none ∧ m.coins.stringToBytes spender ≠ none := by
  simp only [Mlcoin.Keeper.approve, Mlcoin.Keeper.validateAddress, Result.bind_eq_ok,
    failIf_eq_ok] at h
  obtain ⟨_, _, _, howner, _, hspender, _⟩ := h
  exact ⟨howner, hspender⟩

theorem getAllowance_set (howner : '|' ∉ owner.toList) (hspender : '|' ∉ spender.toList)
    (h : s'.allowances = s.allowances.set (Mlcoin.Keeper.allowanceKey owner spender) amount)
    (owner' spender' : String) : Mlcoin.Keeper.getAllowance owner' spender' s' =
      if owner = owner' ∧ spender = spender' then amount
      else Mlcoin.Keeper.getAllowance owner' spender' s := by
  rw [Mlcoin.Keeper.getAllowance, h, KVStore.get_set]
  by_cases hsame : owner = owner' ∧ spender = spender'
  case pos =>
    obtain ⟨rfl, rfl⟩ := hsame
    simp
  case neg =>
    have hkey : Mlcoin.Keeper.allowanceKey owner' spender' ≠
        Mlcoin.Keeper.allowanceKey owner spender := fun hk =>
      hsame ((allowanceKey_inj howner hspender hk).imp Eq.symm Eq.symm)
    rw [if_neg hkey, if_neg hsame]
    rfl

-- What is left of an approval and what was moved do not exceed it.
def Within (s : Mlcoin.State) (history : List Entry) : Prop :=
  ∀ owner spender amount, lastApproved owner spender history = some amount →
    movedSince owner spender history +
      (Mlcoin.Keeper.getAllowance owner spender s).toNat ≤ amount.toNat

-- An entry that approves nothing for a pair, moves what it takes from the allowance of the pair at most.
theorem Within.cons (h : Within s history)
    (he : ∀ owner spender, e.approved owner spender = none →
      e.movedOut owner spender + (Mlcoin.Keeper.getAllowance owner spender s').toNat ≤
        (Mlcoin.Keeper.getAllowance owner spender s).toNat)
    (ha : ∀ owner spender amount, e.approved owner spender = some amount →
      Mlcoin.Keeper.getAllowance owner spender s' = amount) : Within s' (e :: history) := by
  intro owner spender amount hlast
  cases happroved : e.approved owner spender with
  | some amount' =>
    simp only [lastApproved, happroved, Option.some_or, Option.some.injEq] at hlast
    simp [movedSince, happroved, ha owner spender amount' happroved, hlast]
  | none =>
    simp only [lastApproved, happroved, Option.none_or] at hlast
    have hbefore := h owner spender amount hlast
    have hmoved := he owner spender happroved
    simp only [movedSince, happroved, Option.isSome_none, Bool.false_eq_true, if_false]
    omega

-- What an accepted call does to the allowances.
structure Used (m : Module) (e : Entry) (s s' : Mlcoin.State) : Prop where
  kept     : ∀ owner spender, e.approved owner spender = none →
    e.movedOut owner spender + (Mlcoin.Keeper.getAllowance owner spender s').toNat ≤
      (Mlcoin.Keeper.getAllowance owner spender s).toNat
  granted  : ∀ owner spender amount, e.approved owner spender = some amount →
    Mlcoin.Keeper.getAllowance owner spender s' = amount
  separate : ∀ owner spender,
    Mlcoin.Keeper.getAllowance owner spender s' ≠ Mlcoin.Keeper.getAllowance owner spender s →
    (∃ amount, e.call = some (.approve owner spender amount)) ∨
      ∃ recipient amount, e.call = some (.transferFrom owner spender recipient amount)

theorem used_of_kept (h : s'.allowances = s.allowances)
    (hcall : ∀ owner spender amount, e.call ≠ some (.approve owner spender amount))
    (hcall' : ∀ owner spender recipient amount,
      e.call ≠ some (.transferFrom owner spender recipient amount)) : Used m e s s' := by
  have hsame : ∀ owner spender, Mlcoin.Keeper.getAllowance owner spender s' =
      Mlcoin.Keeper.getAllowance owner spender s := fun _ _ => Mlcoin.getAllowance_congr h
  have happroved : ∀ owner spender, e.approved owner spender = none := by
    intro owner spender
    rw [Entry.approved]
    split
    case h_1 he => exact absurd he (hcall _ _ _)
    case h_2 => rfl
  have hmoved : ∀ owner spender, e.movedOut owner spender = 0 := by
    intro owner spender
    rw [Entry.movedOut]
    split
    case h_1 he => exact absurd he (hcall' _ _ _ _)
    case h_2 => rfl
  refine ⟨fun owner spender _ => ?_, fun owner spender amount he => ?_, fun owner spender hne => ?_⟩
  · rw [hmoved, hsame, Nat.zero_add]
  · rw [happroved] at he
    cases he
  · exact absurd (hsame owner spender) hne

theorem used_of_approve (hsep : m.Separated) (hcall : e.call = some (.approve owner spender amount))
    (h : m.coins.approve owner spender amount s = .ok s') : Used m e s s' := by
  obtain ⟨howner, hspender⟩ := of_approve h
  have hcalled : m.coins.call ⟨0, 0⟩ s (.approve owner spender amount) = .ok s' := h
  have hget := getAllowance_set (hsep owner howner) (hsep spender hspender)
    (Mlcoin.of_call_allowances hcalled)
  refine ⟨fun owner' spender' he => ?_, fun owner' spender' amount' he => ?_,
    fun owner' spender' hne => ?_⟩
  · rw [hget]
    simp only [Entry.approved, hcall, ite_eq_right_iff, reduceCtorEq, imp_false] at he
    simp [Entry.movedOut, hcall, he]
  · simp only [Entry.approved, hcall, Option.ite_none_right_eq_some, Option.some.injEq] at he
    rw [hget, if_pos he.1, he.2]
  · rw [hget] at hne
    split_ifs at hne with hsame
    · obtain ⟨rfl, rfl⟩ := hsame
      exact .inl ⟨amount, hcall⟩
    · exact absurd rfl hne

theorem used_of_transferFrom (hsep : m.Separated)
    (hcall : e.call = some (.transferFrom owner spender recipient amount))
    (hbefore : e.before = s) (hafter : e.after = s')
    (hroom : recipient = owner → (s.wallet owner).balance.toNat + amount.toNat < 2 ^ 64)
    (h : m.coins.transferFrom ctx owner spender recipient amount s = .ok s') : Used m e s s' := by
  obtain ⟨howner, hspender, hallow, hbal, hwallet⟩ := of_transferFrom h
  have hcalled : m.coins.call ctx s (.transferFrom owner spender recipient amount) = .ok s' := h
  have hget := getAllowance_set (hsep owner howner) (hsep spender hspender)
    (Mlcoin.of_call_allowances hcalled)
  have hmoved : (s.wallet owner).balance.toNat - (s'.wallet owner).balance.toNat ≤ amount.toNat := by
    rw [hwallet]
    split_ifs with hself
    · rw [UInt64.toNat_add, Nat.mod_eq_of_lt (hroom hself)]
      omega
    · rw [UInt64.toNat_sub_of_le _ _ (UInt64.le_iff_toNat_le.mpr hbal)]
      omega
  have hleft : (Mlcoin.Keeper.getAllowance owner spender s - amount).toNat =
      (Mlcoin.Keeper.getAllowance owner spender s).toNat - amount.toNat :=
    UInt64.toNat_sub_of_le _ _ (UInt64.le_iff_toNat_le.mpr hallow)
  refine ⟨fun owner' spender' _ => ?_, fun owner' spender' amount' he => ?_,
    fun owner' spender' hne => ?_⟩
  · rw [hget]
    simp only [Entry.movedOut, hcall, hbefore, hafter]
    split_ifs with hsame
    · obtain ⟨rfl, rfl⟩ := hsame
      omega
    · omega
  · simp [Entry.approved, hcall] at he
  · rw [hget] at hne
    split_ifs at hne with hsame
    · obtain ⟨rfl, rfl⟩ := hsame
      exact .inr ⟨recipient, amount, hcall⟩
    · exact absurd rfl hne

theorem call_of_entry {p' : Mlcoin.Chain} {c : Mlcoin.Call}
    (h : (m.entry p op p').call = some c) : op.call = some c := by
  by_cases haccepted : (m.entry p op p').accepted = true
  case pos => exact (if_pos haccepted).symm.trans h
  case neg => cases (if_neg haccepted).symm.trans h

theorem used_of_step (hsep : m.Separated) (hroom : RoomForSelf p op) :
    Used m (m.entry p op (m.next p op)) p.state (m.next p op).state := by
  cases stepped m p op with
  | other h hcall _ =>
    exact used_of_kept h (fun _ _ _ he => by rw [hcall] at he; cases he)
      fun _ _ _ _ he => by rw [hcall] at he; cases he
  | called c ctx h hcall _ =>
    have hkept : c.allowances p.state = p.state.allowances →
        (m.next p op).state.allowances = p.state.allowances :=
      fun hc => (Mlcoin.of_call_allowances h).trans hc
    cases c with
    | approve owner spender amount => exact used_of_approve hsep hcall h
    | transferFrom owner spender recipient amount =>
      refine used_of_transferFrom hsep hcall rfl rfl ?_ h
      rintro rfl
      exact hroom recipient spender amount (call_of_entry hcall)
    | _ =>
      exact used_of_kept (hkept rfl) (fun _ _ _ he => by rw [hcall] at he; cases he)
        fun _ _ _ _ he => by rw [hcall] at he; cases he

-- What is known of a history.
structure Accounted (s : Mlcoin.State) (history : List Entry) : Prop where
  within : Within s history
  safe   : AllowanceSafe history

theorem accounted_nil : Accounted s [] where
  within _ _ _ hlast := by cases hlast
  safe               := {
    bounded _ _ _ hlast := by cases hlast
    signed              := by simp
    separate            := by simp
    rejected            := by simp
  }

theorem Accounted.step (hsep : m.Separated) (h : Accounted p.state history) (hroom : RoomForSelf p op) :
    Accounted (m.next p op).state (m.entry p op (m.next p op) :: history) := by
  have hused := used_of_step hsep hroom
  have hwithin := h.within.cons hused.kept hused.granted
  refine ⟨hwithin, fun owner spender amount hlast => ?_, ?_, ?_, ?_⟩
  · exact (Nat.le_add_right ..).trans (hwithin owner spender amount hlast)
  · intro e he sender action message hop owner spender recipient amount hcall
    rcases List.mem_cons.mp he with rfl | he
    · cases stepped m p op with
      | other _ hnone _ =>
        rw [hnone] at hcall
        cases hcall
      | called c _ _ hc hsender =>
        rw [hc, Option.some.injEq] at hcall
        exact hsender sender action message hop owner spender recipient amount hcall
    · exact h.safe.signed e he sender action message hop owner spender recipient amount hcall
  · intro e he
    rcases List.mem_cons.mp he with rfl | he
    · exact hused.separate
    · exact h.safe.separate e he
  · intro e he hrejected
    rcases List.mem_cons.mp he with rfl | he
    · cases stepped m p op with
      | other _ _ hr => exact hr hrejected
      | called c _ _ hc _ =>
        rw [Entry.call, hrejected] at hc
        cases hc
    · exact h.safe.rejected e he hrejected

-- Where no owner pays itself beyond 64 bits, the spenders keep to their allowances.
theorem allowance_safe {init : Mlcoin.Chain → Prop} (hsep : m.Separated)
    (h : ((allowances m init).traced m.entry).Run (fun q op => RoomForSelf q.1 op) (p, history)) :
    AllowanceSafe history := by
  have hinv : ((allowances m init).traced m.entry).Invariant (fun q op => RoomForSelf q.1 op)
      fun q => Accounted q.1.state q.2 := by
    refine TransitionSystem.traced_invariant (fun _ => accounted_nil) fun hq hroom hs => ?_
    cases hs
    exact hq.step hsep hroom
  exact (hinv.holds h).safe

namespace Sample

def accounts : Mlcoin.Keeper where
  stringToBytes addr := if '|' ∈ addr.toList then none else some (.ofBytes (addr.toList.map Char.toNat))
  authority          := .ofBytes [1]
  authorityString    := "gov"
  moduleAddr         := .ofBytes [2]
  treasuryAddr       := .ofBytes [3]
  mintAddr           := .ofBytes [4]

def coinModule : Module where
  addressCodec := accounts.stringToBytes
  coins        := accounts

theorem coinModule_separated : coinModule.Separated := by
  intro address h hmem
  exact h (if_pos hmem)

-- An owner with a balance approves a spender for one coin, which is then spent.
def founded (balance : UInt64) : Mlcoin.Chain where
  ctx   := { blockTime := 1000, blockHeight := 1 }
  state := Mlcoin.initGenesis
    { walletBalanceMap := [{ index := "owner", address := "owner", balance := balance }] } .empty

def approval : Operation :=
  .execute "owner" "approve"
    [("owner", .string "owner"), ("spender", .string "spender"), ("amount", .number { integer := 1 })]

def spending (recipient : String) : Operation :=
  .execute "spender" "transfer_from"
    [("owner", .string "owner"), ("spender", .string "spender"), ("recipient", .string recipient),
      ("amount", .number { integer := 1 })]

def spent (balance : UInt64) (recipient : String) : Mlcoin.Chain × List Entry :=
  let p₀ := founded balance
  let p₁ := coinModule.next p₀ approval
  let p₂ := coinModule.next p₁ (spending recipient)
  (p₂, [coinModule.entry p₁ (spending recipient) p₂, coinModule.entry p₀ approval p₁])

theorem run_spent {guard : Mlcoin.Chain × List Entry → Operation → Prop} {balance : UInt64}
    {recipient : String} (h₁ : guard (founded balance, []) approval)
    (h₂ : guard (coinModule.next (founded balance) approval, [coinModule.entry (founded balance) approval
      (coinModule.next (founded balance) approval)]) (spending recipient)) :
    ((allowances coinModule Mlcoin.Chain.Founded).traced coinModule.entry).Run guard
      (spent balance recipient) := by
  have htime : -2 ^ 63 ≤ (1000 : ℤ) := by decide
  have hfounded : (founded balance).Founded := ⟨_, ⟨_, rfl⟩, htime⟩
  exact .traced_step (.traced_step (.traced_init hfounded) h₁ rfl) h₂ rfl

end Sample

-- An allowance of one coin is enough to empty a full wallet into itself.
theorem self_payment_exceeds_allowance :
    ¬ ∀ (m : Module) (p : Mlcoin.Chain) (history : List Entry), m.Separated →
      ((allowances m Mlcoin.Chain.Founded).traced m.entry).Reachable (p, history) →
      AllowanceSafe history := by
  intro h
  have hrun : ((allowances Sample.coinModule Mlcoin.Chain.Founded).traced Sample.coinModule.entry).Reachable
      (Sample.spent (2 ^ 64 - 1) "owner") := Sample.run_spent trivial trivial
  have hbound := (h _ _ _ Sample.coinModule_separated hrun).bounded "owner" "spender" 1
    (by decide +kernel)
  revert hbound
  decide +kernel

theorem sample_allowance_safe : AllowanceSafe (Sample.spent 100 "friend").2 := by
  have hrun : ((allowances Sample.coinModule Mlcoin.Chain.Founded).traced Sample.coinModule.entry).Run
      (fun q op => RoomForSelf q.1 op) (Sample.spent 100 "friend") := by
    refine Sample.run_spent ?approval ?spending
    case approval =>
      rintro owner spender amount hcall
      have happrove : Sample.approval.call = some (.approve "owner" "spender" 1) := by decide +kernel
      cases happrove.symm.trans hcall
    case spending =>
      rintro owner spender amount hcall
      have hspend : (Sample.spending "friend").call =
          some (.transferFrom "owner" "spender" "friend" 1) := by decide +kernel
      have hargs := Option.some.inj (hspend.symm.trans hcall)
      rw [Mlcoin.Call.transferFrom.injEq] at hargs
      obtain ⟨rfl, _, hself, _⟩ := hargs
      exact absurd hself (by decide)
  exact allowance_safe Sample.coinModule_separated hrun

end Wasmbridge
