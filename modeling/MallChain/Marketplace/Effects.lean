import MallChain.Lib.Decimal
import MallChain.Lib.Transition
import MallChain.Marketplace.Keeper

namespace Marketplace

open Sdk

-- What can happen between two states: a message of the module, or something that the rest of the
-- chain does with its coins.
inductive Action
  | createEscrow (ctx : Context) (msg : MsgCreateEscrow)
  | releaseFunds (ctx : Context) (msg : MsgReleaseFunds)
  | refundBuyer (msg : MsgRefundBuyer)
  | openDispute (ctx : Context) (msg : MsgOpenDispute)
  | rest (bank : Bank)

namespace Keeper

-- A handler whose payment fails keeps what it has written. The message is reverted then, but a
-- caller in another module might go on.
def act (k : Keeper) (s : State) : Action → Result State
  | .createEscrow ctx msg => return (← MsgServer.createEscrow k ctx msg s).1
  | .releaseFunds ctx msg => return (← MsgServer.releaseFunds k ctx msg s).1
  | .refundBuyer msg => return (← MsgServer.refundBuyer k msg s).1
  | .openDispute ctx msg => MsgServer.openDispute k ctx msg s
  | .rest bank => return { s with bank }

-- The state after an action. What fails is reverted.
def next (k : Keeper) (s : State) (a : Action) : State :=
  (k.act s a).toOption.getD s

theorem act_next {k : Keeper} {s : State} {a : Action} (h : (k.act s a).isOk = true) :
    k.act s a = .ok (k.next s a) := by
  rw [next]
  cases hs : k.act s a <;> simp_all [Except.isOk, Except.toBool, Except.toOption]

-- Nobody signs for the module account, which has no key, and nobody else pays from it.
def Allowed (k : Keeper) (s : State) : Action → Prop
  | .createEscrow _ msg => k.accAddressFromBech32 msg.buyer ≠ some k.moduleAddr
  | .rest bank => ∀ d, s.bank.balances k.moduleAddr d ≤ bank.balances k.moduleAddr d
  | _ => True

end Keeper

-- The module before its first escrow.
structure State.Empty (k : Keeper) (s : State) : Prop where
  escrows : s.escrows = .empty
  balance : ∀ d, 0 ≤ s.bank.balances k.moduleAddr d

-- A failure is no step.
def system (k : Keeper) : TransitionSystem State Action where
  init s      := s.Empty k
  step s a s' := k.Allowed s a ∧ k.act s a = .ok s'

-- The funds of a message or of an escrow: an amount of one denomination.
def Keeper.funds (k : Keeper) (amount denom : String) : Coins :=
  [⟨denom, (k.newIntFromString amount).getD 0⟩]

-- What an escrow needs for its payout.
structure Keeper.Payable (k : Keeper) (e : Escrow) : Prop where
  buyer  : ∃ addr, k.accAddressFromBech32 e.buyer = some addr
  seller : ∃ addr, k.accAddressFromBech32 e.seller = some addr
  amount : ∃ n, k.newIntFromString e.amount = some n ∧ 0 < n

-- The escrow is the one that the message opened.
structure Escrow.Of (msg : MsgCreateEscrow) (e : Escrow) : Prop where
  buyer  : e.buyer = msg.buyer
  seller : e.seller = msg.seller
  amount : e.amount = msg.amount
  denom  : e.denom = msg.denom

-- The effects of the handlers.

structure Created (k : Keeper) (ctx : Context) (msg : MsgCreateEscrow) (escrow : Escrow)
    (payer : AccAddress) (s s' : State) : Prop where
  live    : escrow.live = true
  terms   : escrow.Of msg
  payable : k.Payable escrow
  buyer   : k.accAddressFromBech32 msg.buyer = some payer
  escrows : s'.escrows = s.escrows.set (escrowID ctx msg.buyer s.escrowSeq) escrow
  seq     : s'.escrowSeq = s.escrowSeq + 1
  bank    : Bank.Changed s.bank s'.bank
    (Bank.held k.moduleAddr (k.funds msg.amount msg.denom) -
      Bank.held payer (k.funds msg.amount msg.denom)) 0

structure Paid (k : Keeper) (id : String) (escrow : Escrow) (status : Status)
    (recipient : AccAddress) (s s' : State) : Prop where
  get     : s.escrows.get id = some escrow
  live    : escrow.live = true
  escrows : s'.escrows = s.escrows.set id { escrow with status }
  seq     : s'.escrowSeq = s.escrowSeq
  bank    : Bank.Changed s.bank s'.bank
    (Bank.held recipient (k.funds escrow.amount escrow.denom) -
      Bank.held k.moduleAddr (k.funds escrow.amount escrow.denom)) 0

-- A dispute or a failed payment: the escrow stays live.
structure Stayed (id : String) (escrow escrow' : Escrow) (s s' : State) : Prop where
  get    : s.escrows.get id = some escrow
  live   : escrow.live = true ∧ escrow'.live = true
  change : escrow' = { escrow with
    status      := escrow'.status
    releaseTime := escrow'.releaseTime
  }
  state  : s' = { s with escrows := s.escrows.set id escrow' }

variable {k : Keeper} {ctx : Context} {s s' : State} {id : String} {escrow escrow' : Escrow}

theorem funds_eq {amount denom : String} {n : ℤ} (h : k.newIntFromString amount = some n) :
    k.funds amount denom = [⟨denom, n⟩] := by
  rw [Keeper.funds, h, Option.getD_some]

-- A coin of a positive amount is a valid list of coins by itself.
theorem coins_eq {denom : String} {n : ℤ} {c : Coin} {cs : Coins} (hn : 0 < n)
    (hc : Coin.new denom n = .ok c) (hcs : Coins.new [c] = .ok cs) : cs = [⟨denom, n⟩] := by
  obtain ⟨rfl, _⟩ := Coin.of_new hc
  simp only [Coins.new, Result.bind_eq_ok, failIf_eq_ok, Result.pure_eq_ok] at hcs
  obtain ⟨_, _, rfl⟩ := hcs
  simp [hn.ne']

theorem of_createEscrow {msg : MsgCreateEscrow}
    (h : MsgServer.createEscrow k ctx msg s = .ok (s', id)) :
    id = escrowID ctx msg.buyer s.escrowSeq ∧
      ∃ escrow payer, Created k ctx msg escrow payer s s' := by
  simp only [MsgServer.createEscrow, Keeper.createEscrow, Result.bind_eq_ok, failIf_eq_ok,
    orFail_eq_ok, Error.wrapErr_eq_ok, Result.pure_eq_ok, Prod.mk.injEq] at h
  obtain ⟨_, _, n, hn, _, hpos, payer, hp, seller, hs, _, _, c, hc, cs, hcs, bank, hb, rfl, rfl⟩ := h
  have hpos : 0 < n := by omega
  refine ⟨rfl, _, payer, {
    live    := ?_
    terms   := ⟨rfl, rfl, rfl, rfl⟩
    payable := ⟨⟨payer, hp⟩, ⟨seller, hs⟩, ⟨n, hn, hpos⟩⟩
    buyer   := hp
    escrows := rfl
    seq     := rfl
    bank    := by
      rw [funds_eq hn, ← coins_eq hpos hc hcs]
      exact Bank.of_sendCoins hb
  }⟩
  rfl

theorem of_payOut {status : Status} {recipient : String} {failure : Option Failure}
    (h : k.payOut id escrow status recipient s = .ok (s', failure))
    (hg : s.escrows.get id = some escrow) (hl : escrow.live = true) (hp : k.Payable escrow)
    (hr : ∃ addr, k.accAddressFromBech32 recipient = some addr) :
    (∃ addr, k.accAddressFromBech32 recipient = some addr ∧ Paid k id escrow status addr s s') ∨
      ∃ escrow', Stayed id escrow escrow' s s' := by
  obtain ⟨addr, ha⟩ := hr
  obtain ⟨n, hn, hpos⟩ := hp.amount
  simp only [Keeper.payOut, Result.bind_eq_ok, orFail_eq_ok, hn, Option.some.injEq, ha] at h
  obtain ⟨_, rfl, c, hc, cs, hcs, h⟩ := h
  split at h
  case h_1 bank hb =>
    cases h
    refine .inl ⟨addr, ha, ?_⟩
    exact {
      get     := hg
      live    := hl
      escrows := rfl
      seq     := rfl
      bank    := by
        rw [funds_eq hn, ← coins_eq hpos hc hcs]
        exact Bank.of_sendCoinsFromModuleToAccount hb
    }
  case h_2 =>
    cases h
    refine .inr ⟨{ escrow with status := .held }, hg, ⟨hl, rfl⟩, rfl, ?_⟩
    rw [KVStore.set_set]
  case h_3 => cases h

theorem live_of_unresolved (h : ¬(escrow.status = .released ∨ escrow.status = .refunded)) :
    escrow.live = true := by
  simpa [Escrow.live, not_or] using h

-- Every escrow in the store has what it needs for its payout.
def State.Payable (k : Keeper) (s : State) : Prop :=
  ∀ id escrow, s.escrows.get id = some escrow → k.Payable escrow

theorem of_releaseFunds {msg : MsgReleaseFunds} {failure : Option Failure} (hp : s.Payable k)
    (h : MsgServer.releaseFunds k ctx msg s = .ok (s', failure)) :
    (∃ escrow addr, msg.releaseBy = escrow.buyer ∧
      k.accAddressFromBech32 escrow.seller = some addr ∧
      Paid k msg.escrowId escrow .released addr s s') ∨
    ∃ escrow escrow', Stayed msg.escrowId escrow escrow' s s' := by
  simp only [MsgServer.releaseFunds, Keeper.releaseFunds, Result.bind_eq_ok, failIf_eq_ok,
    orFail_eq_ok, not_not] at h
  obtain ⟨_, _, escrow, hg, _, hb, _, _, _, hs, _, _, h⟩ := h
  have hpe := hp _ _ hg
  rcases of_payOut h hg (live_of_unresolved hs) hpe hpe.seller with ⟨addr, ha, h⟩ | ⟨escrow', h⟩
  · exact .inl ⟨escrow, addr, hb, ha, h⟩
  · exact .inr ⟨escrow, escrow', h⟩

theorem of_refundBuyer {msg : MsgRefundBuyer} {failure : Option Failure} (hp : s.Payable k)
    (h : MsgServer.refundBuyer k msg s = .ok (s', failure)) :
    (∃ escrow addr, msg.requestedBy = escrow.seller ∧
      k.accAddressFromBech32 escrow.buyer = some addr ∧
      Paid k msg.escrowId escrow .refunded addr s s') ∨
    ∃ escrow escrow', Stayed msg.escrowId escrow escrow' s s' := by
  simp only [MsgServer.refundBuyer, Keeper.refundBuyer, Result.bind_eq_ok, failIf_eq_ok,
    orFail_eq_ok, not_not] at h
  obtain ⟨_, _, escrow, hg, _, hb, _, hs, h⟩ := h
  have hpe := hp _ _ hg
  rcases of_payOut h hg (live_of_unresolved hs) hpe hpe.buyer with ⟨addr, ha, h⟩ | ⟨escrow', h⟩
  · exact .inl ⟨escrow, addr, hb, ha, h⟩
  · exact .inr ⟨escrow, escrow', h⟩

theorem of_openDispute {msg : MsgOpenDispute}
    (h : MsgServer.openDispute k ctx msg s = .ok s') :
    ∃ escrow escrow', Stayed msg.escrowId escrow escrow' s s' := by
  simp only [MsgServer.openDispute, Keeper.openDispute, Result.bind_eq_ok, failIf_eq_ok,
    orFail_eq_ok, Result.pure_eq_ok, not_not] at h
  obtain ⟨_, _, escrow, hg, _, _, _, hs, rfl⟩ := h
  exact ⟨escrow, _, hg, ⟨by simp [Escrow.live, hs], rfl⟩, rfl, rfl⟩

-- The effects of an action that succeeds.
inductive Effect (k : Keeper) (s s' : State) : Action → Prop
  | created {ctx : Context} {msg : MsgCreateEscrow} {escrow : Escrow} {payer : AccAddress}
    (h : Created k ctx msg escrow payer s s') : Effect k s s' (.createEscrow ctx msg)
  | released {ctx : Context} {msg : MsgReleaseFunds} {escrow : Escrow} {addr : AccAddress}
    (buyer : msg.releaseBy = escrow.buyer) (seller : k.accAddressFromBech32 escrow.seller = some addr)
    (h : Paid k msg.escrowId escrow .released addr s s') : Effect k s s' (.releaseFunds ctx msg)
  | refunded {msg : MsgRefundBuyer} {escrow : Escrow} {addr : AccAddress}
    (seller : msg.requestedBy = escrow.seller) (buyer : k.accAddressFromBech32 escrow.buyer = some addr)
    (h : Paid k msg.escrowId escrow .refunded addr s s') : Effect k s s' (.refundBuyer msg)
  | stayed {a : Action} {id : String} {escrow escrow' : Escrow}
    (old : ∀ ctx msg, a ≠ .createEscrow ctx msg) (h : Stayed id escrow escrow' s s') :
    Effect k s s' a
  | rest {bank : Bank} (h : s' = { s with bank }) : Effect k s s' (.rest bank)

theorem of_act {a : Action} (hp : s.Payable k) (h : k.act s a = .ok s') : Effect k s s' a := by
  cases a with
  | createEscrow ctx msg =>
    simp only [Keeper.act, Result.bind_eq_ok, Result.pure_eq_ok, Prod.exists] at h
    obtain ⟨_, id, h, rfl⟩ := h
    obtain ⟨_, escrow, payer, h⟩ := of_createEscrow h
    exact .created h
  | releaseFunds ctx msg =>
    simp only [Keeper.act, Result.bind_eq_ok, Result.pure_eq_ok, Prod.exists] at h
    obtain ⟨_, failure, h, rfl⟩ := h
    rcases of_releaseFunds hp h with ⟨escrow, addr, hb, hs, h⟩ | ⟨escrow, escrow', h⟩
    · exact .released hb hs h
    · exact .stayed (by simp) h
  | refundBuyer msg =>
    simp only [Keeper.act, Result.bind_eq_ok, Result.pure_eq_ok, Prod.exists] at h
    obtain ⟨_, failure, h, rfl⟩ := h
    rcases of_refundBuyer hp h with ⟨escrow, addr, hs, hb, h⟩ | ⟨escrow, escrow', h⟩
    · exact .refunded hs hb h
    · exact .stayed (by simp) h
  | openDispute ctx msg =>
    obtain ⟨escrow, escrow', h⟩ := of_openDispute h
    exact .stayed (by simp) h
  | rest bank =>
    cases h
    exact .rest rfl

-- A chain on which one account buys from another one.
namespace Sample

def alice : AccAddress := .ofBytes [1]
def bob : AccAddress := .ofBytes [2]

def keeper : Keeper where
  moduleAddr       := .ofBytes [100]
  accAddressFromBech32
    | "alice" => some alice
    | "bob" => some bob
    | _ => none
  newIntFromString
    | "100" => some 100
    | _ => none

def genesis : State where
  bank      := {
    balances     := fun a d => if a = alice ∧ d = "uatom" then 500 else 0
    supply       := fun d => if d = "uatom" then 500 else 0
    blockedAddrs := fun _ => false
  }
  escrows   := .empty
  escrowSeq := 0

-- One second for each block.
def block (height : Int64) : Context where
  blockHeight := height
  blockTime   := height.toInt * 1000000000

def buy : Action :=
  .createEscrow (block 1) ⟨"alice", "bob", "100", "uatom", "a book", 60⟩

def dispute : Action :=
  .openDispute (block 2) ⟨"alice-1-1000000000-0", "alice"⟩

def release : Action :=
  .releaseFunds (block 62) ⟨"alice-1-1000000000-0", "alice"⟩

theorem genesis_empty : genesis.Empty keeper where
  escrows   := rfl
  balance d := by
    simp only [genesis]
    split_ifs <;> decide

theorem step {s : State} {a : Action} (hl : keeper.Allowed s a)
    (h : (keeper.act s a).isOk = true) : (system keeper).step s a (keeper.next s a) :=
  ⟨hl, Keeper.act_next h⟩

end Sample

end Marketplace
