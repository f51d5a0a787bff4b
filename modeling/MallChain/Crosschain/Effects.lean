import MallChain.Crosschain.World

namespace Crosschain

open Sdk

namespace BridgeTransfer

def worth (t : BridgeTransfer) (d : String) : ℤ :=
  t.amount.elim 0 fun amount => Coins.amountOf [amount] d

end BridgeTransfer

namespace State

def pendingTransfers (s : State) : List BridgeTransfer :=
  (s.bridgeState.getD {}).pendingTransfers

def completedTransfers (s : State) : List BridgeTransfer :=
  (s.bridgeState.getD {}).completedTransfers

def chainBalances (s : State) : KVStore String UInt64 :=
  (s.bridgeState.getD {}).chainBalances

end State

-- The module account can pay a transfer back to its sender.
def Keeper.Refundable (k : Keeper) (s : State) (t : BridgeTransfer) : Prop :=
  ∃ senderAddr amount coins bank, k.accAddressFromBech32 t.sender = some senderAddr ∧
    t.amount = some amount ∧ Coins.new [amount] = .ok coins ∧
    s.bank.sendCoinsFromModuleToAccount k.moduleAddr senderAddr coins = .ok bank

-- A pending transfer got its final status, and the module account paid at most `cost` for it. Only its
-- own entries of the lists change.
structure Settled (k : Keeper) (id : UInt64) (t : BridgeTransfer) (status : Status)
    (cost : String → ℤ) (s s' : State) : Prop where
  get       : s.bridgeTransfers.get id = some t
  pending   : t.status = .pending
  transfers : s'.bridgeTransfers = s.bridgeTransfers.set id { t with status }
  records   : ∀ id' m, s'.transferMeta.get id' = some m → s.transferMeta.get id' = some m
  ibc       : s'.ibc = s.ibc
  waiting   : ∀ id', id' ≠ id →
    s'.pendingTransfers.filter (·.id = id') = s.pendingTransfers.filter (·.id = id')
  finished  : s'.completedTransfers = s.completedTransfers ∨
    s'.completedTransfers = s.completedTransfers ++ [{ t with status }]
  balance   : ∀ d, s.bank.balances k.moduleAddr d - cost d ≤ s'.bank.balances k.moduleAddr d

-- A packet is no longer in flight, and its sender has the coins back.
structure Landed (f : Flight) (coins : Coins) (s s' : State) : Prop where
  transfers : s'.bridgeTransfers = s.bridgeTransfers
  flights   : s.ibc.flights.Perm (f :: s'.ibc.flights)
  bank      : Bank.Changed s.bank s'.bank (Bank.held f.sender coins) 0

-- A new transfer, whose coins are in the module account or went out with a packet.
structure Opened (k : Keeper) (id : UInt64) (t : BridgeTransfer) (s s' : State) : Prop where
  pending   : t.status = .pending
  nonneg    : ∀ d, 0 ≤ t.worth d
  transfers : s'.bridgeTransfers = s.bridgeTransfers.set id t
  funds     : (k.own s' = k.own s ∧
      ∀ d, s.bank.balances k.moduleAddr d + t.worth d ≤ s'.bank.balances k.moduleAddr d) ∨
    ∃ f, k.own s' = f ::ₘ k.own s ∧ f.packet.transferID = some id ∧ f.received = none ∧
      (∀ d, Coins.amountOf [f.coin] d = t.worth d) ∧
      ∀ d, s.bank.balances k.moduleAddr d ≤ s'.bank.balances k.moduleAddr d

-- Nothing that belongs to the bridge changes.
structure Framed (k : Keeper) (s s' : State) : Prop where
  transfers : s'.bridgeTransfers = s.bridgeTransfers
  own       : k.own s' = k.own s
  balance   : ∀ d, s.bank.balances k.moduleAddr d ≤ s'.bank.balances k.moduleAddr d

-- The other chain answered a packet.
structure Answered (f : Flight) (acknowledgement : Acknowledgement) (s s' : State) : Prop where
  fresh     : f.received = none
  transfers : s'.bridgeTransfers = s.bridgeTransfers
  bank      : s'.bank = s.bank
  flights   : ∃ rest, s.ibc.flights.Perm (f :: rest) ∧
    s'.ibc.flights = { f with received := some acknowledgement } :: rest

-- Refunds of transfers from a given set, one after another.
inductive Expiries (k : Keeper) (expired : UInt64 → Prop) : State → State → Prop
  | refl {s : State} : Expiries k expired s s
  | step {s s' s'' : State} {id : UInt64} {t : BridgeTransfer} :
    Settled k id t .timedOut t.worth s s' → expired id → Expiries k expired s' s'' →
    Expiries k expired s s''

-- After the hook for a packet that the other chain accepted, the transfer it names is settled.
inductive Acknowledged (k : Keeper) (p : Packet) (s : State) : State → Prop
  | inert (h : ∀ id t, p.transferID = some id → s.bridgeTransfers.get id = some t →
      t.status ≠ .pending) : Acknowledged k p s s
  | settled {s' : State} {id : UInt64} {t : BridgeTransfer} (hid : p.transferID = some id)
    (h : Settled k id t .completed 0 s s') : Acknowledged k p s s'

-- The hook for a packet that timed out refunds the transfer it names, or does nothing.
inductive TimedOut (k : Keeper) (p : Packet) (s : State) : State → Prop
  | inert (h : ∀ id t, p.transferID = some id → s.bridgeTransfers.get id = some t →
      t.status = .pending → ¬k.Refundable s t) : TimedOut k p s s
  | settled {s' : State} {id : UInt64} {t : BridgeTransfer} (hid : p.transferID = some id)
    (hr : k.Refundable s t) (h : Settled k id t .timedOut t.worth s s') : TimedOut k p s s'

-- The effects of the actions that succeed.
inductive Effect (k : Keeper) (s s' : State) : Action → Prop
  | framed {a : Action} (ha : ∀ f acknowledgement, a ≠ .receive f acknowledgement)
    (h : Framed k s s') : Effect k s s' a
  | opened {ctx : Context} {msg : MsgInitiateBridgeTransfer} {t : BridgeTransfer}
    (h : Opened k (s.bridgeState.getD {}).nextTransferId t s s') : Effect k s s' (.initiate ctx msg)
  | completed {ctx : Context} {msg : MsgCompleteBridgeTransfer} {t : BridgeTransfer}
    (h : Settled k msg.transferId t .completed t.worth s s') : Effect k s s' (.complete ctx msg)
  | ended {ctx : Context} {m : State}
    (h : Expiries k (fun id => ∃ t, s.bridgeTransfers.get id = some t ∧ t.status = .pending ∧
      Expired ctx s id) s m) (prune : Framed k m s') : Effect k s s' (.endBlock ctx)
  | received {f : Flight} {acknowledgement : Acknowledgement} (h : Answered f acknowledgement s s') :
    Effect k s s' (.receive f acknowledgement)
  | accepted {f : Flight} {m : State} (answer : f.received = some .result)
    (hook : Acknowledged k f.packet s m) (h : Landed f [] m s') : Effect k s s' (.acknowledge f)
  | rejected {f : Flight} (answer : f.received = some .error) (h : Landed f [f.coin] s s') :
    Effect k s s' (.acknowledge f)
  | timedOut {f : Flight} {m : State} (answer : f.received = none)
    (hook : TimedOut k f.packet s m) (h : Landed f [f.coin] m s') : Effect k s s' (.timeout f)

variable {k : Keeper} {ctx : Context} {s s' : State} {id : UInt64} {t : BridgeTransfer} {f : Flight}
variable {p : Packet} {e : Option Failure}

theorem of_moveTransferToCompleted (h : moveTransferToCompleted s id t = .ok s') :
    ∃ b b', s.bridgeState = some b ∧ s' = { s with bridgeState := some b' } ∧
      b'.pendingTransfers = b.pendingTransfers.filter (·.id ≠ id) ∧
      b'.completedTransfers = b.completedTransfers ++ [t] := by
  simp only [moveTransferToCompleted, Result.bind_eq_ok, orFail_eq_ok, Result.pure_eq_ok] at h
  obtain ⟨b, hb, _, _, h⟩ := h
  exact ⟨b, _, hb, h.symm, rfl, rfl⟩

-- What the module account pays when it sends the coins of a transfer.
theorem of_payout {b : Bank} {amount : Coin} {addr : AccAddress} {coins : Coins}
    (hc : Coins.new [amount] = .ok coins) (ha : t.amount = some amount)
    (hb : s.bank.sendCoinsFromModuleToAccount k.moduleAddr addr coins = .ok b) (d : String) :
    s.bank.balances k.moduleAddr d - t.worth d ≤ b.balances k.moduleAddr d := by
  obtain ⟨hs, hp, hn⟩ := Coins.of_new hc
  have hn : 0 ≤ Coins.amountOf [amount] d := Coins.amountOf_nonneg hn
  rw [(Bank.of_sendCoinsFromModuleToAccount hb).balances]
  simp only [BridgeTransfer.worth, ha, Option.elim, Pi.sub_apply, Bank.held, hs, if_true]
  split_ifs <;> omega

namespace Settled

variable {status : Status} {cost : String → ℤ} {b : Bank} {m : State}

-- The status is written and then the transfer is moved between the lists, if that is possible.
theorem of_write (hg : s.bridgeTransfers.get id = some t) (hp : t.status = .pending)
    (hb : ∀ d, s.bank.balances k.moduleAddr d - cost d ≤ b.balances k.moduleAddr d) :
    Settled k id t status cost s
      { s with bank := b, bridgeTransfers := s.bridgeTransfers.set id { t with status } } where
  get            := hg
  pending        := hp
  transfers      := rfl
  records _ _ hm := hm
  ibc            := rfl
  waiting _ _    := rfl
  finished       := .inl rfl
  balance        := hb

theorem of_move (hg : s.bridgeTransfers.get id = some t) (hp : t.status = .pending)
    (hb : ∀ d, s.bank.balances k.moduleAddr d - cost d ≤ b.balances k.moduleAddr d)
    (hm : moveTransferToCompleted { s with
      bank := b, bridgeTransfers := s.bridgeTransfers.set id { t with status } } id
      { t with status } = .ok m) : Settled k id t status cost s m := by
  obtain ⟨bs, bs', hbs, rfl, hpend, hcomp⟩ := of_moveTransferToCompleted hm
  have hbs : s.bridgeState = some bs := hbs
  refine { get := hg, pending := hp, transfers := rfl, records := fun _ _ hm => hm, ibc := rfl,
           waiting := fun id' hne => ?_, finished := .inr ?_, balance := hb }
  · simp only [State.pendingTransfers, Option.getD_some, hbs, hpend, List.filter_filter]
    refine List.filter_congr fun x _ => ?_
    by_cases hx : x.id = id' <;> simp_all
  · simp only [State.completedTransfers, Option.getD_some, hbs, hcomp]

theorem remove (h : Settled k id t status cost s m) :
    Settled k id t status cost s { m with transferMeta := m.transferMeta.remove id } where
  get       := h.get
  pending   := h.pending
  transfers := h.transfers
  records id' r hr := by
    simp only [KVStore.get_remove] at hr
    split_ifs at hr
    exact h.records id' r hr
  ibc       := h.ibc
  waiting   := h.waiting
  finished  := h.finished
  balance   := h.balance

end Settled

theorem refundTimedOutTransfer_ne_error {e : Failure} (hg : s.bridgeTransfers.get id = some t)
    (hr : k.Refundable s t) : k.refundTimedOutTransfer s id ≠ .error e := by
  obtain ⟨addr, amount, coins, bank, haddr, ha, hc, hb⟩ := hr
  intro h
  simp only [Keeper.refundTimedOutTransfer, hg, orFail, Option.elim, Result.ok_bind, haddr, ha, hc,
    hb] at h
  split at h <;> cases h

theorem of_refundTimedOutTransfer (h : logged s (k.refundTimedOutTransfer s id) = .ok s') :
    (s' = s ∧ ∀ t, s.bridgeTransfers.get id = some t → t.status = .pending → ¬k.Refundable s t) ∨
      ∃ t, k.Refundable s t ∧ Settled k id t .timedOut t.worth s s' := by
  rcases of_logged h with ⟨rfl, e, he⟩ | ⟨e, h⟩
  · exact .inl ⟨rfl, fun t hg _ hr => refundTimedOutTransfer_ne_error hg hr he⟩
  simp only [Keeper.refundTimedOutTransfer, Result.bind_eq_ok, orFail_eq_ok] at h
  obtain ⟨t, hg, h⟩ := h
  by_cases hp : t.status = .pending
  case neg =>
    simp only [hp, ne_eq, not_false_eq_true, if_true, Result.pure_eq_ok, Prod.mk.injEq] at h
    refine .inl ⟨h.1.symm, fun t' hg' hp' => ?_⟩
    cases hg.symm.trans hg'
    exact absurd hp' hp
  case pos =>
    simp only [hp, ne_eq, not_true, if_false, Result.bind_eq_ok, orFail_eq_ok,
      Result.pure_eq_ok] at h
    obtain ⟨addr, haddr, amount, ha, coins, hc, bank, hb, h⟩ := h
    refine .inr ⟨t, ⟨addr, amount, coins, bank, haddr, ha, hc, hb⟩, ?_⟩
    rcases orKeep_eq h with rfl | h
    · exact .of_write hg hp (of_payout hc ha hb)
    · simp only [Result.bind_eq_ok, Result.pure_eq_ok] at h
      obtain ⟨_, hm, rfl⟩ := h
      exact (Settled.of_move hg hp (of_payout hc ha hb) hm).remove

theorem of_completeBridgeTransfer {msg : MsgCompleteBridgeTransfer}
    (h : k.completeBridgeTransfer ctx s msg = .ok s') :
    ∃ t, Settled k msg.transferId t .completed t.worth s s' := by
  simp only [Keeper.completeBridgeTransfer, Result.bind_eq_ok, orFail_eq_ok, failIf_eq_ok,
    Result.pure_eq_ok, not_not] at h
  obtain ⟨t, hg, _, hp, _, _, _, _, _, _, _, _, _, _, amount, ha, coins, hc, bank, hb, _, hm, rfl⟩ := h
  exact ⟨t, (Settled.of_move hg hp (of_payout hc ha hb) hm).remove⟩

-- The hooks only act on the transfer that the packet names.

theorem logged_handleOutboundIBCAck {a : Option Acknowledgement} :
    logged s (Keeper.handleOutboundIBCAck s p a) = if a = some .result then
      p.transferID.elim (.ok s) fun id => logged s (Keeper.completeAcknowledgedTransfer s id)
    else .ok s := by
  rcases a with _ | _ | _
  case none => rfl
  case some.result =>
    simp only [Keeper.handleOutboundIBCAck, Packet.transferID, if_true]
    cases p.data with
    | none => rfl
    | some data =>
      simp only [orFail, Option.elim, Result.ok_bind, Option.bind_some]
      cases parseBridgeMemo data.memo <;> rfl
  case some.error => rfl

theorem logged_handleOutboundIBCTimeout :
    logged s (k.handleOutboundIBCTimeout s p) =
      p.transferID.elim (.ok s) fun id => logged s (k.refundTimedOutTransfer s id) := by
  simp only [Keeper.handleOutboundIBCTimeout, Packet.transferID]
  cases p.data with
  | none => rfl
  | some data =>
    simp only [orFail, Option.elim, Result.ok_bind, Option.bind_some]
    cases parseBridgeMemo data.memo <;> rfl

theorem of_completeAcknowledgedTransfer
    (h : Keeper.completeAcknowledgedTransfer s id = .ok (s', e)) :
    (s' = s ∧ ∀ t, s.bridgeTransfers.get id = some t → t.status ≠ .pending) ∨
      ∃ t, Settled k id t .completed 0 s s' := by
  simp only [Keeper.completeAcknowledgedTransfer, Result.bind_eq_ok, orFail_eq_ok] at h
  obtain ⟨t, hg, h⟩ := h
  by_cases hp : t.status = .pending
  case neg =>
    simp only [hp, ne_eq, not_false_eq_true, if_true, Result.pure_eq_ok, Prod.mk.injEq] at h
    refine .inl ⟨h.1.symm, fun t' ht => ?_⟩
    cases hg.symm.trans ht
    exact hp
  case pos =>
    simp only [hp, ne_eq, not_true, if_false, Result.pure_eq_ok] at h
    refine .inr ⟨t, ?_⟩
    rcases orKeep_eq h with rfl | hm
    · exact .of_write hg hp (by simp)
    · exact .of_move hg hp (by simp) hm

theorem get_of_completeAcknowledgedTransfer {e : Failure}
    (h : Keeper.completeAcknowledgedTransfer s id = .error e) : s.bridgeTransfers.get id = none := by
  cases hg : s.bridgeTransfers.get id with
  | none => rfl
  | some t =>
    simp only [Keeper.completeAcknowledgedTransfer, hg, orFail, Option.elim, Result.ok_bind] at h
    split at h <;> cases h

theorem of_acknowledged
    (h : logged s (Keeper.handleOutboundIBCAck s p (some .result)) = .ok s') :
    Acknowledged k p s s' := by
  rw [logged_handleOutboundIBCAck, if_pos rfl] at h
  cases hid : p.transferID with
  | none =>
    cases hid ▸ h
    exact .inert fun _ _ h => by simp [hid] at h
  | some id =>
    simp only [hid, Option.elim] at h
    rcases of_logged h with ⟨rfl, _, he⟩ | ⟨_, he⟩
    · refine .inert fun id' t h ht => ?_
      cases hid.symm.trans h
      simp [get_of_completeAcknowledgedTransfer he] at ht
    · rcases of_completeAcknowledgedTransfer he with ⟨rfl, hn⟩ | ⟨t, hs⟩
      · refine .inert fun id' t h ht => hn t ?_
        cases hid.symm.trans h
        exact ht
      · exact .settled hid hs

theorem of_timedOut (h : logged s (k.handleOutboundIBCTimeout s p) = .ok s') :
    TimedOut k p s s' := by
  rw [logged_handleOutboundIBCTimeout] at h
  cases hid : p.transferID with
  | none =>
    cases hid ▸ h
    exact .inert fun _ _ h => by simp [hid] at h
  | some id =>
    simp only [hid, Option.elim] at h
    rcases of_refundTimedOutTransfer h with ⟨rfl, hn⟩ | ⟨t, hr, hs⟩
    · refine .inert fun id' t h ht => hn t ?_
      cases hid.symm.trans h
      exact ht
    · exact .settled hid hr hs

-- Packets

theorem of_refund (hf : f ∈ s.ibc.flights) (h : Ibc.refund s f = .ok s') :
    Landed f [f.coin] s s' := by
  simp only [Ibc.refund, Result.bind_eq_ok, Result.pure_eq_ok] at h
  obtain ⟨_, hb, rfl⟩ := h
  exact { transfers := rfl, flights := List.perm_cons_erase hf, bank := Bank.of_addCoins hb }

theorem of_onAcknowledgementPacket (hf : f ∈ s.ibc.flights)
    (h : Ibc.onAcknowledgementPacket f .result s = .ok s') : Landed f [] s s' := by
  cases h
  refine { transfers := rfl, flights := List.perm_cons_erase hf,
           bank := (Bank.Changed.refl _).congr (by simp [Bank.held]) (by simp) }

theorem of_receive {a : Acknowledgement} (h : Keeper.receive s f a = .ok s') :
    Answered f a s s' := by
  simp only [Keeper.receive, Result.bind_eq_ok, failIf_eq_ok, not_or, not_not,
    Result.pure_eq_ok] at h
  obtain ⟨_, ⟨hf, hr⟩, rfl⟩ := h
  exact { fresh := hr, transfers := rfl, bank := rfl,
          flights := ⟨_, List.perm_cons_erase hf, rfl⟩ }

theorem Settled.flights {status : Status} {cost : String → ℤ} (h : Settled k id t status cost s s') :
    s'.ibc.flights = s.ibc.flights := by
  rw [h.ibc]

theorem Acknowledged.flights (h : Acknowledged k p s s') : s'.ibc.flights = s.ibc.flights := by
  cases h with
  | inert _ => rfl
  | settled _ h => exact h.flights

theorem TimedOut.flights (h : TimedOut k p s s') : s'.ibc.flights = s.ibc.flights := by
  cases h with
  | inert _ => rfl
  | settled _ _ h => exact h.flights

theorem of_acknowledge (h : Keeper.acknowledge s f = .ok s') :
    Effect k s s' (.acknowledge f) := by
  simp only [Keeper.acknowledge, IBCModule.onAcknowledgementPacket, Result.bind_eq_ok, failIf_eq_ok,
    orFail_eq_ok, not_not] at h
  obtain ⟨_, hf, a, hr, m, hm, h⟩ := h
  cases a with
  | result =>
    have hm : Acknowledged k f.packet s m := of_acknowledged hm
    exact .accepted hr hm (of_onAcknowledgementPacket (hm.flights ▸ hf) h)
  | error =>
    simp only [logged_handleOutboundIBCAck, Option.some.injEq, reduceCtorEq, if_false,
      Except.ok.injEq] at hm
    subst hm
    exact .rejected hr (of_refund hf h)

theorem of_timeout (h : k.timeout s f = .ok s') : Effect k s s' (.timeout f) := by
  simp only [Keeper.timeout, IBCModule.onTimeoutPacket, Result.bind_eq_ok, failIf_eq_ok, not_or,
    not_not] at h
  obtain ⟨_, ⟨hf, hr⟩, m, hm, h⟩ := h
  have hm := of_timedOut hm
  exact .timedOut hr hm (of_refund (hm.flights ▸ hf) h)

-- The own packets, when one more is sent or one is gone.

theorem own_of_cons {l : List Flight} (h : s.ibc.flights.Perm (f :: l)) :
    k.own s = (if f.sender = k.moduleAddr then {f} else 0) +
      (l : Multiset Flight).filter fun f => f.sender = k.moduleAddr := by
  rw [Keeper.own, Multiset.coe_eq_coe.mpr h, ← Multiset.cons_coe, Multiset.filter_cons]

theorem Landed.own {coins : Coins} (h : Landed f coins s s') :
    k.own s = (if f.sender = k.moduleAddr then {f} else 0) + k.own s' :=
  own_of_cons h.flights

theorem Answered.own {a : Acknowledgement} (h : Answered f a s s') : ∃ rest,
    k.own s = (if f.sender = k.moduleAddr then {f} else 0) + rest ∧
    k.own s' = (if f.sender = k.moduleAddr then {{ f with received := some a }} else 0) + rest := by
  obtain ⟨rest, hp, he⟩ := h.flights
  exact ⟨_, own_of_cons hp, own_of_cons (List.Perm.of_eq he)⟩

theorem of_transfer {port channel sender receiver memo : String} {token : Coin} {payer : AccAddress}
    {timeout sequence : UInt64}
    (h : Ibc.transfer ctx s port channel token payer sender receiver timeout memo = .ok (s', sequence)) :
    ∃ f : Flight, f.sender = payer ∧ f.coin = token ∧ f.received = none ∧
      f.packet.transferID = parseBridgeMemo memo ∧ s'.bridgeTransfers = s.bridgeTransfers ∧
      s'.ibc.flights = f :: s.ibc.flights ∧
      Bank.Changed s.bank s'.bank (-Bank.held payer [token]) 0 := by
  simp only [Ibc.transfer, Result.bind_eq_ok, Result.pure_eq_ok, Prod.mk.injEq] at h
  obtain ⟨_, _, _, hb, rfl, _⟩ := h
  exact ⟨_, rfl, rfl, rfl, rfl, rfl, rfl, Bank.of_subUnlockedCoins hb⟩

-- Messages

theorem of_sendOutboundIBCTransfer {route : ChainRoute}
    (h : k.sendOutboundIBCTransfer ctx s t id route = .ok s') :
    ∃ f : Flight, f.sender = k.moduleAddr ∧ (∃ c ∈ t.amount, f.coin = ⟨t.assetDenom, c.amount⟩) ∧
      f.received = none ∧ f.packet.transferID = some id ∧ s'.bridgeTransfers = s.bridgeTransfers ∧
      s'.ibc.flights = f :: s.ibc.flights ∧
      Bank.Changed s.bank s'.bank (-Bank.held k.moduleAddr [f.coin]) 0 := by
  simp only [Keeper.sendOutboundIBCTransfer, Result.bind_eq_ok, orFail_eq_ok,
    Result.pure_eq_ok] at h
  obtain ⟨_, _, c, hc, coin, hcoin, ⟨m, _⟩, hm, rfl⟩ := h
  obtain ⟨f, hs, rfl, hr, hid, ht, hf, hb⟩ := of_transfer hm
  exact ⟨f, hs, ⟨c, hc, (Coin.of_new hcoin).1⟩, hr, hid.trans parse_format, ht, hf, hb⟩

theorem of_dispatch (h : k.dispatch ctx s t id = .ok s') :
    s'.bridgeTransfers = s.bridgeTransfers ∧ ((s'.ibc = s.ibc ∧ s'.bank = s.bank) ∨
      ∃ f : Flight, f.sender = k.moduleAddr ∧ (∃ c ∈ t.amount, f.coin = ⟨t.assetDenom, c.amount⟩) ∧
        f.received = none ∧ f.packet.transferID = some id ∧
        s'.ibc.flights = f :: s.ibc.flights ∧
        Bank.Changed s.bank s'.bank (-Bank.held k.moduleAddr [f.coin]) 0) := by
  simp only [Keeper.dispatch] at h
  split at h
  · split at h
    case h_1 _ _ _ _ hs =>
      cases h
      obtain ⟨f, hm, hc, hr, hid, ht, hf, hb⟩ := of_sendOutboundIBCTransfer hs
      exact ⟨ht, .inr ⟨f, hm, hc, hr, hid, hf, hb⟩⟩
    all_goals cases h
  · cases h
    exact ⟨rfl, .inl ⟨rfl, rfl⟩⟩

theorem of_initiateBridgeTransfer {msg : MsgInitiateBridgeTransfer}
    (h : k.initiateBridgeTransfer ctx s msg = .ok (s', id))
    (hs : k.accAddressFromBech32 msg.sender ≠ some k.moduleAddr) :
    ∃ t, Opened k (s.bridgeState.getD {}).nextTransferId t s s' := by
  simp only [Keeper.initiateBridgeTransfer, Result.bind_eq_ok, orFail_eq_ok, Result.pure_eq_ok,
    Prod.mk.injEq] at h
  obtain ⟨_, _, _, _, addr, haddr, coins, hc, bank, hb, m, hm, rfl, _⟩ := h
  have hne : k.moduleAddr ≠ addr := fun he => hs (he ▸ haddr)
  have hb : ∀ d, bank.balances k.moduleAddr d =
      s.bank.balances k.moduleAddr d + Coins.amountOf [msg.amount] d := by
    intro d
    simp [(Bank.of_sendCoins hb).balances, Bank.held, hne, (Coins.of_new hc).1]
  obtain ⟨ht, hf⟩ := of_dispatch hm
  refine ⟨_, { pending := ?_, nonneg := ?_, transfers := ht, funds := ?_ }⟩
  · rfl
  · exact fun d => Coins.amountOf_nonneg (Coins.of_new hc).2.2
  rcases hf with ⟨hi, hb'⟩ | ⟨f, hsend, ⟨c, hc, hcoin⟩, hr, hid, hf, hb'⟩
  · refine .inl ⟨?_, fun d => ?_⟩
    · simp only [Keeper.own, hi]
    · simp only [hb', hb, BridgeTransfer.worth, Option.elim, le_refl]
  · cases hc
    have hcoin : f.coin = msg.amount := hcoin
    refine .inr ⟨f, ?_, hid, hr, fun d => ?_, fun d => ?_⟩
    · have ho := own_of_cons (k := k) (List.Perm.of_eq hf)
      rw [if_pos hsend, Multiset.singleton_add] at ho
      exact ho
    · rw [hcoin, BridgeTransfer.worth, Option.elim]
    · simp only [hb'.balances, hb, hcoin, Bank.held, Pi.neg_apply, if_true]
      omega

-- The end of a block

theorem of_visits {expired : UInt64 → Prop} : {entries : List (UInt64 × BridgeTransfer)} →
    {s : State} → entries.foldlM (k.visit ctx) s = .ok s' →
    (∀ entry ∈ entries, entry.2.status = .pending → Expired ctx s entry.1 → expired entry.1) →
    Expiries k expired s s'
  | [], _, h, _ => by
    cases h
    exact .refl
  | entry :: entries, s, h, he => by
    simp only [List.foldlM_cons, Result.bind_eq_ok] at h
    obtain ⟨m, hm, h⟩ := h
    have htl : (∀ id, Expired ctx m id → Expired ctx s id) → Expiries k expired m s' := fun hx =>
      of_visits h fun e hmem hp hxm => he e (List.mem_cons_of_mem _ hmem) hp (hx _ hxm)
    simp only [Keeper.visit] at hm
    split at hm
    case isTrue hc =>
      rcases of_refundTimedOutTransfer hm with ⟨rfl, _⟩ | ⟨t, _, hs⟩
      · exact htl fun _ => id
      · refine .step hs (he _ List.mem_cons_self hc.1 hc.2) (htl fun id hx => ?_)
        obtain ⟨r, hr, hlt⟩ := hx
        exact ⟨r, hs.records _ _ hr, hlt⟩
    case isFalse =>
      cases hm
      exact htl fun _ => id

theorem of_pruneOldTransfers {n : ℕ} : Framed k s (Keeper.pruneOldTransfers s n) := by
  simp only [Keeper.pruneOldTransfers]
  split <;> exact { transfers := rfl, own := rfl, balance := fun _ => le_refl _ }

theorem of_endBlocker (h : k.endBlocker ctx s = .ok s') : Effect k s s' (.endBlock ctx) := by
  simp only [Keeper.endBlocker, Result.bind_eq_ok, Result.pure_eq_ok] at h
  obtain ⟨m, hm, rfl⟩ := h
  refine .ended (of_visits hm fun entry he hp hx => ?_) of_pruneOldTransfers
  exact ⟨entry.2, KVStore.mem_entries_iff.mp he, hp, hx⟩

-- Every action that succeeds has its effect.
theorem of_act {a : Action} (h : k.act s a = .ok s') (ha : k.Allowed a) : Effect k s s' a := by
  cases a with
  | initiate ctx msg =>
    simp only [Keeper.act, Result.bind_eq_ok, Result.pure_eq_ok] at h
    obtain ⟨⟨m, id⟩, h, rfl⟩ := h
    obtain ⟨t, ho⟩ := of_initiateBridgeTransfer h ha.1
    exact .opened ho
  | complete ctx msg =>
    obtain ⟨t, hs⟩ := of_completeBridgeTransfer h
    exact .completed hs
  | updateParams authority params =>
    simp only [Keeper.act, Keeper.updateParams, Result.bind_eq_ok, Result.pure_eq_ok] at h
    obtain ⟨_, _, rfl⟩ := h
    exact .framed (by simp) { transfers := rfl, own := rfl, balance := fun _ => le_refl _ }
  | setChainRoute chain route =>
    cases h
    exact .framed (by simp) { transfers := rfl, own := rfl, balance := fun _ => le_refl _ }
  | endBlock ctx => exact of_endBlocker h
  | transfer ctx port channel token payer sender receiver timeout memo =>
    simp only [Keeper.act, Result.bind_eq_ok, Result.pure_eq_ok] at h
    obtain ⟨⟨m, _⟩, h, rfl⟩ := h
    obtain ⟨f, rfl, _, _, _, ht, hf, hb⟩ := of_transfer h
    have hne : f.sender ≠ k.moduleAddr := fun he => ha.1 (congrArg some he)
    have ho := own_of_cons (k := k) (List.Perm.of_eq hf)
    rw [if_neg hne, zero_add] at ho
    refine .framed (by simp) { transfers := ht, own := ho, balance := fun d => ?_ }
    simp [hb.balances, Bank.held, hne.symm]
  | receive f a => exact .received (of_receive h)
  | acknowledge f => exact of_acknowledge h
  | timeout f => exact of_timeout h
  | send fromAddr toAddr amt =>
    simp only [Keeper.act, Result.bind_eq_ok, Result.pure_eq_ok] at h
    obtain ⟨b, hb, rfl⟩ := h
    have hne : k.moduleAddr ≠ fromAddr := fun he => ha.1 (congrArg some he.symm)
    refine .framed (by simp) { transfers := rfl, own := rfl, balance := fun d => ?_ }
    have hn := Coins.amountOf_nonneg_of_isValid (ha.2 _ _ _ rfl) d
    simp only [(Bank.of_sendCoins hb).balances, Pi.sub_apply, Bank.held, hne, if_false]
    split_ifs <;> omega

end Crosschain
