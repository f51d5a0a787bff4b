import MallChain.Crosschain.Settlement

namespace Crosschain

open Sdk TransitionSystem

-- What happens around the bridge, and deliveries to its hooks for which no packet is in flight, such
-- as repeated ones.
inductive Event
  | act (a : Action)
  | ack (p : Packet) (acknowledgement : Option Acknowledgement)
  | timeout (p : Packet)

namespace Keeper

def react (k : Keeper) (s : State) : Event → Result State
  | .act a => k.act s a
  | .ack p acknowledgement => logged s (handleOutboundIBCAck s p acknowledgement)
  | .timeout p => logged s (k.handleOutboundIBCTimeout s p)

def Permits (k : Keeper) : Event → Prop
  | .act a => k.Allowed a
  | _ => True

def deliveries (k : Keeper) : TransitionSystem State Event where
  init s      := s.Empty k
  step s e s' := k.Permits e ∧ k.react s e = .ok s'

end Keeper

namespace Event

-- The events that may settle transfers.
def settling : Event → Bool
  | act (.complete ..) | act (.endBlock _) | act (.acknowledge _) | act (.timeout _) => true
  | act _ => false
  | ack .. | timeout _ => true

-- Who is paid for a transfer.
def payee : Event → BridgeTransfer → String
  | act (.complete ..), t => t.recipient
  | _, t => t.sender

-- What the IBC transfer module gives back to the sender of a packet.
def returned : Event → AccAddress → String → ℤ
  | act (.acknowledge f) => if f.received = some .error then Bank.held f.sender [f.coin] else 0
  | act (.timeout f) => Bank.held f.sender [f.coin]
  | _ => 0

end Event

structure Payment where
  id     : UInt64
  addr   : AccAddress
  amount : Coin

-- The module account pays.
def Payment.moves (k : Keeper) (p : Payment) : AccAddress → String → ℤ :=
  Bank.held p.addr [p.amount] - Bank.held k.moduleAddr [p.amount]

-- A step of a run.
structure Entry where
  before : State
  event  : Event
  after  : State

namespace Entry

def initiates (e : Entry) (id : UInt64) : Bool :=
  match e.event with
  | .act (.initiate ..) => (e.before.bridgeState.getD {}).nextTransferId = id
  | _ => false

def leaves (e : Entry) (id : UInt64) : Bool :=
  e.before.status id = some .pending && e.after.status id ≠ some .pending

-- The payments of a step: one for each of some transfers that leave the status `pending` in it, with
-- the amount of the transfer.
structure Pays (k : Keeper) (e : Entry) (ps : List Payment) : Prop where
  ids    : (ps.map (·.id)).Nodup
  leaves : ∀ p ∈ ps, e.leaves p.id = true
  due    : ∀ p ∈ ps, ∃ t, e.before.bridgeTransfers.get p.id = some t ∧
    k.accAddressFromBech32 (e.event.payee t) = some p.addr ∧ t.amount = some p.amount
  bank   : Bank.Changed e.before.bank e.after.bank ((ps.map (·.moves k)).sum + e.event.returned) 0

end Entry

-- The part of a history, the latest step first, since a transfer was initiated.
def since (id : UInt64) (history : List Entry) : List Entry :=
  history.takeWhile fun e => !e.initiates id

-- A pending transfer got its final status, and the module account paid for it.
structure PaidOut (k : Keeper) (payee : BridgeTransfer → String) (final : Status) (p : Payment)
    (t : BridgeTransfer) (s s' : State) : Prop where
  get       : s.bridgeTransfers.get p.id = some t
  pending   : t.status = .pending
  payee     : k.accAddressFromBech32 (payee t) = some p.addr
  amount    : t.amount = some p.amount
  transfers : s'.bridgeTransfers = s.bridgeTransfers.set p.id { t with status := final }
  bank      : Bank.Changed s.bank s'.bank (p.moves k) 0

inductive Payouts (k : Keeper) (payee : BridgeTransfer → String) (final : Status) :
    State → List Payment → State → Prop
  | refl {s : State} : Payouts k payee final s [] s
  | step {s s' s'' : State} {p : Payment} {t : BridgeTransfer} {ps : List Payment} :
    PaidOut k payee final p t s s' → Payouts k payee final s' ps s'' →
    Payouts k payee final s (p :: ps) s''

variable {k : Keeper} {payee : BridgeTransfer → String} {final : Status} {s s' m : State}
variable {id : UInt64} {t : BridgeTransfer} {p : Payment} {ps : List Payment} {f : Flight}
variable {ctx : Context} {e : Event} {history : List Entry}

namespace Payouts

theorem bank (h : Payouts k payee final s ps s') :
    Bank.Changed s.bank s'.bank (ps.map (·.moves k)).sum 0 := by
  induction h with
  | refl => exact Bank.Changed.refl _
  | step hp _ ih => exact (hp.bank.trans ih).congr (by simp) (by simp)

-- A transfer that is paid for is pending before and not after.
theorem settles (h : Payouts k payee final s ps s') (hf : final ≠ .pending) :
    (ps.map (·.id)).Nodup ∧
      (∀ id, s.status id ≠ some .pending → id ∉ ps.map (·.id) ∧ s'.status id = s.status id) ∧
      ∀ p ∈ ps, s'.status p.id = some final ∧ ∃ t, s.bridgeTransfers.get p.id = some t ∧
        t.status = .pending ∧ k.accAddressFromBech32 (payee t) = some p.addr ∧
        t.amount = some p.amount := by
  induction h with
  | refl => simp
  | @step s m s' p t ps hp _ ih =>
    obtain ⟨hn, hold, hpaid⟩ := ih
    have hst : m.status = Function.update s.status p.id (some final) := status_of_set hp.transfers
    have hself : m.status p.id = some final := by rw [hst, Function.update_self]
    have hnew := hold p.id (by simpa [hself] using hf)
    refine ⟨List.nodup_cons.mpr ⟨hnew.1, hn⟩, fun id hid => ?_, fun q hq => ?_⟩
    · have hne : id ≠ p.id := by
        rintro rfl
        simp [State.status, hp.get, hp.pending] at hid
      have heq : m.status id = s.status id := by rw [hst, Function.update_of_ne hne]
      have ho := hold id (heq ▸ hid)
      exact ⟨by simpa [hne] using ho.1, ho.2.trans heq⟩
    · rcases List.mem_cons.mp hq with rfl | hq
      · exact ⟨hnew.2.trans hself, t, hp.get, hp.pending, hp.payee, hp.amount⟩
      · obtain ⟨hfin, t', hg, h'⟩ := hpaid q hq
        have hne : q.id ≠ p.id := fun he => hnew.1 (he ▸ List.mem_map_of_mem hq)
        rw [hp.transfers, KVStore.get_set_ne hne] at hg
        exact ⟨hfin, t', hg, h'⟩

end Payouts

-- What the handlers pay.

theorem moves_eq {amount : Coin} {addr : AccAddress} {coins : Coins} {b : Bank}
    (hc : Coins.new [amount] = .ok coins)
    (hb : s.bank.sendCoinsFromModuleToAccount k.moduleAddr addr coins = .ok b) :
    Bank.Changed s.bank b (Payment.moves k ⟨id, addr, amount⟩) 0 := by
  refine (Bank.of_sendCoinsFromModuleToAccount hb).congr (fun a d => ?_) fun _ => rfl
  simp [Payment.moves, Bank.held, (Coins.of_new hc).1]

theorem refund_payouts (h : logged s (k.refundTimedOutTransfer s id) = .ok s') :
    ∃ ps, Payouts k (·.sender) .timedOut s ps s' := by
  rcases of_logged h with ⟨rfl, _⟩ | ⟨_, h⟩
  · exact ⟨[], .refl⟩
  simp only [Keeper.refundTimedOutTransfer, Result.bind_eq_ok, orFail_eq_ok] at h
  obtain ⟨t, hg, h⟩ := h
  by_cases hp : t.status = .pending
  case neg =>
    simp only [hp, ne_eq, not_false_eq_true, if_true, Result.pure_eq_ok, Prod.mk.injEq] at h
    exact ⟨[], h.1 ▸ .refl⟩
  case pos =>
    simp only [hp, ne_eq, not_true, if_false, Result.bind_eq_ok, orFail_eq_ok,
      Result.pure_eq_ok] at h
    obtain ⟨addr, haddr, amount, ha, coins, hc, bank, hb, h⟩ := h
    refine ⟨[⟨id, addr, amount⟩], .step (t := t) ⟨hg, hp, haddr, ha, ?_, ?_⟩ .refl⟩
    · rcases orKeep_eq h with rfl | h
      · rfl
      · simp only [Result.bind_eq_ok, Result.pure_eq_ok] at h
        obtain ⟨m, hm, rfl⟩ := h
        obtain ⟨_, _, _, rfl, _⟩ := of_moveTransferToCompleted hm
        rfl
    · rcases orKeep_eq h with rfl | h
      · exact moves_eq hc hb
      · simp only [Result.bind_eq_ok, Result.pure_eq_ok] at h
        obtain ⟨m, hm, rfl⟩ := h
        obtain ⟨_, _, _, rfl, _⟩ := of_moveTransferToCompleted hm
        exact moves_eq hc hb

theorem timeout_payouts {packet : Packet}
    (h : logged s (k.handleOutboundIBCTimeout s packet) = .ok s') :
    ∃ ps, Payouts k (·.sender) .timedOut s ps s' := by
  rw [logged_handleOutboundIBCTimeout] at h
  cases hid : packet.transferID with
  | none =>
    cases hid ▸ h
    exact ⟨[], .refl⟩
  | some id => exact refund_payouts (hid ▸ h)

theorem complete_payouts {msg : MsgCompleteBridgeTransfer}
    (h : k.completeBridgeTransfer ctx s msg = .ok s') :
    ∃ p, Payouts k (·.recipient) .completed s [p] s' := by
  simp only [Keeper.completeBridgeTransfer, Result.bind_eq_ok, orFail_eq_ok, failIf_eq_ok,
    Result.pure_eq_ok, not_not] at h
  obtain ⟨t, hg, _, hp, _, _, _, _, _, _, _, _, addr, haddr, amount, ha, coins, hc, bank, hb, _, hm,
    rfl⟩ := h
  obtain ⟨_, _, _, rfl, _⟩ := of_moveTransferToCompleted hm
  exact ⟨⟨msg.transferId, addr, amount⟩, .step (t := t) ⟨hg, hp, haddr, ha, rfl, moves_eq hc hb⟩ .refl⟩

theorem Payouts.trans {ps' : List Payment} (h : Payouts k payee final s ps m)
    (h' : Payouts k payee final m ps' s') : Payouts k payee final s (ps ++ ps') s' := by
  induction h with
  | refl => exact h'
  | step hp _ ih => exact .step hp (ih h')

theorem visits_payouts : {entries : List (UInt64 × BridgeTransfer)} → {s : State} →
    entries.foldlM (k.visit ctx) s = .ok s' → ∃ ps, Payouts k (·.sender) .timedOut s ps s'
  | [], _, h => by
    cases h
    exact ⟨[], .refl⟩
  | entry :: entries, s, h => by
    simp only [List.foldlM_cons, Result.bind_eq_ok] at h
    obtain ⟨m, hm, h⟩ := h
    obtain ⟨ps', h'⟩ := visits_payouts h
    simp only [Keeper.visit] at hm
    split at hm
    case isTrue =>
      obtain ⟨ps, hps⟩ := refund_payouts hm
      exact ⟨ps ++ ps', hps.trans h'⟩
    case isFalse =>
      cases hm
      exact ⟨ps', h'⟩

-- An acknowledgement does not pay.
theorem ack_bank {packet : Packet} {acknowledgement : Option Acknowledgement}
    (h : logged s (Keeper.handleOutboundIBCAck s packet acknowledgement) = .ok s') :
    s'.bank = s.bank := by
  rw [logged_handleOutboundIBCAck] at h
  split_ifs at h
  case neg =>
    cases h
    rfl
  cases hid : packet.transferID with
  | none =>
    cases hid ▸ h
    rfl
  | some id =>
    rw [hid] at h
    rcases of_logged h with ⟨rfl, _⟩ | ⟨_, h⟩
    · rfl
    simp only [Keeper.completeAcknowledgedTransfer, Result.bind_eq_ok, orFail_eq_ok] at h
    obtain ⟨t, _, h⟩ := h
    split at h
    · simp only [Result.pure_eq_ok, Prod.mk.injEq] at h
      rw [← h.1]
    · simp only [Result.pure_eq_ok] at h
      rcases orKeep_eq h with rfl | hm
      · rfl
      · obtain ⟨_, _, _, rfl, _⟩ := of_moveTransferToCompleted hm
        rfl

theorem Payouts.pays (h : Payouts k e.payee final s ps m) (hf : final ≠ .pending)
    (ht : s'.bridgeTransfers = m.bridgeTransfers)
    (hb : Bank.Changed m.bank s'.bank e.returned 0) : Entry.Pays k ⟨s, e, s'⟩ ps := by
  obtain ⟨hn, _, hpaid⟩ := h.settles hf
  refine {
    ids    := hn
    leaves := fun p hp => ?_
    due    := fun p hp => ?_
    bank   := (h.bank.trans hb).congr (by simp) (by simp)
  }
  · obtain ⟨hfin, t, hg, hpend, _⟩ := hpaid p hp
    have hs : s.status p.id = some .pending := by rw [State.status, hg, Option.map_some, hpend]
    simp [Entry.leaves, hs, status_of_transfers ht, hfin, hf]
  · obtain ⟨_, t, hg, _, haddr, ha⟩ := hpaid p hp
    exact ⟨t, hg, haddr, ha⟩

-- A step that pays nothing.
theorem pays_nil (hb : Bank.Changed s.bank s'.bank e.returned 0) : Entry.Pays k ⟨s, e, s'⟩ [] where
  ids    := List.nodup_nil
  leaves := by simp
  due    := by simp
  bank   := hb.congr (by simp) (by simp)

theorem pays_of_acknowledge (h : Keeper.acknowledge s f = .ok s') :
    Entry.Pays k ⟨s, .act (.acknowledge f), s'⟩ [] := by
  simp only [Keeper.acknowledge, IBCModule.onAcknowledgementPacket, Result.bind_eq_ok, failIf_eq_ok,
    orFail_eq_ok, not_not] at h
  obtain ⟨_, _, a, hr, m, hm, h⟩ := h
  apply pays_nil
  rw [← ack_bank hm]
  cases a with
  | result =>
    cases h
    exact (Bank.Changed.refl _).congr (by simp [Event.returned, hr]) (by simp)
  | error =>
    simp only [Ibc.onAcknowledgementPacket, Ibc.refund, Result.bind_eq_ok, Result.pure_eq_ok] at h
    obtain ⟨b, hb, rfl⟩ := h
    exact (Bank.of_addCoins hb).congr (by simp [Event.returned, hr]) (by simp)

theorem pays_of_timeout (h : k.timeout s f = .ok s') :
    ∃ ps, Entry.Pays k ⟨s, .act (.timeout f), s'⟩ ps := by
  simp only [Keeper.timeout, IBCModule.onTimeoutPacket, Ibc.onTimeoutPacket, Ibc.refund,
    Result.bind_eq_ok, Result.pure_eq_ok] at h
  obtain ⟨_, _, m, hm, b, hb, rfl⟩ := h
  obtain ⟨ps, hps⟩ := timeout_payouts hm
  have hb : Bank.Changed m.bank b (Event.returned (.act (.timeout f))) 0 := Bank.of_addCoins hb
  exact ⟨ps, Payouts.pays hps (by decide) rfl hb⟩

-- The module account pays for the transfers that the step settles, and for nothing else.
theorem pays_of_react (hs : e.settling = true) (h : k.react s e = .ok s') :
    ∃ ps, Entry.Pays k ⟨s, e, s'⟩ ps := by
  cases e with
  | act a =>
    cases a with
    | complete ctx msg =>
      obtain ⟨p, hp⟩ := complete_payouts h
      exact ⟨[p], hp.pays (by decide) rfl (Bank.Changed.refl _)⟩
    | endBlock ctx =>
      simp only [Keeper.react, Keeper.act, Keeper.endBlocker, Result.bind_eq_ok,
        Result.pure_eq_ok] at h
      obtain ⟨m, hm, rfl⟩ := h
      obtain ⟨ps, hps⟩ := visits_payouts hm
      refine ⟨ps, hps.pays (by decide) (of_pruneOldTransfers (k := k)).transfers ?_⟩
      have hb : (Keeper.pruneOldTransfers m Keeper.maxCompletedTransfersToKeep).bank = m.bank := by
        simp only [Keeper.pruneOldTransfers]
        split <;> rfl
      exact hb ▸ Bank.Changed.refl _
    | acknowledge f => exact ⟨[], pays_of_acknowledge h⟩
    | timeout f => exact pays_of_timeout h
    | _ => cases hs
  | ack packet acknowledgement =>
    refine ⟨[], pays_nil ?_⟩
    exact ack_bank h ▸ Bank.Changed.refl _
  | timeout packet =>
    obtain ⟨ps, hps⟩ := timeout_payouts h
    exact ⟨ps, hps.pays (by decide) rfl (Bank.Changed.refl _)⟩

-- Statuses only become pending when a transfer is initiated.

def Ends (s s' : State) : Prop :=
  ∀ id, s'.status id = some .pending → s.status id = some .pending

theorem Ends.trans (h : Ends s m) (h' : Ends m s') : Ends s s' :=
  fun id hp => h id (h' id hp)

theorem Ends.of_eq (h : s'.bridgeTransfers = s.bridgeTransfers) : Ends s s' :=
  fun _ hp => status_of_transfers h ▸ hp

theorem Settled.ends {cost : String → ℤ} (h : Settled k id t final cost s s')
    (hf : final ≠ .pending) : Ends s s' := by
  intro id' hp
  rw [h.status, Function.update_apply] at hp
  split_ifs at hp
  · exact absurd (Option.some.inj hp) hf
  · exact hp

theorem Expiries.ends {expired : UInt64 → Prop} (h : Expiries k expired s s') : Ends s s' := by
  induction h with
  | refl => exact fun _ => id
  | step hs _ _ ih => exact (hs.ends (by decide)).trans ih

theorem Acknowledged.ends {packet : Packet} (h : Acknowledged k packet s s') : Ends s s' := by
  cases h with
  | inert _ => exact fun _ => id
  | settled _ h => exact h.ends (by decide)

theorem TimedOut.ends {packet : Packet} (h : TimedOut k packet s s') : Ends s s' := by
  cases h with
  | inert _ => exact fun _ => id
  | settled _ _ h => exact h.ends (by decide)

theorem Effect.ends {a : Action} (h : Effect k s s' a) (ha : ∀ ctx msg, a ≠ .initiate ctx msg) :
    Ends s s' := by
  cases h with
  | framed _ h => exact .of_eq h.transfers
  | opened => exact absurd rfl (ha _ _)
  | completed h => exact h.ends (by decide)
  | ended h prune => exact h.ends.trans (.of_eq prune.transfers)
  | received h => exact .of_eq h.transfers
  | accepted _ hook h => exact hook.ends.trans (.of_eq h.transfers)
  | rejected _ h => exact .of_eq h.transfers
  | timedOut _ hook h => exact hook.ends.trans (.of_eq h.transfers)

theorem ends_of_react (hl : k.Permits e) (h : k.react s e = .ok s')
    (he : ∀ ctx msg, e ≠ .act (.initiate ctx msg)) : Ends s s' := by
  cases e with
  | act a => exact (of_act h hl).ends fun ctx msg ha => he ctx msg (ha ▸ rfl)
  | ack packet acknowledgement =>
    by_cases ha : acknowledgement = some .result
    case pos =>
      subst ha
      have hack : Acknowledged k packet s s' := of_acknowledged h
      exact hack.ends
    case neg =>
      simp only [Keeper.react, logged_handleOutboundIBCAck, if_neg ha, Except.ok.injEq] at h
      exact .of_eq (h ▸ rfl)
  | timeout packet => exact (of_timedOut h).ends

-- The only id that a new transfer makes pending is the one that it gets.
theorem pending_of_react (hl : k.Permits e) (h : k.react s e = .ok s')
    (hid : Entry.initiates ⟨s, e, s'⟩ id = false) (hp : s'.status id = some .pending) :
    s.status id = some .pending := by
  by_cases he : ∃ ctx msg, e = .act (.initiate ctx msg)
  case pos =>
    obtain ⟨ctx, msg, rfl⟩ := he
    have hact : k.act s (.initiate ctx msg) = .ok s' := h
    cases of_act hact hl with
    | framed _ hf => exact status_of_transfers hf.transfers ▸ hp
    | opened ho =>
      rw [status_of_set ho.transfers, Function.update_apply] at hp
      split_ifs at hp with heq
      · simp [Entry.initiates, heq] at hid
      · exact hp
  case neg =>
    simp only [not_exists] at he
    exact ends_of_react hl h he id hp

theorem not_leaves_of_react (hl : k.Permits e) (h : k.react s e = .ok s')
    (hs : e.settling = false) : Entry.leaves ⟨s, e, s'⟩ id = false := by
  cases e with
  | act a =>
    have hst : s'.status = s.status ∨ ∃ id, s'.status = Function.update s.status id (some .pending) := by
      cases of_act h hl with
      | framed _ hf => exact .inl (status_of_transfers hf.transfers)
      | opened ho => exact .inr ⟨_, ho.pending ▸ status_of_set ho.transfers⟩
      | received ha => exact .inl (status_of_transfers ha.transfers)
      | _ => cases hs
    rcases hst with hst | ⟨id', hst⟩
    · simp [Entry.leaves, hst]
    · simp only [Entry.leaves, hst, Function.update_apply]
      split_ifs <;> simp
  | _ => cases hs

-- How often a transfer has left the status `pending` since it was initiated.
def left (id : UInt64) (history : List Entry) : ℕ :=
  (since id history).countP (·.leaves id)

theorem left_cons_initiates {x : Entry} (h : x.initiates id = true) : left id (x :: history) = 0 := by
  simp [left, since, h]

theorem left_cons {x : Entry} (h : x.initiates id = false) :
    left id (x :: history) = left id history + if x.leaves id = true then 1 else 0 := by
  simp only [left, since, List.takeWhile_cons, h, Bool.not_false, if_true, List.countP_cons]

theorem left_once (k : Keeper) (id : UInt64) : (k.deliveries.traced Entry.mk).Invariant
    (fun _ _ => True)
    fun p => left id p.2 ≤ 1 ∧ (p.1.status id = some .pending → left id p.2 = 0) := by
  refine traced_invariant (fun _ => ⟨Nat.zero_le _, fun _ => rfl⟩) ?_
  rintro s history e s' ⟨hle, hpend⟩ - ⟨hl, h⟩
  cases hid : Entry.initiates ⟨s, e, s'⟩ id with
  | true =>
    rw [left_cons_initiates hid]
    exact ⟨Nat.zero_le _, fun _ => rfl⟩
  | false =>
    rw [left_cons hid]
    have hkeep := pending_of_react hl h hid
    cases hlv : Entry.leaves ⟨s, e, s'⟩ id with
    | true =>
      have hlv : s.status id = some .pending ∧ s'.status id ≠ some .pending := by
        simpa [Entry.leaves] using hlv
      rw [hpend hlv.1]
      exact ⟨le_rfl, fun hp => absurd hp hlv.2⟩
    | false => exact ⟨hle, fun hp => hpend (hkeep hp)⟩

-- A transfer that is initiated gives nobody the coins of the module account.
theorem initiate_pays_nobody {msg : MsgInitiateBridgeTransfer} {addr : AccAddress} {d : String}
    (h : k.react s (.act (.initiate ctx msg)) = .ok s') (ha : addr ≠ k.moduleAddr) :
    s'.bank.balances addr d ≤ s.bank.balances addr d := by
  simp only [Keeper.react, Keeper.act, Keeper.initiateBridgeTransfer, Result.bind_eq_ok,
    orFail_eq_ok, Result.pure_eq_ok, Prod.exists, Prod.mk.injEq] at h
  obtain ⟨_, _, ⟨_, _, _, _, payer, _, coins, hc, b, hb, m, hm, rfl, _⟩, rfl⟩ := h
  have hn : 0 ≤ coins.amountOf d := by
    rw [(Coins.of_new hc).1]
    exact Coins.amountOf_nonneg (Coins.of_new hc).2.2
  have hpaid : b.balances addr d ≤ s.bank.balances addr d := by
    simp only [(Bank.of_sendCoins hb).balances, Pi.sub_apply, Bank.held, ha, if_false]
    split_ifs <;> omega
  rcases (of_dispatch hm).2 with ⟨_, hbank⟩ | ⟨f, _, _, _, _, _, hbank⟩
  · simpa [hbank] using hpaid
  · simpa [hbank.balances, Bank.held, ha] using hpaid

-- What holds of each step of a run.
structure Entry.Sound (k : Keeper) (e : Entry) : Prop where
  pays   : e.event.settling = true → ∃ ps, e.Pays k ps
  leaves : e.event.settling = false → ∀ id, e.leaves id = false
  opens  : ∀ ctx msg, e.event = .act (.initiate ctx msg) → ∀ addr d, addr ≠ k.moduleAddr →
    e.after.bank.balances addr d ≤ e.before.bank.balances addr d

theorem entries_sound (k : Keeper) : (k.deliveries.traced Entry.mk).Invariant (fun _ _ => True)
    fun p => ∀ e ∈ p.2, e.Sound k := by
  refine traced_invariant (fun _ => by simp) ?_
  rintro s history e s' hi - ⟨hl, h⟩ x hx
  rcases List.mem_cons.mp hx with rfl | hx
  · exact {
      pays   := fun hs => pays_of_react hs h
      leaves := fun hs _ => not_leaves_of_react hl h hs
      opens  := by
        intro ctx msg he addr d ha
        have he : e = .act (.initiate ctx msg) := he
        subst he
        exact initiate_pays_nobody h ha
    }
  · exact hi x hx

-- In every run, with any deliveries to the hooks, a transfer leaves the status `pending` at most once
-- after it was initiated. The module account pays at most once for each transfer that leaves it, in
-- the same step, and for nothing else.
theorem terminal_once (k : Keeper) {p : State × List Entry}
    (h : (k.deliveries.traced Entry.mk).Reachable p) :
    (∀ id, (since id p.2).countP (·.leaves id) ≤ 1) ∧ ∀ e ∈ p.2, e.Sound k :=
  ⟨fun id => ((left_once k id).holds h).1, (entries_sound k).holds h⟩

-- A transfer without a route expires, and a packet that names it times out later.
namespace Sample

def reacted (s : State) (e : Event) : State :=
  (keeper.react s e).toOption.getD s

def opened : State := reacted genesis (.act routeless)
def refunded : State := reacted opened (.act (.endBlock (block 16)))
def late : State := reacted refunded (.timeout packet)

def log : List Entry :=
  [⟨refunded, .timeout packet, late⟩, ⟨opened, .act (.endBlock (block 16)), refunded⟩,
    ⟨genesis, .act routeless, opened⟩]

theorem reacted_step {s : State} {e : Event} (hl : keeper.Permits e)
    (h : (keeper.react s e).isOk = true) : keeper.deliveries.step s e (reacted s e) := by
  refine ⟨hl, ?_⟩
  rw [reacted]
  cases hs : keeper.react s e <;> simp_all [Except.isOk, Except.toBool, Except.toOption]

theorem late_run : (keeper.deliveries.traced Entry.mk).Reachable (late, log) := by
  have hinit : (keeper.deliveries.traced Entry.mk).Reachable (genesis, []) :=
    Run.traced_init genesis_empty
  have hopen : (keeper.deliveries.traced Entry.mk).Reachable (opened, log.drop 2) :=
    hinit.traced_step trivial (reacted_step (e := .act routeless)
      ⟨by decide, by simp [routeless]⟩ (by decide +kernel))
  have hend : (keeper.deliveries.traced Entry.mk).Reachable (refunded, log.drop 1) :=
    hopen.traced_step trivial (reacted_step (e := .act (.endBlock (block 16)))
      ⟨by decide, by simp⟩ (by decide +kernel))
  exact hend.traced_step trivial (reacted_step (e := .timeout packet) trivial (by decide +kernel))

end Sample

theorem sample_terminal_once : Sample.late.status 1 = some .timedOut ∧
    Sample.late.bank.balances Sample.bob "umlcn" = 100 ∧
    (∀ id, (since id Sample.log).countP (·.leaves id) ≤ 1) ∧
    ∀ e ∈ Sample.log, e.Sound Sample.keeper :=
  ⟨by decide +kernel, by decide +kernel, terminal_once Sample.keeper Sample.late_run⟩

end Crosschain
