import MallChain.Crosschain.Effects

namespace Crosschain

open Sdk TransitionSystem

-- Every stored transfer has a property, together with the id that it is stored under.
def State.Each (P : UInt64 → BridgeTransfer → Prop) (s : State) : Prop :=
  ∀ id t, s.bridgeTransfers.get id = some t → P id t

-- A property that a new transfer has and that does not depend on the status.
structure Lasting (k : Keeper) (P : UInt64 → BridgeTransfer → Prop) : Prop where
  initiate : ∀ {ctx s msg s' id}, k.initiateBridgeTransfer ctx s msg = .ok (s', id) →
    ∃ t, s'.bridgeTransfers = s.bridgeTransfers.set id t ∧ P id t
  settle   : ∀ {id t} (status : Status), P id t → P id { t with status }

variable {k : Keeper} {ctx : Context} {s s' : State} {id : UInt64} {t : BridgeTransfer}
variable {final : Status} {cost : String → ℤ} {P : UInt64 → BridgeTransfer → Prop}

-- The record that a new transfer gets.
theorem of_initiate {msg : MsgInitiateBridgeTransfer}
    (h : k.initiateBridgeTransfer ctx s msg = .ok (s', id)) :
    ∃ t, s'.bridgeTransfers = s.bridgeTransfers.set id t ∧ t.id = id ∧ t.amount = some msg.amount ∧
      s.params.minTransferAmount.toNat ≤ msg.amount.amount ∧
      msg.amount.amount ≤ s.params.maxTransferAmount.toNat := by
  simp only [Keeper.initiateBridgeTransfer, Keeper.validateTransferAmount, Result.bind_eq_ok,
    failIf_eq_ok, orFail_eq_ok, Result.pure_eq_ok, Prod.mk.injEq, not_or, not_lt] at h
  obtain ⟨_, _, _, ⟨hmin, hmax⟩, _, _, _, _, _, _, m, hm, rfl, rfl⟩ := h
  exact ⟨_, (of_dispatch hm).1, rfl, rfl, hmin, hmax⟩

theorem State.Each.set (h : s.Each P) (ht : P id t)
    (hs : s'.bridgeTransfers = s.bridgeTransfers.set id t) : s'.Each P := by
  intro id' t' hg
  rw [hs, KVStore.get_set] at hg
  split_ifs at hg with he
  · cases hg
    exact he ▸ ht
  · exact h id' t' hg

theorem State.Each.frame (h : s.Each P) (ht : s'.bridgeTransfers = s.bridgeTransfers) :
    s'.Each P :=
  fun id t hg => h id t (ht ▸ hg)

section Lasting

variable (hP : Lasting k P)

include hP

theorem Settled.each (h : Settled k id t final cost s s') (hs : s.Each P) : s'.Each P :=
  hs.set (hP.settle final (hs id t h.get)) h.transfers

theorem Expiries.each {expired : UInt64 → Prop} (h : Expiries k expired s s') (hs : s.Each P) :
    s'.Each P := by
  induction h with
  | refl => exact hs
  | step h _ _ ih => exact ih (h.each hP hs)

theorem Acknowledged.each {packet : Packet} (h : Acknowledged k packet s s') (hs : s.Each P) :
    s'.Each P := by
  cases h with
  | inert _ => exact hs
  | settled _ h => exact h.each hP hs

theorem TimedOut.each {packet : Packet} (h : TimedOut k packet s s') (hs : s.Each P) :
    s'.Each P := by
  cases h with
  | inert _ => exact hs
  | settled _ _ h => exact h.each hP hs

-- What holds of every new transfer and does not depend on the status holds of every stored one.
theorem each : (system k).Invariant (fun _ _ => True) (State.Each P) where
  init h := by simp [State.Each, h.transfers]
  step := by
    intro s a s' hs _ ht
    obtain ⟨hl, h⟩ := ht
    cases of_act h hl with
    | framed _ hf => exact hs.frame hf.transfers
    | opened _ =>
      simp only [Keeper.act, Result.bind_eq_ok, Result.pure_eq_ok, Prod.exists] at h
      obtain ⟨_, _, h, rfl⟩ := h
      obtain ⟨t, ht, hp⟩ := hP.initiate h
      exact hs.set hp ht
    | completed hc => exact hc.each hP hs
    | ended hx prune => exact (hx.each hP hs).frame prune.transfers
    | received ha => exact hs.frame ha.transfers
    | accepted _ hook hd => exact (hook.each hP hs).frame hd.transfers
    | rejected _ hd => exact hs.frame hd.transfers
    | timedOut _ hook hd => exact (hook.each hP hs).frame hd.transfers

end Lasting

variable {s'' m : State} {t' : BridgeTransfer} {entry : UInt64 × BridgeTransfer}
variable {entries : List (UInt64 × BridgeTransfer)}

-- Timeouts

-- The heights of every pending transfer are recorded.
def State.Timed (s : State) : Prop :=
  ∀ id t, s.bridgeTransfers.get id = some t → t.status = .pending →
    (s.transferMeta.get id).isSome = true

theorem State.Timed.frame (h : s.Timed) (ht : s'.bridgeTransfers = s.bridgeTransfers)
    (hr : s'.transferMeta = s.transferMeta) : s'.Timed := by
  intro id t hg
  rw [hr]
  exact h id t (ht ▸ hg)

-- The records of a transfer may go once it is settled.
theorem State.Timed.settle (h : s.Timed) (hp : t.status ≠ .pending)
    (ht : s'.bridgeTransfers = s.bridgeTransfers.set id t)
    (hr : ∀ id', id' ≠ id → s'.transferMeta.get id' = s.transferMeta.get id') : s'.Timed := by
  intro id' t' hg hp'
  rw [ht, KVStore.get_set] at hg
  split_ifs at hg with he
  · exact absurd (Option.some.inj hg ▸ hp') hp
  · rw [hr id' he]
    exact h id' t' hg hp'

theorem State.Timed.opened {r : TransferMeta} (h : s.Timed)
    (ht : s'.bridgeTransfers = s.bridgeTransfers.set id t)
    (hr : s'.transferMeta = s.transferMeta.set id r) : s'.Timed := by
  intro id' t' hg hp
  rw [ht, KVStore.get_set] at hg
  rw [hr, KVStore.get_set]
  split_ifs at hg with he
  · rw [if_pos he]
    rfl
  · rw [if_neg he]
    exact h id' t' hg hp

theorem timed_move (h : s.Timed) (hm : moveTransferToCompleted m id t = .ok s')
    (hp : t.status ≠ .pending) (ht : m.bridgeTransfers = s.bridgeTransfers.set id t)
    (hr : m.transferMeta = s.transferMeta) : s'.Timed := by
  obtain ⟨_, _, _, rfl, _, _⟩ := of_moveTransferToCompleted hm
  exact h.settle hp ht fun _ _ => by rw [← hr]

theorem State.Timed.remove (h : s.Timed) (hg : s.bridgeTransfers.get id = some t)
    (hp : t.status ≠ .pending) : ({ s with transferMeta := s.transferMeta.remove id } : State).Timed := by
  intro id' t' hg' hp'
  have hne : id' ≠ id := by
    rintro rfl
    cases hg.symm.trans hg'
    exact hp hp'
  simp only [KVStore.get_remove, hne, if_false]
  exact h id' t' hg' hp'

theorem timed_refund (h : s.Timed) (hl : logged s (k.refundTimedOutTransfer s id) = .ok s') :
    s'.Timed := by
  rcases of_logged hl with ⟨rfl, _⟩ | ⟨e, hr⟩
  case inl => exact h
  simp only [Keeper.refundTimedOutTransfer, Result.bind_eq_ok, orFail_eq_ok] at hr
  obtain ⟨t, hg, hr⟩ := hr
  split at hr
  case isTrue =>
    cases hr
    exact h
  simp only [Result.bind_eq_ok, orFail_eq_ok, Result.pure_eq_ok] at hr
  obtain ⟨_, _, _, _, _, _, bank, _, hr⟩ := hr
  rcases orKeep_eq hr with rfl | hr
  case inl => exact h.settle (t := { t with status := .timedOut }) (by simp) rfl fun _ _ => rfl
  simp only [Result.bind_eq_ok, Result.pure_eq_ok] at hr
  obtain ⟨m, hm, rfl⟩ := hr
  have ht : m.Timed := timed_move h hm (by simp) rfl rfl
  obtain ⟨_, _, _, rfl, _, _⟩ := of_moveTransferToCompleted hm
  exact ht.remove (KVStore.get_set_self ..) (by simp)

theorem timed_complete {msg : MsgCompleteBridgeTransfer} (h : s.Timed)
    (hc : k.completeBridgeTransfer ctx s msg = .ok s') : s'.Timed := by
  simp only [Keeper.completeBridgeTransfer, Result.bind_eq_ok, orFail_eq_ok, failIf_eq_ok,
    Result.pure_eq_ok, not_not] at hc
  obtain ⟨t, _, _, _, _, _, _, _, _, _, _, _, _, _, _, _, _, _, bank, _, m, hm, rfl⟩ := hc
  have ht : m.Timed := timed_move h hm (by simp) rfl rfl
  obtain ⟨_, _, _, rfl, _, _⟩ := of_moveTransferToCompleted hm
  exact ht.remove (KVStore.get_set_self ..) (by simp)

theorem timed_acknowledged (h : s.Timed)
    (hl : logged s (Keeper.completeAcknowledgedTransfer s id) = .ok s') : s'.Timed := by
  rcases of_logged hl with ⟨rfl, _⟩ | ⟨e, hr⟩
  case inl => exact h
  simp only [Keeper.completeAcknowledgedTransfer, Result.bind_eq_ok, orFail_eq_ok] at hr
  obtain ⟨t, hg, hr⟩ := hr
  split at hr
  case isTrue =>
    cases hr
    exact h
  simp only [Result.pure_eq_ok] at hr
  rcases orKeep_eq hr with rfl | hr
  case inl => exact h.settle (t := { t with status := .completed }) (by simp) rfl fun _ _ => rfl
  case inr => exact timed_move h hr (by simp) rfl rfl

theorem timed_initiate {msg : MsgInitiateBridgeTransfer} (h : s.Timed)
    (hi : k.initiateBridgeTransfer ctx s msg = .ok (s', id)) : s'.Timed := by
  simp only [Keeper.initiateBridgeTransfer, Result.bind_eq_ok, Result.pure_eq_ok,
    Prod.mk.injEq] at hi
  obtain ⟨_, _, _, _, addr, _, coins, _, bank, _, m, hm, rfl, _⟩ := hi
  simp only [Keeper.dispatch] at hm
  split at hm
  case h_2 =>
    cases hm
    exact h.opened rfl rfl
  case h_1 =>
    split at hm
    case h_1 hs =>
      cases hm
      simp only [Keeper.sendOutboundIBCTransfer, Ibc.transfer, Result.bind_eq_ok, orFail_eq_ok,
        failIf_eq_ok, Result.pure_eq_ok] at hs
      obtain ⟨_, _, _, _, _, _, ⟨m, _⟩, ⟨_, _, bank', _, hm⟩, rfl⟩ := hs
      cases hm
      exact h.opened rfl rfl
    all_goals cases hm

theorem timed_visits (h : s.Timed) (hv : entries.foldlM (k.visit ctx) s = .ok s') : s'.Timed := by
  induction entries generalizing s with
  | nil =>
    cases hv
    exact h
  | cons entry entries ih =>
    simp only [List.foldlM_cons, Result.bind_eq_ok, Keeper.visit] at hv
    obtain ⟨m, hm, hv⟩ := hv
    split at hm
    case isTrue => exact ih (timed_refund h hm) hv
    case isFalse =>
      cases hm
      exact ih h hv

theorem timed_endBlocker (h : s.Timed) (he : k.endBlocker ctx s = .ok s') : s'.Timed := by
  simp only [Keeper.endBlocker, Result.bind_eq_ok, Result.pure_eq_ok] at he
  obtain ⟨m, hm, rfl⟩ := he
  simp only [Keeper.pruneOldTransfers]
  split <;> exact (timed_visits h hm).frame rfl rfl

theorem timed_hooks {p : Packet} {a : Option Acknowledgement} (h : s.Timed) :
    (logged s (Keeper.handleOutboundIBCAck s p a) = .ok s' → s'.Timed) ∧
      (logged s (k.handleOutboundIBCTimeout s p) = .ok s' → s'.Timed) := by
  rw [logged_handleOutboundIBCAck, logged_handleOutboundIBCTimeout]
  constructor
  case left =>
    intro hl
    split at hl
    case isFalse =>
      cases hl
      exact h
    cases hid : p.transferID <;> rw [hid] at hl
    case none =>
      cases hl
      exact h
    case some id => exact timed_acknowledged h hl
  case right =>
    intro hl
    cases hid : p.transferID <;> rw [hid] at hl
    case none =>
      cases hl
      exact h
    case some id => exact timed_refund h hl

theorem timed_refunded {f : Flight} (h : s.Timed) (hr : Ibc.refund s f = .ok s') : s'.Timed := by
  simp only [Ibc.refund, Result.bind_eq_ok, Result.pure_eq_ok] at hr
  obtain ⟨_, _, rfl⟩ := hr
  exact h.frame rfl rfl

theorem timed : (system k).Invariant (fun _ _ => True) State.Timed where
  init h := by simp [State.Timed, h.transfers]
  step := by
    intro s a s' h _ ht
    obtain ⟨_, ha⟩ := ht
    cases a with
    | initiate ctx msg =>
      simp only [Keeper.act, Result.bind_eq_ok, Result.pure_eq_ok] at ha
      obtain ⟨⟨m, id⟩, ha, rfl⟩ := ha
      exact timed_initiate h ha
    | complete ctx msg => exact timed_complete h ha
    | updateParams authority params =>
      simp only [Keeper.act, Keeper.updateParams, Result.bind_eq_ok, Result.pure_eq_ok] at ha
      obtain ⟨_, _, rfl⟩ := ha
      exact h.frame rfl rfl
    | setChainRoute chain route =>
      cases ha
      exact h.frame rfl rfl
    | endBlock ctx => exact timed_endBlocker h ha
    | transfer ctx port channel token payer sender receiver timeout memo =>
      simp only [Keeper.act, Ibc.transfer, Result.bind_eq_ok, Result.pure_eq_ok] at ha
      obtain ⟨⟨m, _⟩, ⟨_, _, bank, _, hm⟩, rfl⟩ := ha
      cases hm
      exact h.frame rfl rfl
    | receive f a =>
      simp only [Keeper.act, Keeper.receive, Result.bind_eq_ok, Result.pure_eq_ok] at ha
      obtain ⟨_, _, rfl⟩ := ha
      exact h.frame rfl rfl
    | acknowledge f =>
      simp only [Keeper.act, Keeper.acknowledge, IBCModule.onAcknowledgementPacket,
        Result.bind_eq_ok] at ha
      obtain ⟨_, _, a, _, m, hm, ha⟩ := ha
      have ht : m.Timed := (timed_hooks (k := k) h).1 hm
      cases a with
      | result =>
        cases ha
        exact ht.frame rfl rfl
      | error => exact timed_refunded ht ha
    | timeout f =>
      simp only [Keeper.act, Keeper.timeout, IBCModule.onTimeoutPacket, Result.bind_eq_ok] at ha
      obtain ⟨_, _, m, hm, ha⟩ := ha
      have ht : m.Timed := (timed_hooks (a := none) h).2 hm
      exact timed_refunded ht ha
    | send fromAddr toAddr amt =>
      simp only [Keeper.act, Result.bind_eq_ok, Result.pure_eq_ok] at ha
      obtain ⟨_, _, rfl⟩ := ha
      exact h.frame rfl rfl

-- Why a transfer is not refunded: its record does not decode, the module account has not got its
-- amount, or its sender must not receive coins.
def Keeper.Unpayable (k : Keeper) (s : State) (t : BridgeTransfer) : Prop :=
  ∀ amount ∈ t.amount, ∀ senderAddr ∈ k.accAddressFromBech32 t.sender,
    s.bank.balances k.moduleAddr amount.denom < amount.amount ∨
      s.bank.blockedAddrs senderAddr = true

-- What the walk over the transfers does to the state.
structure Later (k : Keeper) (s s' : State) : Prop where
  pending : ∀ id t, s'.bridgeTransfers.get id = some t → t.status = .pending →
    s.bridgeTransfers.get id = some t
  records : ∀ id r, s'.transferMeta.get id = some r → s.transferMeta.get id = some r
  blocked : s'.bank.blockedAddrs = s.bank.blockedAddrs
  balance : ∀ d, s'.bank.balances k.moduleAddr d ≤ s.bank.balances k.moduleAddr d

theorem Later.refl : Later k s s where
  pending _ _ hg _ := hg
  records _ _ hr   := hr
  blocked          := rfl
  balance _        := le_refl _

theorem Later.trans (h : Later k s s') (h' : Later k s' s'') : Later k s s'' where
  pending id t hg hp := h.pending id t (h'.pending id t hg hp) hp
  records id r hr    := h.records id r (h'.records id r hr)
  blocked            := h'.blocked.trans h.blocked
  balance d          := (h'.balance d).trans (h.balance d)

theorem Keeper.Unpayable.later (h : k.Unpayable s t) (hl : Later k s s') : k.Unpayable s' t := by
  intro amount ha addr haddr
  rw [hl.blocked]
  exact (h amount ha addr haddr).imp_left (hl.balance _).trans_lt

-- A transfer is done when it is settled, in time or cannot be paid back.
def Done (k : Keeper) (ctx : Context) (s : State) (id : UInt64) : Prop :=
  ∀ t, s.bridgeTransfers.get id = some t → t.status = .pending →
    Expired ctx s id → k.Unpayable s t

theorem Done.later (h : Done k ctx s id) (hl : Later k s s') : Done k ctx s' id := by
  intro t hg hp hx
  obtain ⟨r, hr, hlt⟩ := hx
  exact (h t (hl.pending id t hg hp) hp ⟨r, hl.records id r hr, hlt⟩).later hl

theorem mem_of_new {c c' : Coin} {coins : Coins} (h : Coins.new [c] = .ok coins) (hc : c' ∈ coins) :
    c' = c := by
  simp only [Coins.new, Result.bind_eq_ok, failIf_eq_ok, Result.pure_eq_ok] at h
  obtain ⟨_, _, rfl⟩ := h
  rw [(List.perm_insertionSort _ _).mem_iff] at hc
  exact List.mem_singleton.mp (List.mem_of_mem_filter hc)

theorem nodup_of_new {cs coins : Coins} (h : Coins.new cs = .ok coins) :
    (coins.map Coin.denom).Nodup := by
  simp only [Coins.new, Result.bind_eq_ok, failIf_eq_ok, Result.pure_eq_ok,
    Bool.not_eq_false] at h
  obtain ⟨_, hv, rfl⟩ := h
  exact Coins.nodup_of_isValid hv

-- The module account can only lack the coins, and the sender can only be kept from taking them.
theorem unpayable_of_error {text : String} (h : k.refundTimedOutTransfer s id = .error (.error text))
    (hg : s.bridgeTransfers.get id = some t) (hp : t.status = .pending) : k.Unpayable s t := by
  intro amount ha addr haddr
  by_contra hn
  rw [not_or, not_lt, Bool.not_eq_true] at hn
  simp only [Keeper.refundTimedOutTransfer, hg, hp, orFail, Option.elim, Result.ok_bind, ne_eq,
    not_true, if_false, Option.mem_def.mp haddr, Option.mem_def.mp ha] at h
  cases hc : Coins.new [amount] with
  | error e =>
    rw [hc] at h
    simp only [Coins.new, failIf] at hc
    split at hc
    case isTrue =>
      cases hc
      cases h
    case isFalse => cases hc
  | ok coins =>
    rw [hc, Result.ok_bind] at h
    refine Result.bind_ne_error (Bank.sendCoinsFromModuleToAccount_ne_error (nodup_of_new hc) ?_ hn.2)
      (fun bank hb => ?_) h
    case _ =>
      intro c hmem
      rw [mem_of_new hc hmem]
      exact hn.1
    case _ => cases hb

-- A refund settles its transfer and only takes coins out of the module account.
theorem later_refunded {amount : Coin} {addr : AccAddress} {coins : Coins} {bank : Bank}
    (hc : Coins.new [amount] = .ok coins)
    (hb : s.bank.sendCoinsFromModuleToAccount k.moduleAddr addr coins = .ok bank)
    (hp : t.status ≠ .pending) : Later k s
      { s with bank := bank, bridgeTransfers := s.bridgeTransfers.set id t } where
  pending id' t' hg hp' := by
    rw [KVStore.get_set] at hg
    split_ifs at hg
    case pos => exact absurd (Option.some.inj hg ▸ hp') hp
    case neg => exact hg
  records _ _ hr := hr
  blocked := (Bank.of_sendCoinsFromModuleToAccount hb).blockedAddrs
  balance d := by
    have hn : 0 ≤ coins.amountOf d :=
      Coins.amountOf_nonneg fun c hmem => ((Coins.of_new hc).2.1 c hmem).le
    simp only [(Bank.of_sendCoinsFromModuleToAccount hb).balances, Pi.sub_apply, Bank.held, if_true]
    split_ifs <;> omega

theorem later_remove (h : Later k s m) :
    Later k s { m with transferMeta := m.transferMeta.remove id } where
  pending := h.pending
  records id' r hr := by
    simp only [KVStore.get_remove] at hr
    split_ifs at hr
    exact h.records id' r hr
  blocked := h.blocked
  balance := h.balance

theorem refund_done (hl : logged s (k.refundTimedOutTransfer s id) = .ok s') :
    Later k s s' ∧ Done k ctx s' id := by
  rcases hr : k.refundTimedOutTransfer s id with ⟨text | text⟩ | ⟨m, e⟩
  case error.error =>
    rw [hr] at hl
    cases hl
    exact ⟨.refl, fun t hg hp _ => unpayable_of_error hr hg hp⟩
  case error.panic =>
    rw [hr] at hl
    cases hl
  case ok =>
    obtain rfl : s' = m := by
      rcases of_logged hl with ⟨_, e, he⟩ | ⟨_, he⟩ <;> simp_all
    clear hl
    simp only [Keeper.refundTimedOutTransfer, Result.bind_eq_ok, orFail_eq_ok] at hr
    obtain ⟨t, hg, hr⟩ := hr
    split at hr
    case isTrue hp =>
      cases hr
      exact ⟨.refl, fun t' hg' hp' => absurd hp' (Option.some.inj (hg.symm.trans hg') ▸ hp)⟩
    simp only [Result.bind_eq_ok, orFail_eq_ok, Result.pure_eq_ok] at hr
    obtain ⟨_, _, _, _, _, hc, bank, hb, hr⟩ := hr
    have hlater : Later k s { s with
        bank := bank
        bridgeTransfers := s.bridgeTransfers.set id { t with status := .timedOut } } :=
      later_refunded hc hb (by simp)
    have hdone : ∀ {m : State}, m.bridgeTransfers =
        s.bridgeTransfers.set id { t with status := .timedOut } → Done k ctx m id := by
      intro m hm t' hg' hp'
      rw [hm, KVStore.get_set_self] at hg'
      cases hg'
      cases hp'
    rcases orKeep_eq hr with rfl | hr
    case inl => exact ⟨hlater, hdone rfl⟩
    simp only [Result.bind_eq_ok, Result.pure_eq_ok] at hr
    obtain ⟨m, hm, rfl⟩ := hr
    obtain ⟨_, _, _, rfl, _, _⟩ := of_moveTransferToCompleted hm
    exact ⟨later_remove { hlater with }, hdone rfl⟩

theorem visit_done (hv : k.visit ctx s entry = .ok m)
    (he : ∀ t, s.bridgeTransfers.get entry.1 = some t → t.status = .pending → t = entry.2) :
    Later k s m ∧ Done k ctx m entry.1 := by
  simp only [Keeper.visit] at hv
  split at hv
  case isTrue => exact refund_done hv
  case isFalse hn =>
    cases hv
    exact ⟨.refl, fun t hg hp hx => absurd ⟨he t hg hp ▸ hp, hx⟩ hn⟩

-- The walk does all entries, and a later entry does not undo an earlier one.
theorem visits_done (hv : entries.foldlM (k.visit ctx) s = .ok s')
    (he : ∀ entry ∈ entries, ∀ t, s.bridgeTransfers.get entry.1 = some t → t.status = .pending →
      t = entry.2) : Later k s s' ∧ ∀ entry ∈ entries, Done k ctx s' entry.1 := by
  induction entries generalizing s with
  | nil =>
    cases hv
    exact ⟨.refl, by simp⟩
  | cons entry entries ih =>
    simp only [List.foldlM_cons, Result.bind_eq_ok] at hv
    obtain ⟨m, hm, hv⟩ := hv
    obtain ⟨hl, hd⟩ := visit_done hm (he entry List.mem_cons_self)
    obtain ⟨hl', hds⟩ := ih hv fun e hmem t hg hp =>
      he e (List.mem_cons_of_mem _ hmem) t (hl.pending _ t hg hp) hp
    refine ⟨hl.trans hl', fun e hmem => ?_⟩
    rcases List.mem_cons.mp hmem with rfl | hmem
    case inl => exact hd.later hl'
    case inr => exact hds e hmem

theorem endBlocker_done (he : k.endBlocker ctx s = .ok s') (id : UInt64) : Done k ctx s' id := by
  simp only [Keeper.endBlocker, Result.bind_eq_ok, Result.pure_eq_ok] at he
  obtain ⟨m, hm, rfl⟩ := he
  obtain ⟨hl, hd⟩ := visits_done hm fun entry hmem t hg _ =>
    Option.some.inj (hg.symm.trans (KVStore.mem_entries_iff.mp hmem))
  have hdone : Done k ctx m id := fun t hg hp =>
    hd (id, t) (KVStore.mem_entries_iff.mpr (hl.pending id t hg hp)) t hg hp
  simp only [Keeper.pruneOldTransfers]
  split <;> exact hdone

-- What a transfer needs for its refund, apart from the coins.
theorem lasting_decoded : Lasting k fun _ t =>
    ∃ amount senderAddr, t.amount = some amount ∧
      k.accAddressFromBech32 t.sender = some senderAddr where
  initiate h := by
    simp only [Keeper.initiateBridgeTransfer, Result.bind_eq_ok, orFail_eq_ok, Result.pure_eq_ok,
      Prod.mk.injEq] at h
    obtain ⟨_, _, _, _, addr, haddr, _, _, _, _, m, hm, rfl, rfl⟩ := h
    exact ⟨_, (of_dispatch hm).1, _, addr, rfl, haddr⟩
  settle _ h := h

-- At the end of every block each transfer that is still pending is within its timeout, unless it
-- cannot be paid back: the module account has less than its amount, or its sender is blocked.
theorem pending_in_time (h : (system k).Reachable s) (he : k.endBlocker ctx s = .ok s')
    (hg : s'.bridgeTransfers.get id = some t) (hp : t.status = .pending) :
    ∃ amount senderAddr r, t.amount = some amount ∧
      k.accAddressFromBech32 t.sender = some senderAddr ∧ s'.transferMeta.get id = some r ∧
      (ctx.blockHeight ≤ r.initHeight + r.timeoutBlocks ∨
        s'.bank.balances k.moduleAddr amount.denom < amount.amount ∨
        s'.bank.blockedAddrs senderAddr = true) := by
  have hs : (system k).Reachable s' :=
    .step (a := .endBlock ctx) h trivial ⟨⟨by simp [Keeper.signer], by simp⟩, he⟩
  obtain ⟨amount, addr, ha, haddr⟩ := (each lasting_decoded).holds hs id t hg
  obtain ⟨r, hr⟩ := Option.isSome_iff_exists.mp (timed.holds hs id t hg hp)
  refine ⟨amount, addr, r, ha, haddr, hr, ?_⟩
  by_cases hx : r.initHeight + r.timeoutBlocks < ctx.blockHeight
  case pos => exact .inr (endBlocker_done he id t hg hp ⟨r, hr, hx⟩ amount ha addr haddr)
  case neg => exact .inl (not_lt.mp hx)

theorem sample_pending_in_time :
    ∃ t amount senderAddr r, Sample.expired.bridgeTransfers.get 2 = some t ∧ t.amount = some amount ∧
      Sample.keeper.accAddressFromBech32 t.sender = some senderAddr ∧
      Sample.expired.transferMeta.get 2 = some r ∧
      ((12 : UInt64) ≤ r.initHeight + r.timeoutBlocks ∨
        Sample.expired.bank.balances Sample.keeper.moduleAddr amount.denom < amount.amount ∨
        Sample.expired.bank.blockedAddrs senderAddr = true) := by
  have hw : (Sample.expired.bridgeTransfers.get 2).any (fun t => t.status = .pending) = true := by
    decide +kernel
  obtain ⟨t, hg, hp⟩ := (Option.any_eq_true _ _).mp hw
  have hs : (system Sample.keeper).Reachable Sample.escrowed :=
    .step (.step (.init Sample.genesis_empty) trivial Sample.sent_step) trivial Sample.escrowed_step
  obtain ⟨amount, addr, r, ht⟩ :=
    pending_in_time hs Sample.expired_step.2 hg (of_decide_eq_true hp)
  exact ⟨t, amount, addr, r, hg, ht⟩

end Crosschain
