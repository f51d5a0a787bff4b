import MallChain.Crosschain.Binding
import MallChain.Crosschain.Settlement

namespace Crosschain

open Sdk

-- The amount that a transfer adds to the balance of its chain.
def BridgeTransfer.value (t : BridgeTransfer) : ℤ :=
  t.amount.elim 0 (·.amount)

def State.chainBalance (s : State) (chain : String) : ℤ :=
  ((s.chainBalances.get chain).getD 0).toNat

-- What really arrived on a chain.
def State.arrived (s : State) (chain : String) : ℤ :=
  s.bridgeTransfers.sum fun _ t =>
    if t.destinationChain = chain ∧ t.status = .completed then t.value else 0

-- The aggregate record agrees with the transfers.
structure State.Bookkept (s : State) : Prop where
  pending  : ∀ t, t ∈ s.pendingTransfers ↔
    ∃ id, s.bridgeTransfers.get id = some t ∧ t.status = .pending
  ids      : ∀ id t, s.bridgeTransfers.get id = some t → t.id = id
  nodup    : ((s.pendingTransfers ++ s.completedTransfers).map (·.id)).Nodup
  balances : ∀ chain, s.chainBalance chain = s.arrived chain

-- The aggregate record before the first transfer.
structure State.Blank (s : State) : Prop where
  pending   : s.pendingTransfers = []
  completed : s.completedTransfers = []
  balances  : s.chainBalances = .empty

def founded (k : Keeper) : TransitionSystem State Action where
  init s := s.Empty k ∧ s.Blank
  step   := (system k).step

-- The balance of the chain can take a transfer.
def Fits (s : State) (id : UInt64) : Prop :=
  ∀ t, s.bridgeTransfers.get id = some t → s.chainBalance t.destinationChain + t.value < 2 ^ 64

-- No pending transfer is paid back, no balance overflows, and a new transfer gets an unused id.
def Keeper.Forward (k : Keeper) (s : State) : Action → Prop
  | .initiate _ _ => s.bridgeTransfers.get (s.bridgeState.getD {}).nextTransferId = none
  | .complete _ msg => Fits s msg.transferId
  | .acknowledge f => ∀ id, f.packet.transferID = some id → Fits s id
  | .timeout f => ¬Refunds k s f.packet
  | .endBlock ctx => ∀ id t, s.bridgeTransfers.get id = some t → t.status = .pending →
    Expired ctx s id → ¬k.Refundable s t
  | _ => True

-- A pending transfer is moved to the completed ones.
structure Moved (id : UInt64) (t : BridgeTransfer) (s s' : State) : Prop where
  get       : s.bridgeTransfers.get id = some t
  pending   : t.status = .pending
  transfers : s'.bridgeTransfers = s.bridgeTransfers.set id { t with status := .completed }
  waiting   : s'.pendingTransfers = s.pendingTransfers.filter (·.id ≠ id)
  finished  : s'.completedTransfers = s.completedTransfers ++ [{ t with status := .completed }]
  balances  : ∃ u : UInt64, (u.toNat : ℤ) = t.value ∧ ∀ chain,
    (s'.chainBalances.get chain).getD 0 =
      (s.chainBalances.get chain).getD 0 + if t.destinationChain = chain then u else 0

-- The bookkeeping of a state with its completed transfers, which keep their ids in use.
structure State.Kept (s : State) : Prop extends s.Bookkept where
  closed : ∀ t ∈ s.completedTransfers, s.bridgeTransfers.get t.id ≠ none

variable {k : Keeper} {ctx : Context} {s s' m : State} {id : UInt64} {t : BridgeTransfer}
variable {f : Flight} {a : Action}

theorem of_uint64 {x : ℤ} {u : UInt64} (h : uint64 x = .ok u) : (u.toNat : ℤ) = x := by
  simp only [uint64, Result.bind_eq_ok, failIf_eq_ok, Result.pure_eq_ok] at h
  obtain ⟨_, hx, rfl⟩ := h
  rw [UInt64.toNat_ofNat', Nat.mod_eq_of_lt (by omega)]
  omega

theorem of_move {s₁ : State}
    (h : moveTransferToCompleted s₁ id { t with status := .completed } = .ok m)
    (hg : s.bridgeTransfers.get id = some t) (hp : t.status = .pending)
    (ht : s₁.bridgeTransfers = s.bridgeTransfers.set id { t with status := .completed })
    (hb : s₁.bridgeState = s.bridgeState) : Moved id t s m := by
  simp only [moveTransferToCompleted, Result.bind_eq_ok, orFail_eq_ok, Result.pure_eq_ok] at h
  obtain ⟨b, hbs, balances, hbal, rfl⟩ := h
  have hbs : s.bridgeState = some b := hb ▸ hbs
  refine {
    get       := hg
    pending   := hp
    transfers := ht
    waiting   := by simp [State.pendingTransfers, hbs]
    finished  := by simp [State.completedTransfers, hbs]
    balances  := ?_
  }
  cases ha : t.amount with
  | none =>
    simp only [ha, Option.elim, Except.ok.injEq] at hbal
    exact ⟨0, by simp [BridgeTransfer.value, ha], fun chain => by
      simp [State.chainBalances, hbs, hbal]⟩
  | some amount =>
    simp only [ha, Option.elim, Result.bind_eq_ok, Result.pure_eq_ok] at hbal
    obtain ⟨u, hu, rfl⟩ := hbal
    refine ⟨u, by simp [BridgeTransfer.value, ha, of_uint64 hu], fun chain => ?_⟩
    simp only [State.chainBalances, hbs, Option.getD_some, KVStore.get_set, eq_comm (a := chain)]
    split_ifs with hc
    · simp [hc]
    · simp

-- Moving a transfer keeps the books.

theorem State.Kept.mem_of_get (h : s.Kept) (hg : s.bridgeTransfers.get id = some t)
    (hp : t.status = .pending) : t ∈ s.pendingTransfers :=
  (h.pending t).mpr ⟨id, hg, hp⟩

theorem Moved.ids_perm (h : Moved id t s s') (hk : s.Kept) :
    ((s'.pendingTransfers ++ s'.completedTransfers).map (·.id)).Perm
      ((s.pendingTransfers ++ s.completedTransfers).map (·.id)) := by
  have hid : t.id = id := hk.ids id t h.get
  have hmem := hk.mem_of_get h.get h.pending
  have hnd := hk.nodup
  rw [List.map_append] at hnd
  replace hnd := hnd.of_append_left
  have hf : (s.pendingTransfers.filter (·.id ≠ id)).map (·.id) =
      (s.pendingTransfers.map (·.id)).erase id := by
    rw [hnd.erase_eq_filter, List.filter_map]
    congr 1
    exact List.filter_congr fun x _ => by by_cases hx : x.id = id <;> simp [hx]
  have hin : id ∈ s.pendingTransfers.map (·.id) := hid ▸ List.mem_map_of_mem hmem
  rw [h.waiting, h.finished, List.map_append, List.map_append, List.map_append, hf]
  have hp := (List.perm_cons_erase hin).symm
  refine List.Perm.trans ?_ (hp.append_right _)
  rw [List.map_singleton, hid, List.cons_append]
  exact (List.perm_append_comm_assoc ..).trans List.perm_append_comm |>.trans (by simp)

theorem Moved.arrived (h : Moved id t s s') (chain : String) :
    s'.arrived chain = s.arrived chain + if t.destinationChain = chain then t.value else 0 := by
  simp only [State.arrived, h.transfers, KVStore.sum_set_old h.get, h.pending, reduceCtorEq,
    and_false, and_true, if_false, sub_zero, BridgeTransfer.value]

theorem Moved.chainBalance (h : Moved id t s s') (hf : Fits s id) (chain : String) :
    s'.chainBalance chain =
      s.chainBalance chain + if t.destinationChain = chain then t.value else 0 := by
  obtain ⟨u, hu, hb⟩ := h.balances
  rw [State.chainBalance, hb]
  by_cases hc : t.destinationChain = chain
  case pos =>
    have hfit := hf t h.get
    rw [hc, ← hu, State.chainBalance] at hfit
    rw [if_pos hc, if_pos hc, UInt64.toNat_add, Nat.mod_eq_of_lt (by omega), ← hu,
      State.chainBalance]
    exact Nat.cast_add ..
  case neg => simp [hc, State.chainBalance]

theorem Moved.kept (h : Moved id t s s') (hf : Fits s id) (hk : s.Kept) : s'.Kept where
  pending x := by
    rw [h.waiting, List.mem_filter, hk.pending, h.transfers]
    constructor
    · rintro ⟨⟨id', hg, hp⟩, hne⟩
      have hne : id' ≠ id := by
        rintro rfl
        simp [hk.ids _ _ hg] at hne
      exact ⟨id', by rw [KVStore.get_set_ne hne, hg], hp⟩
    · rintro ⟨id', hg, hp⟩
      rw [KVStore.get_set] at hg
      split_ifs at hg with heq
      · cases hg
        simp at hp
      · exact ⟨⟨id', hg, hp⟩, by simpa [hk.ids _ _ hg] using heq⟩
  ids id' x hg := by
    rw [h.transfers, KVStore.get_set] at hg
    split_ifs at hg with heq
    · cases hg
      exact heq ▸ hk.ids id t h.get
    · exact hk.ids id' x hg
  nodup := (h.ids_perm hk).nodup_iff.mpr hk.nodup
  balances chain := by rw [h.chainBalance hf, h.arrived, hk.balances]
  closed x hx := by
    have hkeep : ∀ id', s.bridgeTransfers.get id' ≠ none → s'.bridgeTransfers.get id' ≠ none := by
      intro id' hg
      rw [h.transfers, KVStore.get_set]
      split_ifs <;> simp [hg]
    rw [h.finished, List.mem_append, List.mem_singleton] at hx
    rcases hx with hx | rfl
    · exact hkeep _ (hk.closed x hx)
    · exact hkeep _ (by simp [hk.ids id t h.get, h.get])

-- What does not touch the bridge keeps the books as well, and so does dropping completed transfers.
theorem State.Kept.congr (h : s.Kept) (ht : s'.bridgeTransfers = s.bridgeTransfers)
    (hp : s'.pendingTransfers = s.pendingTransfers)
    (hc : s'.completedTransfers.Sublist s.completedTransfers)
    (hb : s'.chainBalances = s.chainBalances) : s'.Kept where
  pending x      := by rw [hp, h.pending, ht]
  ids            := ht ▸ h.ids
  nodup          := by
    rw [hp]
    exact h.nodup.sublist ((List.Sublist.append_left hc _).map _)
  balances chain := by
    rw [State.chainBalance, hb, State.arrived, ht]
    exact h.balances chain
  closed x hx    := ht ▸ h.closed x (hc.subset hx)

-- A change of the bank or of the packets only.
theorem State.Kept.frame (h : s.Kept) (ht : s'.bridgeTransfers = s.bridgeTransfers)
    (hb : s'.bridgeState = s.bridgeState) : s'.Kept :=
  h.congr ht (by simp only [State.pendingTransfers, hb])
    (by simp only [State.completedTransfers, hb, List.Sublist.refl])
    (by simp only [State.chainBalances, hb])

theorem State.Kept.bridgeState (h : s.Kept) (hg : s.bridgeTransfers.get id = some t)
    (hp : t.status = .pending) : ∃ b, s.bridgeState = some b := by
  have hm := h.mem_of_get hg hp
  cases hb : s.bridgeState with
  | none => simp [State.pendingTransfers, hb] at hm
  | some b => exact ⟨b, rfl⟩

-- The effects of the actions on the books.

theorem of_orKeep_move {s₁ : State} {b : BridgeState}
    (h : logged s (.ok (orKeep s₁ (moveTransferToCompleted s₁ id t))) = .ok m)
    (hb : s₁.bridgeState = some b) :
    moveTransferToCompleted s₁ id t = .ok m := by
  cases hm : moveTransferToCompleted s₁ id t with
  | ok m' =>
    rw [hm] at h
    cases h
    rfl
  | error e =>
    have he : ∃ text, e = .panic text := by
      simp only [moveTransferToCompleted, hb, orFail, Option.elim_some, Result.ok_bind] at hm
      cases ha : t.amount with
      | none => simp [ha, Result.ok_bind, pure, Except.pure] at hm
      | some amount =>
        simp only [ha, Option.elim_some, uint64, failIf] at hm
        split_ifs at hm
        · cases hm
          exact ⟨_, rfl⟩
        · cases hm
    obtain ⟨text, rfl⟩ := he
    rw [hm] at h
    cases h

theorem ack_moved {packet : Packet} (hk : s.Kept)
    (h : logged s (Keeper.handleOutboundIBCAck s packet (some .result)) = .ok m) :
    m = s ∨ ∃ id t, packet.transferID = some id ∧ Moved id t s m := by
  rw [logged_handleOutboundIBCAck, if_pos rfl] at h
  cases hid : packet.transferID with
  | none =>
    cases hid ▸ h
    exact .inl rfl
  | some id =>
    simp only [hid, Option.elim] at h
    cases hg : s.bridgeTransfers.get id with
    | none =>
      simp only [Keeper.completeAcknowledgedTransfer, hg, orFail, Option.elim] at h
      cases h
      exact .inl rfl
    | some t =>
      simp only [Keeper.completeAcknowledgedTransfer, hg, orFail, Option.elim, Result.ok_bind] at h
      split at h
      case isTrue =>
        cases h
        exact .inl rfl
      case isFalse hp =>
        rw [not_not] at hp
        obtain ⟨b, hb⟩ := hk.bridgeState hg hp
        exact .inr ⟨id, t, rfl, of_move (of_orKeep_move h hb) hg hp rfl rfl⟩

theorem complete_moved {msg : MsgCompleteBridgeTransfer}
    (h : k.completeBridgeTransfer ctx s msg = .ok s') :
    ∃ t m, Moved msg.transferId t s m ∧ s'.bridgeTransfers = m.bridgeTransfers ∧
      s'.bridgeState = m.bridgeState := by
  simp only [Keeper.completeBridgeTransfer, Result.bind_eq_ok, orFail_eq_ok, failIf_eq_ok,
    Result.pure_eq_ok, not_not] at h
  obtain ⟨t, hg, _, hp, _, _, _, _, _, _, _, _, _, _, _, _, _, _, _, _, m, hm, rfl⟩ := h
  exact ⟨t, m, of_move hm hg hp rfl rfl, rfl, rfl⟩

theorem dispatch_bridgeState (h : k.dispatch ctx s t id = .ok s') :
    s'.bridgeState = s.bridgeState := by
  simp only [Keeper.dispatch] at h
  split at h
  · split at h
    case h_1 _ _ _ _ hs =>
      cases h
      simp only [Keeper.sendOutboundIBCTransfer, Ibc.transfer, Result.bind_eq_ok,
        Result.pure_eq_ok] at hs
      obtain ⟨_, _, _, _, _, _, _, ⟨_, _, _, _, rfl⟩, rfl⟩ := hs
      rfl
    all_goals cases h
  · cases h
    rfl

theorem initiate_kept {msg : MsgInitiateBridgeTransfer} (hk : s.Kept)
    (hn : s.bridgeTransfers.get (s.bridgeState.getD {}).nextTransferId = none)
    (h : k.initiateBridgeTransfer ctx s msg = .ok (s', id)) : s'.Kept := by
  simp only [Keeper.initiateBridgeTransfer, Result.bind_eq_ok, orFail_eq_ok, Result.pure_eq_ok,
    Prod.mk.injEq] at h
  obtain ⟨_, _, _, _, _, _, _, _, bank, _, m, hm, rfl, _⟩ := h
  have ht := (of_dispatch hm).1
  have hb := dispatch_bridgeState hm
  dsimp only at ht hb
  generalize hid : (s.bridgeState.getD {}).nextTransferId = next at hn ht hb
  generalize hnew : BridgeTransfer.mk next _ _ _ _ _ _ _ _ = t at ht hb
  have htid : t.id = next := by rw [← hnew]
  have htp : t.status = .pending := by rw [← hnew]
  have hpend : m.pendingTransfers = s.pendingTransfers ++ [t] := by
    simp [State.pendingTransfers, hb]
  have hcomp : m.completedTransfers = s.completedTransfers := by
    simp [State.completedTransfers, hb]
  have hfresh : ∀ x ∈ s.pendingTransfers ++ s.completedTransfers, x.id ≠ next := by
    intro x hx he
    rcases List.mem_append.mp hx with hx | hx
    · obtain ⟨id', hg, _⟩ := (hk.pending x).mp hx
      rw [← hk.ids id' x hg, he, hn] at hg
      cases hg
    · exact hk.closed x hx (he ▸ hn)
  refine { pending := fun x => ?_, ids := fun id' x hg => ?_, nodup := ?_,
           balances := fun chain => ?_, closed := fun x hx => ?_ }
  · rw [hpend, List.mem_append, List.mem_singleton, hk.pending, ht]
    constructor
    · rintro (⟨id', hg, hp⟩ | rfl)
      · have hne : id' ≠ next := fun he => by simp [he, hn] at hg
        exact ⟨id', by rw [KVStore.get_set_ne hne, hg], hp⟩
      · exact ⟨next, KVStore.get_set_self, htp⟩
    · rintro ⟨id', hg, hp⟩
      rw [KVStore.get_set] at hg
      split_ifs at hg with heq
      · exact .inr (Option.some.inj hg).symm
      · exact .inl ⟨id', hg, hp⟩
  · rw [ht, KVStore.get_set] at hg
    split_ifs at hg with heq
    · rw [heq, ← Option.some.inj hg, htid]
    · exact hk.ids id' x hg
  · have hp : (m.pendingTransfers ++ m.completedTransfers).Perm
        (t :: (s.pendingTransfers ++ s.completedTransfers)) := by
      rw [hpend, hcomp, List.append_assoc, List.singleton_append]
      exact List.perm_middle
    rw [(hp.map _).nodup_iff, List.map_cons, List.nodup_cons, htid]
    refine ⟨fun hmem => ?_, hk.nodup⟩
    obtain ⟨x, hx, he⟩ := List.mem_map.mp hmem
    exact hfresh x hx he
  · have hc : m.chainBalances = s.chainBalances := by simp [State.chainBalances, hb]
    rw [State.chainBalance, hc, State.arrived, ht, KVStore.sum_set_new hn, htp]
    simp only [reduceCtorEq, and_false, if_false, add_zero]
    exact hk.balances chain
  · rw [hcomp] at hx
    rw [ht, KVStore.get_set_ne (hfresh x (List.mem_append_right _ hx))]
    exact hk.closed x hx

theorem prune_kept (hk : s.Kept) (n : ℕ) : (Keeper.pruneOldTransfers s n).Kept := by
  simp only [Keeper.pruneOldTransfers]
  split
  · exact hk
  · exact hk.congr rfl rfl (List.drop_sublist ..) rfl

-- A block in which no expired transfer can be paid back.
theorem visits_eq : {entries : List (UInt64 × BridgeTransfer)} →
    entries.foldlM (k.visit ctx) s = .ok s' →
    (∀ id t, s.bridgeTransfers.get id = some t → t.status = .pending → Expired ctx s id →
      ¬k.Refundable s t) → s' = s
  | [], h, _ => by
    cases h
    rfl
  | entry :: entries, h, hn => by
    simp only [List.foldlM_cons, Result.bind_eq_ok] at h
    obtain ⟨m, hm, h⟩ := h
    have heq : m = s := by
      simp only [Keeper.visit] at hm
      split at hm
      case isTrue hc =>
        rcases of_refundTimedOutTransfer hm with ⟨rfl, _⟩ | ⟨t, hr, hs⟩
        · rfl
        · exact absurd hr (hn _ t hs.get hs.pending hc.2)
      case isFalse =>
        cases hm
        rfl
    exact visits_eq (heq ▸ h) hn

theorem acknowledge_kept (hk : s.Kept) (hf : ∀ id, f.packet.transferID = some id → Fits s id)
    (h : Keeper.acknowledge s f = .ok s') : s'.Kept := by
  simp only [Keeper.acknowledge, IBCModule.onAcknowledgementPacket, Result.bind_eq_ok, failIf_eq_ok,
    orFail_eq_ok] at h
  obtain ⟨_, _, a, _, m, hm, h⟩ := h
  cases a with
  | result =>
    cases h
    rcases ack_moved hk hm with rfl | ⟨id, t, hid, hmv⟩
    · exact hk.frame rfl rfl
    · exact (hmv.kept (hf id hid) hk).frame rfl rfl
  | error =>
    simp only [Ibc.onAcknowledgementPacket, Ibc.refund, Result.bind_eq_ok, Result.pure_eq_ok] at h
    obtain ⟨_, _, rfl⟩ := h
    simp only [logged_handleOutboundIBCAck, Option.some.injEq, reduceCtorEq, if_false,
      Except.ok.injEq] at hm
    exact (hm ▸ hk).frame rfl rfl

theorem timeout_kept (hk : s.Kept) (hf : ¬Refunds k s f.packet) (h : k.timeout s f = .ok s') :
    s'.Kept := by
  simp only [Keeper.timeout, IBCModule.onTimeoutPacket, Ibc.onTimeoutPacket, Ibc.refund,
    Result.bind_eq_ok, Result.pure_eq_ok] at h
  obtain ⟨_, _, m, hm, _, _, rfl⟩ := h
  cases of_timedOut hm with
  | inert _ => exact hk.frame rfl rfl
  | settled hid hr hs => exact absurd ⟨_, _, hid, hs.get, hs.pending, hr⟩ hf

theorem act_kept (hk : s.Kept) (hf : k.Forward s a) (h : k.act s a = .ok s') : s'.Kept := by
  cases a with
  | initiate ctx msg =>
    simp only [Keeper.act, Result.bind_eq_ok, Result.pure_eq_ok, Prod.exists] at h
    obtain ⟨m, id, h, rfl⟩ := h
    exact initiate_kept hk hf h
  | complete ctx msg =>
    obtain ⟨t, m, hm, ht, hb⟩ := complete_moved h
    exact (hm.kept hf hk).frame ht hb
  | updateParams authority params =>
    simp only [Keeper.act, Keeper.updateParams, Result.bind_eq_ok, Result.pure_eq_ok] at h
    obtain ⟨_, _, rfl⟩ := h
    exact hk.frame rfl rfl
  | setChainRoute chain route =>
    cases h
    exact hk.frame rfl rfl
  | endBlock ctx =>
    simp only [Keeper.act, Keeper.endBlocker, Result.bind_eq_ok, Result.pure_eq_ok] at h
    obtain ⟨m, hm, rfl⟩ := h
    rw [visits_eq hm hf]
    exact prune_kept hk _
  | transfer ctx port channel token payer sender receiver timeout memo =>
    simp only [Keeper.act, Ibc.transfer, Result.bind_eq_ok, Result.pure_eq_ok] at h
    obtain ⟨_, ⟨_, _, _, _, rfl⟩, rfl⟩ := h
    exact hk.frame rfl rfl
  | receive f acknowledgement =>
    simp only [Keeper.act, Keeper.receive, Result.bind_eq_ok, Result.pure_eq_ok] at h
    obtain ⟨_, _, rfl⟩ := h
    exact hk.frame rfl rfl
  | acknowledge f => exact acknowledge_kept hk hf h
  | timeout f => exact timeout_kept hk hf h
  | send fromAddr toAddr amt =>
    simp only [Keeper.act, Result.bind_eq_ok, Result.pure_eq_ok] at h
    obtain ⟨_, _, rfl⟩ := h
    exact hk.frame rfl rfl

theorem kept (k : Keeper) : (founded k).Invariant k.Forward State.Kept where
  init h := {
    pending x      := by simp [h.2.pending, h.1.transfers]
    ids            := by simp [h.1.transfers]
    nodup          := by simp [h.2.pending, h.2.completed]
    balances chain := by simp [State.chainBalance, h.2.balances, State.arrived, h.1.transfers]
    closed         := by simp [h.2.completed]
  }
  step hk hf hs := act_kept hk hf hs.2

-- The lists, the statuses and the balances of the chains agree, as long as no pending transfer is paid
-- back, no balance overflows and no id is used again.
theorem bookkept (k : Keeper) {s : State} (h : (founded k).Run k.Forward s) : s.Bookkept :=
  ((kept k).holds h).toBookkept

namespace Sample

theorem genesis_blank : genesis.Blank where
  pending   := rfl
  completed := rfl
  balances  := rfl

-- The packet of transfer 1 is acknowledged.
def delivered : State := keeper.next sent deliver
def acknowledge : Action := .acknowledge { flight with received := some .result }
def acknowledged : State := keeper.next delivered acknowledge

theorem acknowledged_run : (founded keeper).Run keeper.Forward acknowledged := by
  have hfresh : keeper.Forward genesis routed :=
    (by decide +kernel :
      genesis.bridgeTransfers.get (genesis.bridgeState.getD {}).nextTransferId = none)
  have hsent : (founded keeper).Run keeper.Forward sent :=
    .step (.init ⟨genesis_empty, genesis_blank⟩) hfresh sent_step
  have hdelivered : (founded keeper).Run keeper.Forward delivered :=
    .step (a := deliver) hsent trivial (deliver_step (by decide +kernel))
  refine .step (a := acknowledge) hdelivered (fun id hid t hg => ?_)
    ⟨⟨by decide, by simp [acknowledge]⟩, Keeper.act_next (by decide +kernel)⟩
  have hid₁ : flight.packet.transferID = some 1 := by decide +kernel
  cases hid₁.symm.trans hid
  have hfit : ∀ t ∈ delivered.bridgeTransfers.get 1,
      delivered.chainBalance t.destinationChain + t.value < 2 ^ 64 := by decide +kernel
  exact hfit t hg

-- A transfer without a route that expires.
def pledged : State := keeper.next genesis routeless
def returned : State := keeper.next pledged (.endBlock (block 16))

end Sample

theorem sample_bookkept :
    Sample.acknowledged.chainBalance "osmosis" = 100 ∧ Sample.acknowledged.Bookkept :=
  ⟨by decide +kernel, bookkept Sample.keeper Sample.acknowledged_run⟩

-- The coins that went back to their sender count for the chain that they never reached.
theorem refund_not_bookkept :
    ¬∀ s, (founded Sample.keeper).Reachable s → s.Bookkept := by
  intro h
  have hpledged : (founded Sample.keeper).Reachable Sample.pledged :=
    .step (a := Sample.routeless) (.init ⟨Sample.genesis_empty, Sample.genesis_blank⟩) trivial
      ⟨⟨by decide, by simp [Sample.routeless]⟩, Keeper.act_next (by decide +kernel)⟩
  have hrun : (founded Sample.keeper).Reachable Sample.returned :=
    .step (a := .endBlock (Sample.block 16)) hpledged trivial
      ⟨⟨by decide, by simp⟩, Keeper.act_next (by decide +kernel)⟩
  have hb := (h _ hrun).balances "fantom"
  revert hb
  decide +kernel

end Crosschain
