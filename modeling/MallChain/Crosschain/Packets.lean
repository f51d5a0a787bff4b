import MallChain.Crosschain.Effects

namespace Crosschain

open Sdk

-- The payouts that do not wait for the packet of a transfer: the end of a block, a proof, and the
-- timeout of a packet that somebody else sent. They are orderly when they only pay transfers that
-- are clear. A new transfer needs an unused id.
def Keeper.Orderly (k : Keeper) (clear : State → UInt64 → Prop) (s : State) : Action → Prop
  | .initiate _ _ => s.bridgeTransfers.get (s.bridgeState.getD {}).nextTransferId = none
  | .complete _ msg => clear s msg.transferId
  | .endBlock ctx => ∀ id, (∃ t, s.bridgeTransfers.get id = some t ∧ t.status = .pending ∧
      Expired ctx s id) → clear s id
  | .timeout f => f.sender ≠ k.moduleAddr → ∀ id, f.packet.transferID = some id → clear s id
  | _ => True

-- The own packets in flight belong to different transfers and carry the coins of these.
structure Tracked (k : Keeper) (s : State) : Prop where
  nonneg : ∀ id t, s.bridgeTransfers.get id = some t → ∀ d, 0 ≤ t.worth d
  nodup  : ((k.own s).map (·.packet.transferID)).Nodup
  known  : ∀ f ∈ k.own s, ∃ id t, f.packet.transferID = some id ∧
    s.bridgeTransfers.get id = some t ∧ ∀ d, Coins.amountOf [f.coin] d = t.worth d

variable {k : Keeper} {s s' m : State} {id : UInt64} {t : BridgeTransfer} {f : Flight}
variable {status : Status} {cost : String → ℤ} {coins : Coins} {clear : State → UInt64 → Prop}
variable {expired : UInt64 → Prop} {a : Acknowledgement}

theorem out_of_mem (hf : f ∈ k.own s) (hid : f.packet.transferID = some id) : k.Out s id :=
  Multiset.mem_map.mpr ⟨f, hf, hid⟩

theorem out_iff : k.Out s id ↔ ∃ f ∈ k.own s, f.packet.transferID = some id :=
  Multiset.mem_map

theorem own_eq_of_flights (h : s'.ibc.flights = s.ibc.flights) : k.own s' = k.own s := by
  rw [Keeper.own, Keeper.own, h]

theorem Landed.own_pos (h : Landed f coins s s') (hf : f.sender = k.moduleAddr) :
    k.own s = f ::ₘ k.own s' := by
  rw [h.own, if_pos hf, Multiset.singleton_add]

theorem Landed.own_neg (h : Landed f coins s s') (hf : f.sender ≠ k.moduleAddr) :
    k.own s' = k.own s := by
  rw [h.own, if_neg hf, zero_add]

theorem Landed.own_le (h : Landed f coins s s') : k.own s' ≤ k.own s := by
  rw [h.own]
  exact Multiset.le_add_left ..

-- The transfers before and after a change of statuses.

theorem Settled.get_of_get (h : Settled k id t status cost s s') {id' : UInt64}
    {t' : BridgeTransfer} (hg : s.bridgeTransfers.get id' = some t') :
    ∃ t₁, s'.bridgeTransfers.get id' = some t₁ ∧ t₁.worth = t'.worth := by
  by_cases heq : id' = id
  case pos =>
    subst heq
    cases h.get.symm.trans hg
    exact ⟨{ t with status }, by rw [h.transfers, KVStore.get_set_self], rfl⟩
  case neg => exact ⟨t', by rw [h.transfers, KVStore.get_set_ne heq, hg], rfl⟩

theorem Settled.of_get (h : Settled k id t status cost s s') {id' : UInt64} {t' : BridgeTransfer}
    (hg : s'.bridgeTransfers.get id' = some t') :
    (id' = id ∧ t' = { t with status }) ∨ (id' ≠ id ∧ s.bridgeTransfers.get id' = some t') := by
  rw [h.transfers, KVStore.get_set] at hg
  split_ifs at hg with heq
  · exact .inl ⟨heq, (Option.some.inj hg).symm⟩
  · exact .inr ⟨heq, hg⟩

theorem Settled.own (h : Settled k id t status cost s s') : k.own s' = k.own s :=
  own_eq_of_flights h.flights

-- The own packets stay tracked.

theorem Tracked.of_le (h : Tracked k s) (ht : s'.bridgeTransfers = s.bridgeTransfers)
    (hle : k.own s' ≤ k.own s) : Tracked k s' where
  nonneg     := ht ▸ h.nonneg
  nodup      := Multiset.nodup_of_le (Multiset.map_le_map hle) h.nodup
  known f hf := ht ▸ h.known f (Multiset.mem_of_le hle hf)

theorem Tracked.framed (h : Tracked k s) (hf : Framed k s s') : Tracked k s' :=
  h.of_le hf.transfers hf.own.le

theorem Tracked.landed (h : Tracked k s) (hl : Landed f coins s s') : Tracked k s' :=
  h.of_le hl.transfers hl.own_le

theorem Tracked.settled (h : Tracked k s) (hs : Settled k id t status cost s s') :
    Tracked k s' where
  nonneg id' t' hg := by
    rcases hs.of_get hg with ⟨rfl, rfl⟩ | ⟨_, hg⟩
    · exact h.nonneg _ t hs.get
    · exact h.nonneg _ _ hg
  nodup := hs.own ▸ h.nodup
  known f hf := by
    obtain ⟨id', t', hid, hg, hc⟩ := h.known f (hs.own ▸ hf)
    obtain ⟨t₁, hg₁, hw⟩ := hs.get_of_get hg
    exact ⟨id', t₁, hid, hg₁, hw ▸ hc⟩

theorem Tracked.not_out (h : Tracked k s) (hg : s.bridgeTransfers.get id = none) : ¬k.Out s id := by
  intro ho
  obtain ⟨f, hf, hid⟩ := out_iff.mp ho
  obtain ⟨id', t, hid', hg', _⟩ := h.known f hf
  cases hid.symm.trans hid'
  simp [hg] at hg'

theorem Tracked.opened (h : Tracked k s) (ho : Opened k id t s s')
    (hg : s.bridgeTransfers.get id = none) : Tracked k s' := by
  have hget : ∀ {id' t'}, s.bridgeTransfers.get id' = some t' →
      s'.bridgeTransfers.get id' = some t' := by
    intro id' t' hg'
    have hne : id' ≠ id := fun he => by simp [he, hg] at hg'
    rw [ho.transfers, KVStore.get_set_ne hne, hg']
  have hself : s'.bridgeTransfers.get id = some t := by
    rw [ho.transfers, KVStore.get_set_self]
  have hnonneg : ∀ id' t', s'.bridgeTransfers.get id' = some t' → ∀ d, 0 ≤ t'.worth d := by
    intro id' t' hg'
    rw [ho.transfers, KVStore.get_set] at hg'
    split_ifs at hg'
    · exact Option.some.inj hg' ▸ ho.nonneg
    · exact h.nonneg id' t' hg'
  have hknown : ∀ f ∈ k.own s, ∃ id t, f.packet.transferID = some id ∧
      s'.bridgeTransfers.get id = some t ∧ ∀ d, Coins.amountOf [f.coin] d = t.worth d := by
    intro f hf
    obtain ⟨id', t', hid, hg', hc⟩ := h.known f hf
    exact ⟨id', t', hid, hget hg', hc⟩
  rcases ho.funds with ⟨hown, _⟩ | ⟨f, hown, hid, _, hc, _⟩
  · exact { nonneg := hnonneg, nodup := hown ▸ h.nodup, known := hown ▸ hknown }
  · refine { nonneg := hnonneg, nodup := ?_, known := ?_ }
    · rw [hown, Multiset.map_cons, Multiset.nodup_cons, hid]
      exact ⟨h.not_out hg, h.nodup⟩
    · intro f' hf'
      rw [hown, Multiset.mem_cons] at hf'
      rcases hf' with rfl | hf'
      · exact ⟨id, t, hid, hself, hc⟩
      · exact hknown f' hf'

theorem Answered.own_map (h : Answered f a s s') :
    (k.own s').map (·.packet.transferID) = (k.own s).map (·.packet.transferID) := by
  obtain ⟨rest, hs, hs'⟩ := h.own (k := k)
  rw [hs, hs', Multiset.map_add, Multiset.map_add]
  split_ifs <;> simp

theorem Tracked.answered (h : Tracked k s) (ha : Answered f a s s') : Tracked k s' where
  nonneg := ha.transfers ▸ h.nonneg
  nodup  := ha.own_map (k := k) ▸ h.nodup
  known g hg := by
    obtain ⟨rest, hs, hs'⟩ := ha.own (k := k)
    rw [hs', Multiset.mem_add] at hg
    rw [ha.transfers]
    rcases hg with hg | hg
    · split_ifs at hg with hf
      · cases Multiset.mem_singleton.mp hg
        exact h.known f (by simp [hs, hf])
      · simp at hg
    · exact h.known g (by simp [hs, hg])

theorem Tracked.expiries (h : Tracked k s) (he : Expiries k expired s s') : Tracked k s' := by
  induction he with
  | refl => exact h
  | step hs _ _ ih => exact ih (h.settled hs)

theorem Tracked.effect {a : Action} (h : Tracked k s) (ho : k.Orderly clear s a)
    (he : Effect k s s' a) : Tracked k s' := by
  cases he with
  | framed _ hf => exact h.framed hf
  | opened hop => exact h.opened hop ho
  | completed hs => exact h.settled hs
  | ended hx hf => exact (h.expiries hx).framed hf
  | received ha => exact h.answered ha
  | accepted _ hook hl =>
    cases hook with
    | inert _ => exact h.landed hl
    | settled _ hs => exact (h.settled hs).landed hl
  | rejected _ hl => exact h.landed hl
  | timedOut _ hook hl =>
    cases hook with
    | inert _ => exact h.landed hl
    | settled _ _ hs => exact (h.settled hs).landed hl

theorem tracked (clear : State → UInt64 → Prop) :
    (system k).Invariant (k.Orderly clear) (Tracked k) where
  init h := {
    nonneg := by simp [h.transfers]
    nodup  := by simp [Keeper.own, h.flights]
    known  := by simp [Keeper.own, h.flights]
  }
  step h ho hs := h.effect ho (of_act hs.2 hs.1)

namespace Sample

theorem routed_orderly : keeper.Orderly clear genesis routed :=
  (by decide +kernel : genesis.bridgeTransfers.get (genesis.bridgeState.getD {}).nextTransferId = none)

theorem routeless_orderly : keeper.Orderly clear sent routeless :=
  (by decide +kernel : sent.bridgeTransfers.get (sent.bridgeState.getD {}).nextTransferId = none)

end Sample

end Crosschain
