import MallChain.Crosschain.Effects

namespace Crosschain

open Sdk

variable {k : Keeper} {s s' : State} {p : Packet} {id : UInt64} {t : BridgeTransfer}
variable {status : Status} {cost : String → ℤ}

-- The packet has the port, the channel and the sequence that were recorded when a transfer was sent.
def SentAs (s : State) (id : UInt64) (p : Packet) : Prop :=
  ∃ m ∈ s.transferMeta.get id, p.sourcePort = m.portID ∧ p.sourceChannel = m.channelID ∧
    p.sequence = m.ibcSequence

instance : Decidable (SentAs s id p) :=
  inferInstanceAs (Decidable (∃ m ∈ s.transferMeta.get id, _))

-- Only the status, the list entries and the balances of transfers that were sent as the packet change.
structure Bound (p : Packet) (s s' : State) : Prop where
  transfer  : ∀ id, ¬SentAs s id p → s'.bridgeTransfers.get id = s.bridgeTransfers.get id
  pending   : ∀ id, ¬SentAs s id p →
    s'.pendingTransfers.filter (·.id = id) = s.pendingTransfers.filter (·.id = id)
  completed : ∃ l, s'.completedTransfers = s.completedTransfers ++ l ∧
    ∀ t ∈ l, ∃ id, SentAs s id p ∧ s'.bridgeTransfers.get id = some t
  balances  : (∀ id, ¬SentAs s id p) → s'.bank = s.bank ∧ s'.chainBalances = s.chainBalances

-- The transfer that the packet names is pending, so an acknowledgement completes it.
def Completes (s : State) (p : Packet) (acknowledgement : Option Acknowledgement) : Prop :=
  acknowledgement = some .result ∧ ∃ id t, p.transferID = some id ∧
    s.bridgeTransfers.get id = some t ∧ t.status = .pending

-- It is pending and can be paid back, so a timeout refunds it.
def Refunds (k : Keeper) (s : State) (p : Packet) : Prop :=
  ∃ id t, p.transferID = some id ∧ s.bridgeTransfers.get id = some t ∧ t.status = .pending ∧
    k.Refundable s t

def NamesItsTransfer (s : State) (p : Packet) : Prop :=
  ∀ id, p.transferID = some id → SentAs s id p

theorem Bound.refl : Bound p s s where
  transfer _ _ := rfl
  pending _ _  := rfl
  completed    := ⟨[], by simp⟩
  balances _   := ⟨rfl, rfl⟩

theorem Settled.bound (h : Settled k id t status cost s s') (hs : SentAs s id p) :
    Bound p s s' where
  transfer id' hn := by
    have hne : id' ≠ id := fun he => hn (he ▸ hs)
    rw [h.transfers, KVStore.get_set_ne hne]
  pending id' hn := h.waiting id' fun he => hn (he ▸ hs)
  completed := by
    rcases h.finished with hf | hf
    · exact ⟨[], by simp [hf]⟩
    · refine ⟨_, hf, fun t' ht => ⟨id, hs, ?_⟩⟩
      rw [h.transfers, KVStore.get_set_self, List.mem_singleton.mp ht]
  balances hn := absurd hs (hn id)

-- A settled transfer has changed.
theorem Settled.sentAs (h : Settled k id t status cost s s') (hst : status ≠ .pending)
    (hb : Bound p s s') : SentAs s id p := by
  by_contra hn
  have hg := hb.transfer id hn
  rw [h.transfers, KVStore.get_set_self, h.get, Option.some.injEq] at hg
  exact hst ((congrArg BridgeTransfer.status hg).trans h.pending)

theorem Settled.bound_iff (h : Settled k id t status cost s s') (hst : status ≠ .pending)
    (hid : p.transferID = some id) : Bound p s s' ↔ NamesItsTransfer s p := by
  refine ⟨fun hb id' hid' => ?_, fun hn => h.bound (hn id hid)⟩
  cases hid.symm.trans hid'
  exact h.sentAs hst hb

theorem Acknowledged.bound_iff (h : Acknowledged k p s s') :
    Bound p s s' ↔ (Completes s p (some .result) → NamesItsTransfer s p) := by
  cases h with
  | inert hn =>
    refine iff_of_true .refl ?_
    rintro ⟨_, id, t, hid, hg, hp⟩
    exact absurd hp (hn id t hid hg)
  | @settled _ id t hid hs =>
    have hc : Completes s p (some .result) := ⟨rfl, id, t, hid, hs.get, hs.pending⟩
    rw [hs.bound_iff (by decide) hid]
    exact ⟨fun hn _ => hn, fun hn => hn hc⟩

theorem TimedOut.bound_iff (h : TimedOut k p s s') :
    Bound p s s' ↔ (Refunds k s p → NamesItsTransfer s p) := by
  cases h with
  | inert hn =>
    refine iff_of_true .refl ?_
    rintro ⟨id, t, hid, hg, hp, hr⟩
    exact absurd hr (hn id t hid hg hp)
  | @settled _ id t hid hr hs =>
    have hc : Refunds k s p := ⟨id, t, hid, hs.get, hs.pending, hr⟩
    rw [hs.bound_iff (by decide) hid]
    exact ⟨fun hn _ => hn, fun hn => hn hc⟩

-- The hooks stay with the transfers that were sent as the packet unless the memo of a packet names a
-- pending transfer that was not: an acknowledgement of the packet completes that transfer, and a
-- timeout refunds it when it can be paid back.
theorem hooks_bound_iff (k : Keeper) (s s' : State) (p : Packet) :
    (∀ acknowledgement, logged s (Keeper.handleOutboundIBCAck s p acknowledgement) = .ok s' →
      (Bound p s s' ↔ (Completes s p acknowledgement → NamesItsTransfer s p))) ∧
    (logged s (k.handleOutboundIBCTimeout s p) = .ok s' →
      (Bound p s s' ↔ (Refunds k s p → NamesItsTransfer s p))) := by
  refine ⟨fun acknowledgement h => ?_, fun h => (of_timedOut h).bound_iff⟩
  by_cases ha : acknowledgement = some .result
  case pos =>
    subst ha
    exact (of_acknowledged (k := k) h).bound_iff
  case neg =>
    rw [logged_handleOutboundIBCAck, if_neg ha] at h
    cases h
    exact iff_of_true .refl fun hc => absurd hc.1 ha

namespace Sample

-- A transfer of one coin by somebody else, with the memo of transfer 1.
def forge : Action :=
  .transfer (block 2) "transfer" "channel-0" ⟨"umlcn", 1⟩ mallory "mallory" "osmo1mallory"
    100000000000 "crosschain:1"

def forged : State :=
  keeper.next sent forge

def forgery : Flight where
  packet   := {
    sourcePort       := "transfer"
    sourceChannel    := "channel-0"
    sequence         := 2
    timeoutTimestamp := 100000000000
    data             := some ⟨"umlcn", 1, "mallory", "osmo1mallory", "crosschain:1"⟩
  }
  sender   := mallory
  coin     := ⟨"umlcn", 1⟩
  received := none

theorem forged_step : (system keeper).step sent forge forged :=
  ⟨⟨by decide, by simp [forge]⟩, Keeper.act_next (by decide +kernel)⟩

end Sample

theorem own_packet_bound : ∃ s', logged Sample.sent
    (Keeper.handleOutboundIBCAck Sample.sent Sample.packet (some .result)) = .ok s' ∧
    Bound Sample.packet Sample.sent s' := by
  obtain ⟨s', hs⟩ := Result.isOk_iff.mp (by decide +kernel : (logged Sample.sent
    (Keeper.handleOutboundIBCAck Sample.sent Sample.packet (some .result))).isOk = true)
  refine ⟨s', hs, ((hooks_bound_iff Sample.keeper Sample.sent s' Sample.packet).1 _ hs).mpr ?_⟩
  intro _ id hid
  have hid₁ : Sample.packet.transferID = some 1 := by decide +kernel
  cases hid₁.symm.trans hid
  decide +kernel

-- The acknowledgement of a packet that somebody else sent completes transfer 1.
theorem forgery_not_bound : ¬∀ s, (system Sample.keeper).Reachable s → ∀ f ∈ s.ibc.flights,
    ∀ acknowledgement s',
      logged s (Keeper.handleOutboundIBCAck s f.packet acknowledgement) = .ok s' →
        Bound f.packet s s' := by
  intro h
  have hrun : (system Sample.keeper).Reachable Sample.forged :=
    .step (.step (.init Sample.genesis_empty) trivial Sample.sent_step) trivial Sample.forged_step
  obtain ⟨s', hs⟩ := Result.isOk_iff.mp (by decide +kernel : (logged Sample.forged
    (Keeper.handleOutboundIBCAck Sample.forged Sample.forgery.packet (some .result))).isOk = true)
  have hb := h _ hrun Sample.forgery (by decide +kernel) _ _ hs
  have hc : Completes Sample.forged Sample.forgery.packet (some .result) := by
    obtain ⟨t, ht⟩ := Option.isSome_iff_exists.mp (by decide +kernel :
      (Sample.forged.bridgeTransfers.get 1).isSome = true)
    refine ⟨rfl, 1, t, by decide +kernel, ht, ?_⟩
    have hst : (Sample.forged.bridgeTransfers.get 1).map (·.status) = some .pending := by
      decide +kernel
    simpa [ht] using hst
  have hsent := (of_acknowledged (k := Sample.keeper) hs).bound_iff.mp hb hc 1 (by decide +kernel)
  revert hsent
  decide +kernel

end Crosschain
