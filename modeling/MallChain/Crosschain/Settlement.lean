import MallChain.Crosschain.Packets

namespace Crosschain

open TransitionSystem

-- What a transfer can be settled with: the sender got the coins back, or the recipient got them here
-- or on the other chain.
inductive Settlement
  | refunded (id : UInt64)
  | credited (id : UInt64)
  | delivered (id : UInt64)

def State.status (s : State) (id : UInt64) : Option Status :=
  (s.bridgeTransfers.get id).map (·.status)

def Keeper.settlements (k : Keeper) (s : State) (a : Action) (s' : State) : Set Settlement
  | .refunded id => s.status id = some .pending ∧ s'.status id = some .timedOut
  | .credited id => s.status id = some .pending ∧ s'.status id = some .completed ∧
      ∃ ctx msg, a = .complete ctx msg ∧ msg.transferId = id
  | .delivered id => ∃ f ∈ k.own s, a = .receive f .result ∧ f.packet.transferID = some id

-- The other chain has not accepted the packet of a transfer and never will.
def Undelivered (own : Multiset Flight) (id : UInt64) : Prop :=
  ∀ f ∈ own, f.packet.transferID = some id → f.received = some .error

-- How the settlements so far fit the statuses of the transfers and the packets in flight.
structure Consistent (status : UInt64 → Option Status) (own : Multiset Flight)
    (log : Set Settlement) : Prop where
  refunded  : ∀ id, .refunded id ∈ log → status id = some .timedOut
  credited  : ∀ id, .credited id ∈ log → status id = some .completed
  paid      : ∀ id, status id = some .timedOut ∨ .credited id ∈ log →
    .delivered id ∉ log ∧ Undelivered own id
  delivered : ∀ id, .delivered id ∈ log → status id ≠ none ∧ (status id = some .pending →
    ∃ f ∈ own, f.packet.transferID = some id ∧ f.received = some .result)

namespace Consistent

variable {status : UInt64 → Option Status} {own own' : Multiset Flight} {log events : Set Settlement}
variable {id : UInt64} {final : Status} {f : Flight}

theorem not_delivered (h : Consistent status own log) (hp : status id = some .pending)
    (hu : Undelivered own id) : .delivered id ∉ log := by
  intro hd
  obtain ⟨f, hf, hid, hr⟩ := (h.delivered id hd).2 hp
  simp [hu f hf hid] at hr

-- A transfer gets its final status.
theorem settle (h : Consistent status own log) (hp : status id = some .pending)
    (hfin : final ≠ .pending) (hu : final = .timedOut → Undelivered own id) :
    Consistent (Function.update status id (some final)) own log where
  refunded id' hr := by
    have hne : id' ≠ id := fun he => by simp [he ▸ h.refunded id' hr] at hp
    rw [Function.update_of_ne hne, h.refunded id' hr]
  credited id' hc := by
    have hne : id' ≠ id := fun he => by simp [he ▸ h.credited id' hc] at hp
    rw [Function.update_of_ne hne, h.credited id' hc]
  paid id' hpaid := by
    by_cases heq : id' = id
    case pos =>
      subst heq
      rcases hpaid with ht | hc
      · simp only [Function.update_self, Option.some.injEq] at ht
        exact ⟨h.not_delivered hp (hu ht), hu ht⟩
      · simp [h.credited id' hc] at hp
    case neg =>
      rw [Function.update_of_ne heq] at hpaid
      exact h.paid id' hpaid
  delivered id' hd := by
    by_cases heq : id' = id
    case pos => simp [heq, hfin]
    case neg =>
      rw [Function.update_of_ne heq]
      exact h.delivered id' hd

-- A packet is no longer in flight. If it was accepted, its transfer is settled already.
theorem land (h : Consistent status (f ::ₘ own) log)
    (hr : f.received = some .result → ∀ id, f.packet.transferID = some id →
      status id ≠ some .pending) : Consistent status own log where
  refunded := h.refunded
  credited := h.credited
  paid id hpaid := by
    obtain ⟨hd, hu⟩ := h.paid id hpaid
    exact ⟨hd, fun g hg => hu g (Multiset.mem_cons_of_mem hg)⟩
  delivered id hd := by
    obtain ⟨hn, hw⟩ := h.delivered id hd
    refine ⟨hn, fun hp => ?_⟩
    obtain ⟨g, hg, hid, hres⟩ := hw hp
    rcases Multiset.mem_cons.mp hg with rfl | hg
    · exact absurd hp (hr hres id hid)
    · exact ⟨g, hg, hid, hres⟩

-- A transfer with an unused id, in the module account or with a packet.
theorem initiate (h : Consistent status own log) (hn : status id = none) (hle : own ≤ own')
    (hown : ∀ g ∈ own', g ∉ own → g.packet.transferID = some id) :
    Consistent (Function.update status id (some .pending)) own' log where
  refunded id' hr := by
    have hne : id' ≠ id := fun he => by simp [he ▸ h.refunded id' hr] at hn
    rw [Function.update_of_ne hne, h.refunded id' hr]
  credited id' hc := by
    have hne : id' ≠ id := fun he => by simp [he ▸ h.credited id' hc] at hn
    rw [Function.update_of_ne hne, h.credited id' hc]
  paid id' hpaid := by
    have hne : id' ≠ id := by
      rintro rfl
      rcases hpaid with ht | hc
      · simp at ht
      · simp [h.credited id' hc] at hn
    rw [Function.update_of_ne hne] at hpaid
    obtain ⟨hd, hu⟩ := h.paid id' hpaid
    refine ⟨hd, fun g hg hid => ?_⟩
    by_cases hmem : g ∈ own
    case pos => exact hu g hmem hid
    case neg => exact absurd (Option.some.inj (hid.symm.trans (hown g hg hmem))) hne
  delivered id' hd := by
    have hne : id' ≠ id := fun he => (h.delivered id' hd).1 (he ▸ hn)
    rw [Function.update_of_ne hne]
    obtain ⟨hn, hw⟩ := h.delivered id' hd
    refine ⟨hn, fun hp => ?_⟩
    obtain ⟨g, hg, hid, hres⟩ := hw hp
    exact ⟨g, Multiset.mem_of_le hle hg, hid, hres⟩

-- The other chain answers a packet. The delivery counts when it accepts the packet.
theorem answer (h : Consistent status (f ::ₘ own) log) (hr : f.received = none)
    (hid : f.packet.transferID = some id) (hn : status id ≠ none) (a : Acknowledgement)
    (hev : ∀ e ∈ events, e = .delivered id ∧ a = .result) :
    Consistent status ({ f with received := some a } ::ₘ own) (log ∪ events) where
  refunded id' hl := by
    rcases hl with hl | hl
    · exact h.refunded id' hl
    · simpa using (hev _ hl).1
  credited id' hl := by
    rcases hl with hl | hl
    · exact h.credited id' hl
    · simpa using (hev _ hl).1
  paid id' hpaid := by
    have hpaid : status id' = some .timedOut ∨ .credited id' ∈ log := by
      rcases hpaid with ht | hl | hl
      · exact .inl ht
      · exact .inr hl
      · simpa using (hev _ hl).1
    obtain ⟨hd, hu⟩ := h.paid id' hpaid
    have hne : id' ≠ id := by
      rintro rfl
      simpa [hr] using hu f (Multiset.mem_cons_self ..) hid
    refine ⟨?_, fun g hg hgid => ?_⟩
    · rintro (hl | hl)
      · exact hd hl
      · exact hne (by simpa using (hev _ hl).1)
    · rcases Multiset.mem_cons.mp hg with rfl | hg
      · exact absurd (Option.some.inj (hgid.symm.trans hid)) hne
      · exact hu g (Multiset.mem_cons_of_mem hg) hgid
  delivered id' hl := by
    rcases hl with hl | hl
    · obtain ⟨hn, hw⟩ := h.delivered id' hl
      refine ⟨hn, fun hp => ?_⟩
      obtain ⟨g, hg, hgid, hres⟩ := hw hp
      rcases Multiset.mem_cons.mp hg with rfl | hg
      · simp [hr] at hres
      · exact ⟨g, Multiset.mem_cons_of_mem hg, hgid, hres⟩
    · obtain ⟨he, rfl⟩ := hev _ hl
      cases he
      exact ⟨hn, fun _ => ⟨_, Multiset.mem_cons_self .., hid, rfl⟩⟩

-- Payments that the statuses show already are recorded.
theorem record (h : Consistent status own log)
    (hr : ∀ id, .refunded id ∈ events → status id = some .timedOut)
    (hc : ∀ id, .credited id ∈ events → status id = some .completed ∧ .delivered id ∉ log ∧
      Undelivered own id)
    (hd : ∀ id, .delivered id ∉ events) : Consistent status own (log ∪ events) where
  refunded id hl := hl.elim (h.refunded id) (hr id)
  credited id hl := hl.elim (h.credited id) fun hl => (hc id hl).1
  paid id hpaid := by
    have hp : .delivered id ∉ log ∧ Undelivered own id := by
      rcases hpaid with ht | hl | hl
      · exact h.paid id (.inl ht)
      · exact h.paid id (.inr hl)
      · exact (hc id hl).2
    exact ⟨fun hl => hl.elim hp.1 (hd id), hp.2⟩
  delivered id hl := hl.elim (h.delivered id) fun hl => absurd hl (hd id)

end Consistent

-- The effects of the actions on the statuses.

variable {k : Keeper} {s s' m : State} {id : UInt64} {t : BridgeTransfer} {f : Flight}
variable {final : Status} {cost : String → ℤ} {log : Set Settlement} {a : Action}

theorem status_of_transfers (h : s'.bridgeTransfers = s.bridgeTransfers) : s'.status = s.status := by
  funext id
  rw [State.status, State.status, h]

theorem status_of_set (h : s'.bridgeTransfers = s.bridgeTransfers.set id t) :
    s'.status = Function.update s.status id (some t.status) := by
  funext id'
  simp only [State.status, h, KVStore.get_set, Function.update_apply]
  split_ifs <;> rfl

theorem Settled.status (h : Settled k id t final cost s s') :
    s'.status = Function.update s.status id (some final) :=
  status_of_set h.transfers

theorem Settled.status_pending (h : Settled k id t final cost s s') :
    s.status id = some .pending := by
  rw [State.status, h.get, Option.map_some, h.pending]

theorem Settled.consistent (h : Settled k id t final cost s s') (hfin : final ≠ .pending)
    (hc : Consistent s.status (k.own s) log)
    (hu : final = .timedOut → Undelivered (k.own s) id) :
    Consistent s'.status (k.own s') log := by
  rw [h.status, h.own]
  exact hc.settle h.status_pending hfin hu

theorem Landed.consistent {coins : Sdk.Coins} (h : Landed f coins s s')
    (hc : Consistent s.status (k.own s) log)
    (hr : f.received = some .result → ∀ id, f.packet.transferID = some id →
      s.status id ≠ some .pending) : Consistent s'.status (k.own s') log := by
  rw [status_of_transfers h.transfers]
  by_cases hf : f.sender = k.moduleAddr
  case pos => exact (h.own_pos hf ▸ hc).land hr
  case neg => exact h.own_neg hf ▸ hc

theorem Framed.consistent (h : Framed k s s') (hc : Consistent s.status (k.own s) log) :
    Consistent s'.status (k.own s') log := by
  rwa [status_of_transfers h.transfers, h.own]

theorem Opened.consistent (h : Opened k id t s s') (hg : s.bridgeTransfers.get id = none)
    (hc : Consistent s.status (k.own s) log) : Consistent s'.status (k.own s') log := by
  have hn : s.status id = none := by rw [State.status, hg, Option.map_none]
  rw [status_of_set h.transfers, h.pending]
  rcases h.funds with ⟨hown, _⟩ | ⟨f, hown, hid, _⟩
  · exact hown ▸ hc.initiate hn le_rfl fun g hg hng => absurd hg hng
  · refine hown ▸ hc.initiate hn (Multiset.le_cons_self ..) fun g hg hng => ?_
    rcases Multiset.mem_cons.mp hg with rfl | hg
    · exact hid
    · exact absurd hg hng

theorem Expiries.consistent {expired : UInt64 → Prop} (h : Expiries k expired s s')
    (hu : ∀ id, expired id → Undelivered (k.own s) id)
    (hc : Consistent s.status (k.own s) log) : Consistent s'.status (k.own s') log := by
  induction h with
  | refl => exact hc
  | step hs hx _ ih =>
    exact ih (fun id hx => hs.own ▸ hu id hx) (hs.consistent (by decide) hc fun _ => hu _ hx)

theorem Acknowledged.consistent {m : State} (hook : Acknowledged k f.packet s m) (h : Landed f [] m s')
    (hc : Consistent s.status (k.own s) log) : Consistent s'.status (k.own s') log := by
  cases hook with
  | inert hn =>
    refine h.consistent hc fun _ id hid hp => ?_
    obtain ⟨t, hg, hst⟩ := Option.map_eq_some_iff.mp hp
    exact hn id t hid hg hst
  | @settled _ id t hid hs =>
    refine h.consistent (hs.consistent (by decide) hc (by simp)) fun _ id' hid' => ?_
    cases hid.symm.trans hid'
    simp [hs.status]

-- The hook of an own packet refunds a transfer whose only packet is the one that timed out.
theorem TimedOut.consistent {m : State} {coins : Sdk.Coins} (hook : TimedOut k f.packet s m)
    (h : Landed f coins m s') (hr : f.received = none) (htr : Tracked k s)
    (ho : f.sender ≠ k.moduleAddr → ∀ id, f.packet.transferID = some id → Undelivered (k.own s) id)
    (hc : Consistent s.status (k.own s) log) : Consistent s'.status (k.own s') log := by
  cases hook with
  | inert _ => exact h.consistent hc (by simp [hr])
  | @settled _ id t hid _ hs =>
    by_cases hf : f.sender = k.moduleAddr
    case neg =>
      exact h.consistent (hs.consistent (by decide) hc fun _ => ho hf id hid) (by simp [hr])
    case pos =>
      have hown : k.own s = f ::ₘ k.own s' := by rw [← hs.own, h.own_pos hf]
      have hnd := htr.nodup
      rw [hown, Multiset.map_cons, Multiset.nodup_cons, hid] at hnd
      have hu : Undelivered (k.own s') id := fun g hg hgid =>
        absurd (Multiset.mem_map.mpr ⟨g, hg, hgid⟩) hnd.1
      have hland := (hown ▸ hc).land (by simp [hr])
      rw [status_of_transfers h.transfers, hs.status]
      exact hland.settle hs.status_pending (by decide) fun _ => hu

-- The settlements of an action other than a proof or a delivery.
theorem Consistent.others (h : Consistent s'.status (k.own s') log)
    (hc : ∀ ctx msg, a = .complete ctx msg → s'.status = s.status)
    (hd : ∀ f, a ≠ .receive f .result) :
    Consistent s'.status (k.own s') (log ∪ k.settlements s a s') := by
  refine h.record (fun id hr => hr.2) (fun id hl => ?_) fun id hl => ?_
  · obtain ⟨hp, hfin, ctx, msg, ha, _⟩ := hl
    simp [hc ctx msg ha, hp] at hfin
  · obtain ⟨f, _, ha, _⟩ := hl
    exact hd f ha

theorem Settled.consistent_complete {ctx : Context} {msg : MsgCompleteBridgeTransfer}
    (h : Settled k msg.transferId t .completed cost s s')
    (hu : Undelivered (k.own s) msg.transferId) (hc : Consistent s.status (k.own s) log) :
    Consistent s'.status (k.own s') (log ∪ k.settlements s (.complete ctx msg) s') := by
  refine (h.consistent (by decide) hc (by simp)).record (fun id hr => hr.2) (fun id hl => ?_)
    fun id hl => ?_
  · obtain ⟨_, hfin, _, _, ha, rfl⟩ := hl
    cases ha
    exact ⟨hfin, hc.not_delivered h.status_pending hu, h.own ▸ hu⟩
  · obtain ⟨f, _, ha, _⟩ := hl
    cases ha

theorem Answered.consistent {ack : Acknowledgement} (h : Answered f ack s s') (htr : Tracked k s)
    (hc : Consistent s.status (k.own s) log) :
    Consistent s'.status (k.own s') (log ∪ k.settlements s (.receive f ack) s') := by
  have hst := status_of_transfers h.transfers
  have hev : ∀ e ∈ k.settlements s (.receive f ack) s', ack = .result ∧ f ∈ k.own s ∧
      ∃ id, f.packet.transferID = some id ∧ e = .delivered id := by
    rintro (id | id | id) he
    · obtain ⟨hp, hfin⟩ := he
      simp [hst, hp] at hfin
    · obtain ⟨_, _, _, _, ha, _⟩ := he
      cases ha
    · obtain ⟨_, hf, ha, hid⟩ := he
      cases ha
      exact ⟨rfl, hf, id, hid, rfl⟩
  obtain ⟨rest, hown, hown'⟩ := h.own (k := k)
  by_cases hf : f.sender = k.moduleAddr
  case pos =>
    rw [if_pos hf, Multiset.singleton_add] at hown hown'
    obtain ⟨id, t, hid, hg, _⟩ := htr.known f (by simp [hown])
    have hn : s.status id ≠ none := by simp [State.status, hg]
    rw [hst, hown']
    refine (hown ▸ hc).answer h.fresh hid hn ack fun e he => ?_
    obtain ⟨hack, _, id', hid', rfl⟩ := hev e he
    cases hid.symm.trans hid'
    exact ⟨rfl, hack⟩
  case neg =>
    rw [if_neg hf, zero_add] at hown hown'
    rw [hst, hown', ← hown]
    have hno : ∀ e, e ∉ k.settlements s (.receive f ack) s' := fun e he =>
      hf (Multiset.mem_filter.mp (hev e he).2.1).2
    exact hc.record (fun _ h => absurd h (hno _)) (fun _ h => absurd h (hno _)) fun _ => hno _

theorem Consistent.effect (h : Consistent s.status (k.own s) log) (htr : Tracked k s)
    (ho : k.Orderly (fun s id => Undelivered (k.own s) id) s a) (he : Effect k s s' a) :
    Consistent s'.status (k.own s') (log ∪ k.settlements s a s') := by
  cases he with
  | framed ha hf =>
    exact (hf.consistent h).others (fun _ _ _ => status_of_transfers hf.transfers) fun f => ha f _
  | opened hop => exact (hop.consistent ho h).others (by simp) (by simp)
  | completed hs => exact hs.consistent_complete ho h
  | ended hx prune => exact (prune.consistent (hx.consistent ho h)).others (by simp) (by simp)
  | received ha => exact ha.consistent htr h
  | accepted _ hook hl => exact (hook.consistent hl h).others (by simp) (by simp)
  | rejected hr hl => exact (hl.consistent h (by simp [hr])).others (by simp) (by simp)
  | timedOut hr hook hl => exact (hook.consistent hl hr htr ho h).others (by simp) (by simp)

theorem consistent (k : Keeper) : ((system k).recorded k.settlements).Invariant
    (fun p a => k.Orderly (fun s id => Undelivered (k.own s) id) p.1 a)
    (fun p => Tracked k p.1 ∧ Consistent p.1.status (k.own p.1) p.2) := by
  refine ((tracked _).recorded k.settlements).strengthen (fun {p} hi => ?_) fun htr hc ho hs => ?_
  · obtain ⟨hi, hlog⟩ := hi
    have hst : ∀ id, p.1.status id = none := fun id => by
      rw [State.status, hi.transfers, KVStore.get_empty, Option.map_none]
    exact {
      refunded  := by simp [hlog]
      credited  := by simp [hlog]
      paid      := by simp [hlog, hst]
      delivered := by simp [hlog]
    }
  · exact hs.2 ▸ hc.effect htr ho (of_act hs.1.2 hs.1.1)

-- No transfer is refunded and credited, or credited twice, as long as the payouts that do not wait
-- for a packet leave the transfers alone whose packet was accepted or may still be.
theorem settled_once (k : Keeper) {p : State × Set Settlement}
    (h : ((system k).recorded k.settlements).Run
      (fun p a => k.Orderly (fun s id => Undelivered (k.own s) id) p.1 a) p) (id : UInt64) :
    ¬(.refunded id ∈ p.2 ∧ (.credited id ∈ p.2 ∨ .delivered id ∈ p.2)) ∧
      ¬(.credited id ∈ p.2 ∧ .delivered id ∈ p.2) := by
  obtain ⟨_, hc⟩ := (consistent k).holds h
  refine ⟨?_, ?_⟩
  · rintro ⟨hr, hl | hd⟩
    · simpa [hc.refunded id hr] using hc.credited id hl
    · exact (hc.paid id (.inl (hc.refunded id hr))).1 hd
  · rintro ⟨hl, hd⟩
    exact (hc.paid id (.inr hl)).1 hd

namespace Sample

def recorded : TransitionSystem (State × Set Settlement) Action :=
  (system keeper).recorded keeper.settlements

def orderly (p : State × Set Settlement) (a : Action) : Prop :=
  keeper.Orderly (fun s id => Undelivered (keeper.own s) id) p.1 a

theorem flight_delivers {s s' : State} (h : flight ∈ keeper.own s) :
    .delivered 1 ∈ keeper.settlements s deliver s' :=
  ⟨flight, h, rfl, by decide +kernel⟩

end Sample

-- A packet that is delivered before its transfer expires settles it once.
theorem delivered_settled_once : ∃ p : State × Set Settlement, .delivered 1 ∈ p.2 ∧
    ¬(.refunded 1 ∈ p.2 ∧ (.credited 1 ∈ p.2 ∨ .delivered 1 ∈ p.2)) ∧
      ¬(.credited 1 ∈ p.2 ∧ .delivered 1 ∈ p.2) := by
  have hmem : Sample.flight ∈ Sample.keeper.own Sample.sent := by decide +kernel
  have hinit : Sample.recorded.Run Sample.orderly (Sample.genesis, ∅) :=
    Run.recorded_init Sample.genesis_empty
  have hsent := hinit.recorded_step Sample.routed_orderly Sample.sent_step
  have hrun := hsent.recorded_step (a := Sample.deliver) trivial
    (Sample.deliver_step (by decide +kernel))
  exact ⟨_, Set.mem_union_right _ (Sample.flight_delivers hmem), settled_once Sample.keeper hrun 1⟩

-- When a transfer expires first, its packet is still delivered.
theorem expiry_settles_twice : ¬∀ p, ((system Sample.keeper).recorded
    Sample.keeper.settlements).Reachable p → ∀ id,
      ¬(.refunded id ∈ p.2 ∧ (.credited id ∈ p.2 ∨ .delivered id ∈ p.2)) ∧
        ¬(.credited id ∈ p.2 ∧ .delivered id ∈ p.2) := by
  intro h
  have hmem : Sample.flight ∈ Sample.keeper.own Sample.expired := by decide +kernel
  have hinit : Sample.recorded.Reachable (Sample.genesis, ∅) :=
    Run.recorded_init Sample.genesis_empty
  have hsent := hinit.recorded_step trivial Sample.sent_step
  have hexp := (hsent.recorded_step trivial Sample.escrowed_step).recorded_step trivial
    Sample.expired_step
  have hrun := hexp.recorded_step (a := Sample.deliver) trivial
    (Sample.deliver_step (by decide +kernel))
  refine (h _ hrun 1).1 ⟨.inl (.inr ?_), .inr (.inr (Sample.flight_delivers hmem))⟩
  exact ⟨by decide +kernel, by decide +kernel⟩

end Crosschain
