import MallChain.Crosschain.Packets

namespace Crosschain

open Sdk

namespace Keeper

-- What the module account owes for a transfer: pending amounts, unless they are out with a packet.
def claimed (k : Keeper) (s : State) (d : String) (id : UInt64) (t : BridgeTransfer) : ℤ :=
  if t.status = .pending ∧ ¬k.Out s id then t.worth d else 0

def escrowed (k : Keeper) (s : State) (d : String) : ℤ :=
  s.bridgeTransfers.sum (k.claimed s d)

def surplus (k : Keeper) (s : State) (d : String) : ℤ :=
  s.bank.balances k.moduleAddr d - k.escrowed s d

end Keeper

variable {k : Keeper} {s s' : State} {d : String} {id : UInt64} {t : BridgeTransfer} {f : Flight}
variable {status : Status} {cost : String → ℤ} {coins : Coins}

theorem claimed_of_not_pending (h : t.status ≠ .pending) : k.claimed s d id t = 0 := by
  simp [Keeper.claimed, h]

theorem claimed_of_out (h : k.Out s id) : k.claimed s d id t = 0 := by
  simp [Keeper.claimed, h]

theorem claimed_nonneg (h : 0 ≤ t.worth d) : 0 ≤ k.claimed s d id t := by
  simp only [Keeper.claimed]
  split_ifs <;> omega

theorem claimed_congr (h : k.Out s' id ↔ k.Out s id) :
    k.claimed s' d id t = k.claimed s d id t :=
  if_congr (and_congr_right fun _ => not_congr h) rfl rfl

theorem claimed_of_own (h : k.own s' = k.own s) : k.claimed s' d = k.claimed s d := by
  funext id t
  exact claimed_congr (by rw [Keeper.Out, Keeper.Out, h])

-- One more own packet only concerns its own transfer.
theorem out_cons {id' : UInt64} (h : k.own s' = f ::ₘ k.own s)
    (hid : f.packet.transferID = some id) : k.Out s' id' ↔ id' = id ∨ k.Out s id' := by
  simp [Keeper.Out, h, hid]

-- What the effects do to the surplus.

theorem surplus_framed (h : Framed k s s') : k.surplus s d ≤ k.surplus s' d := by
  have hb := h.balance d
  simp only [Keeper.surplus, Keeper.escrowed, h.transfers, claimed_of_own h.own]
  omega

-- The claim of a settled transfer goes away, and so does what was paid for it.
theorem surplus_settled (h : Settled k id t status cost s s') (hst : status ≠ .pending) :
    k.surplus s d + k.claimed s d id t - cost d ≤ k.surplus s' d := by
  have hb := h.balance d
  have hz : k.claimed s d id { t with status } = 0 := claimed_of_not_pending hst
  have hsum : k.escrowed s' d = k.escrowed s d - k.claimed s d id t := by
    simp only [Keeper.escrowed, claimed_of_own h.own, h.transfers, KVStore.sum_set_old h.get, hz,
      add_zero]
  simp only [Keeper.surplus, hsum]
  omega

-- A payment for a transfer whose coins are not out is covered by its claim.
theorem surplus_paid (h : Settled k id t status t.worth s s') (hst : status ≠ .pending)
    (ho : ¬k.Out s id) : k.surplus s d ≤ k.surplus s' d := by
  have hs := surplus_settled (d := d) h hst
  have hc : k.claimed s d id t = t.worth d := by simp [Keeper.claimed, h.pending, ho]
  omega

theorem surplus_opened (h : Opened k id t s s') (hg : s.bridgeTransfers.get id = none)
    (htr : Tracked k s) : k.surplus s d ≤ k.surplus s' d := by
  have hsum : (∀ id' t', id' ≠ id → k.claimed s' d id' t' = k.claimed s d id' t') →
      k.escrowed s' d = k.escrowed s d + k.claimed s' d id t := by
    intro hc
    have hold : s.bridgeTransfers.sum (k.claimed s' d) = k.escrowed s d := by
      refine KVStore.sum_congr fun id' t' hg' => hc id' t' fun he => ?_
      simp [he, hg] at hg'
    rw [Keeper.escrowed, h.transfers, KVStore.sum_set_new hg, hold]
  rcases h.funds with ⟨hown, hb⟩ | ⟨f, hown, hid, _, _, hb⟩
  · have hout : ¬k.Out s' id := by
      simpa [Keeper.Out, hown] using htr.not_out hg
    have hc : k.claimed s' d id t = t.worth d := by simp [Keeper.claimed, h.pending, hout]
    have hs := hsum fun id' t' _ => by rw [claimed_of_own hown]
    have hb := hb d
    simp only [Keeper.surplus, hs, hc]
    omega
  · have hout : k.Out s' id := out_of_mem (by simp [hown]) hid
    have hs := hsum fun id' t' hne => claimed_congr (by simp [out_cons hown hid, hne])
    have hb := hb d
    rw [claimed_of_out hout] at hs
    simp only [Keeper.surplus, hs]
    omega

-- When an own packet is no longer in flight, its transfer is owed again.
theorem surplus_landed (h : Landed f coins s s') (htr : Tracked k s)
    (hf : f.sender = k.moduleAddr) (hid : f.packet.transferID = some id)
    (hg : s.bridgeTransfers.get id = some t) :
    k.surplus s' d =
      k.surplus s d + coins.amountOf d - (if t.status = .pending then t.worth d else 0) := by
  have hown : k.own s = f ::ₘ k.own s' := h.own_pos hf
  have hnd := htr.nodup
  rw [hown, Multiset.map_cons, Multiset.nodup_cons, hid] at hnd
  have hout : k.Out s id := out_of_mem (by simp [hown]) hid
  have hout' : ¬k.Out s' id := hnd.1
  have hc : ∀ id' t', id' ≠ id → s.bridgeTransfers.get id' = some t' →
      k.claimed s d id' t' = k.claimed s' d id' t' := by
    intro id' t' hne _
    exact claimed_congr (by simp [out_cons hown hid, hne])
  have hsum := KVStore.sum_congr_except hc
  simp only [hg, KVStore.part, claimed_of_out hout, sub_zero] at hsum
  have hx : k.claimed s' d id t = if t.status = .pending then t.worth d else 0 := by
    simp [Keeper.claimed, hout']
  simp only [Keeper.surplus, Keeper.escrowed, h.transfers, h.bank.balances, Bank.held, hf, if_true,
    hsum, hx]
  omega

theorem surplus_landed_foreign (h : Landed f coins s s') (hf : f.sender ≠ k.moduleAddr) :
    k.surplus s' d = k.surplus s d := by
  have hb := h.bank.balances k.moduleAddr d
  simp only [Bank.held, hf.symm, if_false, add_zero] at hb
  simp only [Keeper.surplus, Keeper.escrowed, h.transfers, claimed_of_own (h.own_neg hf), hb]

theorem surplus_answered {a : Acknowledgement} (h : Answered f a s s') :
    k.surplus s' d = k.surplus s d := by
  have hc : k.claimed s' d = k.claimed s d := by
    funext id t
    exact claimed_congr (by rw [Keeper.Out, Keeper.Out, h.own_map])
  simp only [Keeper.surplus, Keeper.escrowed, h.transfers, h.bank, hc]

theorem surplus_expiries {expired : UInt64 → Prop} (h : Expiries k expired s s')
    (ho : ∀ id, expired id → ¬k.Out s id) : k.surplus s d ≤ k.surplus s' d := by
  induction h with
  | refl => exact le_refl _
  | step hs hx _ ih =>
    refine (surplus_paid hs (by decide) (ho _ hx)).trans (ih fun id hx => ?_)
    simpa only [Keeper.Out, hs.own] using ho id hx

-- What lands in the module account covers what is owed again.
theorem surplus_returned (h : Landed f [f.coin] s s') (htr : Tracked k s) :
    k.surplus s d ≤ k.surplus s' d := by
  by_cases hf : f.sender = k.moduleAddr
  case neg => exact (surplus_landed_foreign h hf).ge
  case pos =>
    obtain ⟨id, t, hid, hg, hc⟩ := htr.known f (by simp [h.own_pos hf])
    have hn := htr.nonneg id t hg d
    rw [surplus_landed h htr hf hid hg, hc]
    split_ifs <;> omega

-- Once its transfer is settled, nothing is owed again when a packet lands.
theorem surplus_landed_settled (h : Landed f coins s s') (htr : Tracked k s)
    (hf : f.sender = k.moduleAddr) (hid : f.packet.transferID = some id)
    (hg : s.bridgeTransfers.get id = some t) (hp : t.status ≠ .pending) :
    k.surplus s' d = k.surplus s d + coins.amountOf d := by
  rw [surplus_landed h htr hf hid hg, if_neg hp, sub_zero]

theorem surplus_accepted {m : State} (hook : Acknowledged k f.packet s m) (h : Landed f [] m s')
    (htr : Tracked k s) : k.surplus s d ≤ k.surplus s' d := by
  cases hook with
  | inert hn =>
    by_cases hf : f.sender = k.moduleAddr
    case neg => exact (surplus_landed_foreign h hf).ge
    case pos =>
      obtain ⟨id, t, hid, hg, _⟩ := htr.known f (by simp [h.own_pos hf])
      simp [surplus_landed_settled h htr hf hid hg (hn id t hid hg)]
  | @settled _ id t hid hs =>
    have hle := surplus_settled (d := d) hs (by decide)
    have hn : 0 ≤ k.claimed s d id t := claimed_nonneg (htr.nonneg id t hs.get d)
    have hm : k.surplus m d = k.surplus s' d := by
      by_cases hf : f.sender = k.moduleAddr
      case neg => exact (surplus_landed_foreign h hf).symm
      case pos =>
        have hg : m.bridgeTransfers.get id = some { t with status := .completed } := by
          rw [hs.transfers, KVStore.get_set_self]
        simp [surplus_landed_settled h (htr.settled hs) hf hid hg (by simp)]
    simp only [Pi.zero_apply] at hle
    omega

-- The hook of a timeout pays before the coins of the packet are back in the module account.
theorem surplus_timedOut {m : State} (hook : TimedOut k f.packet s m) (h : Landed f [f.coin] m s')
    (htr : Tracked k s)
    (ho : f.sender ≠ k.moduleAddr → ∀ id, f.packet.transferID = some id → ¬k.Out s id) :
    k.surplus s d ≤ k.surplus s' d := by
  cases hook with
  | inert _ => exact surplus_returned h htr
  | @settled _ id t hid _ hs =>
    by_cases hf : f.sender = k.moduleAddr
    case neg =>
      have hp := surplus_paid (d := d) hs (by decide) (ho hf id hid)
      exact hp.trans (surplus_landed_foreign h hf).ge
    case pos =>
      have htr' := htr.settled hs
      have hg : m.bridgeTransfers.get id = some { t with status := .timedOut } := by
        rw [hs.transfers, KVStore.get_set_self]
      obtain ⟨id', t', hid', hg', hc⟩ := htr'.known f (by simp [h.own_pos hf])
      cases hid.symm.trans hid'
      cases hg.symm.trans hg'
      have hout : k.Out s id := out_of_mem (by simp [← hs.own, h.own_pos hf]) hid
      have hle := surplus_settled (d := d) hs (by decide)
      have hl := surplus_landed_settled (d := d) h htr' hf hid hg (by simp)
      have hc : Coins.amountOf [f.coin] d = t.worth d := hc d
      rw [claimed_of_out hout] at hle
      omega

-- No orderly action takes away from the surplus.
theorem surplus_effect {a : Action} (he : Effect k s s' a) (htr : Tracked k s)
    (ho : k.Orderly (fun s id => ¬k.Out s id) s a) : k.surplus s d ≤ k.surplus s' d := by
  cases he with
  | framed _ h => exact surplus_framed h
  | opened h => exact surplus_opened h ho htr
  | completed h => exact surplus_paid h (by decide) ho
  | ended h prune => exact (surplus_expiries h ho).trans (surplus_framed prune)
  | received h => exact (surplus_answered h).ge
  | accepted _ hook h => exact surplus_accepted hook h htr
  | rejected _ h => exact surplus_returned h htr
  | timedOut _ hook h => exact surplus_timedOut hook h htr ho

-- The module account covers all pending transfers whose coins are not out with a packet, as long as
-- the payouts that do not wait for a packet leave the transfers alone whose coins are out.
theorem escrow_covered {s : State} (k : Keeper)
    (h : (system k).Run (k.Orderly fun s id => ¬k.Out s id) s) (d : String) :
    k.escrowed s d ≤ s.bank.balances k.moduleAddr d := by
  have hinv := (tracked (k := k) fun s id => ¬k.Out s id).strengthen (I := fun s => 0 ≤ k.surplus s d)
    (fun hi => by simp [Keeper.surplus, Keeper.escrowed, hi.transfers, hi.balance d])
    (fun htr hn ho hs => hn.trans (surplus_effect (of_act hs.2 hs.1) htr ho))
  have hs := (hinv.holds h).2
  simp only [Keeper.surplus] at hs
  omega

theorem sample_escrow_covered : Sample.keeper.escrowed Sample.escrowed "umlcn" = 100 ∧
    Sample.keeper.escrowed Sample.escrowed "umlcn" ≤
      Sample.escrowed.bank.balances Sample.keeper.moduleAddr "umlcn" :=
  ⟨by decide +kernel, escrow_covered Sample.keeper
    (.step (.step (.init Sample.genesis_empty) Sample.routed_orderly Sample.sent_step)
      Sample.routeless_orderly Sample.escrowed_step) "umlcn"⟩

-- The refund of an expired transfer whose packet is still in flight takes the coins of another one.
theorem expiry_not_covered : ¬∀ s, (system Sample.keeper).Reachable s → ∀ d,
    Sample.keeper.escrowed s d ≤ s.bank.balances Sample.keeper.moduleAddr d := by
  intro h
  have hrun : (system Sample.keeper).Reachable Sample.expired :=
    .step (.step (.step (.init Sample.genesis_empty) trivial Sample.sent_step) trivial
      Sample.escrowed_step) trivial Sample.expired_step
  have hle := h _ hrun "umlcn"
  revert hle
  decide +kernel

end Crosschain
