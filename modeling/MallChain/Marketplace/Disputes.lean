import MallChain.Marketplace.Failures

namespace Marketplace

open Sdk TransitionSystem

-- The time at which the window of a dispute ends, as it is computed.
def windowEnd (t : ℤ) (w : UInt64) : Int64 :=
  Context.unix (t + (w.toInt64 * 1000000000).toInt)

section Window

variable {w : UInt64} {t : ℤ}

theorem toInt_window :
    (w.toInt64 * 1000000000).toInt = ((w.toNat : ℤ) * 1000000000).bmod (2 ^ 64) := by
  rw [Int64.toInt_mul]
  have hw : w.toInt64.toInt = (w.toNat : ℤ).bmod (2 ^ 64) := BitVec.toInt_eq_toNat_bmod _
  rw [hw, Int.bmod_mul_bmod]
  rfl

-- A window that fits is counted in full, and of another one whole turns are lost.
theorem window_fits (h : w.toNat * 1000000000 < 2 ^ 63) :
    (w.toInt64 * 1000000000).toInt = (w.toNat : ℤ) * 1000000000 := by
  rw [toInt_window, Int.bmod_def]
  split_ifs <;> omega

theorem window_wraps (h : 2 ^ 63 ≤ w.toNat * 1000000000) :
    (w.toInt64 * 1000000000).toInt ≤ (w.toNat : ℤ) * 1000000000 - 2 ^ 64 := by
  rw [toInt_window, Int.bmod_def]
  split_ifs <;> omega

theorem window_bounds : -2 ^ 63 ≤ (w.toInt64 * 1000000000).toInt ∧
    (w.toInt64 * 1000000000).toInt < 2 ^ 63 := by
  rw [toInt_window, Int.bmod_def]
  constructor <;> split_ifs <;> omega

theorem toInt_unix (h : 0 ≤ t + 2 ^ 63) (hlt : t / 1000000000 < 2 ^ 63) :
    (Context.unix t).toInt = t / 1000000000 := by
  refine Int64.toInt_ofInt_of_le ?_ hlt
  omega

theorem toInt_windowEnd (h : 0 ≤ t) (hlt : t / 1000000000 < 2 ^ 62) : (windowEnd t w).toInt =
    (t + (w.toInt64 * 1000000000).toInt) / 1000000000 := by
  have hw := window_bounds (w := w)
  refine toInt_unix ?_ ?_ <;> omega

-- The time `now` lies in the window that is computed.
def Guarded (t : ℤ) (w : UInt64) (now : ℤ) : Prop :=
  0 < windowEnd t w ∧ Context.unix now < windowEnd t w

theorem guarded_iff {now : ℤ} (h : 0 ≤ t) (hlt : t / 1000000000 < 2 ^ 62) (hnow : t ≤ now)
    (hfits : now / 1000000000 < 2 ^ 63) : Guarded t w now ↔
      now / 1000000000 < (t + (w.toInt64 * 1000000000).toInt) / 1000000000 := by
  have hunix := toInt_unix (t := now) (by omega) hfits
  have hend := toInt_windowEnd (w := w) h hlt
  have hzero : (0 : Int64).toInt = 0 := rfl
  rw [Guarded, Int64.lt_iff_toInt_lt, Int64.lt_iff_toInt_lt, hunix, hend, hzero]
  omega

-- In whole seconds the window is kept exactly when it fits.
theorem guarded_seconds_iff (h : 0 ≤ t) (hlt : t / 1000000000 < 2 ^ 62) :
    (∀ now, t ≤ now → now / 1000000000 < 2 ^ 63 → now / 1000000000 < t / 1000000000 + w.toNat →
      Guarded t w now) ↔ w.toNat * 1000000000 < 2 ^ 63 := by
  have hbounds := window_bounds (w := w)
  constructor
  · intro hall
    by_contra hne
    have hw := window_wraps (not_lt.mp hne)
    -- the computed end is too early
    obtain ⟨now, hn⟩ : ∃ now, now = max t ((t + (w.toInt64 * 1000000000).toInt) / 1000000000 *
      1000000000) := ⟨_, rfl⟩
    have hg := (guarded_iff h hlt (by omega) (by omega)).mp (hall now (by omega) (by omega) (by omega))
    omega
  · intro hw now hnow hfits hbefore
    rw [guarded_iff h hlt hnow hfits, window_fits hw]
    omega

-- In nanoseconds the dispute has to be opened at the start of a second, too.
theorem guarded_nanos_iff (h : 0 ≤ t) (hlt : t / 1000000000 < 2 ^ 62) :
    (∀ now, t ≤ now → now / 1000000000 < 2 ^ 63 → now < t + w.toNat * 1000000000 →
      Guarded t w now) ↔
      w.toNat = 0 ∨ w.toNat * 1000000000 < 2 ^ 63 ∧ t % 1000000000 = 0 := by
  have hbounds := window_bounds (w := w)
  constructor
  · intro hall
    by_contra hne
    rw [not_or, not_and] at hne
    obtain ⟨now, hn⟩ : ∃ now, now = max t ((t + (w.toInt64 * 1000000000).toInt) / 1000000000 *
      1000000000) := ⟨_, rfl⟩
    have hearly : now < t + w.toNat * 1000000000 := by
      by_cases hw : w.toNat * 1000000000 < 2 ^ 63
      · have hwhole := hne.2 hw
        have hwin := window_fits hw
        omega
      · have hwin := window_wraps (not_lt.mp hw)
        omega
    have hg := (guarded_iff h hlt (by omega) (by omega)).mp (hall now (by omega) (by omega) hearly)
    omega
  · rintro (hz | ⟨hw, hwhole⟩) now hnow hfits hbefore
    · omega
    · rw [guarded_iff h hlt hnow hfits, window_fits hw]
      omega

end Window

variable {k : Keeper} {ctx : Context} {s s' : State} {id account : String} {escrow : Escrow}
variable {history : List Entry} {a : Action}

-- A failed payout is no error of its own kind before it writes.
theorem payOut_ne_error {status : Status} {recipient text : String} :
    k.payOut id escrow status recipient s ≠ .error (.error text) := by
  by_cases hp : ∃ n, k.Priced escrow n
  · obtain ⟨n, hn, hpos, hd⟩ := hp
    obtain ⟨hc, hcs⟩ := coins_ok hpos hd
    simp only [Keeper.payOut, hn, orFail, Option.elim_some, Result.ok_bind, hc, hcs, pure,
      Except.pure]
    split
    · simp
    · split <;> simp
  · obtain ⟨panic, h⟩ : ∃ panic, k.payOut id escrow status recipient s = .error (.panic panic) :=
      Keeper.payOut_panic (not_exists.mp hp)
    simp [h]

-- The record of a dispute.
def Escrow.inDispute (e : Escrow) (t : ℤ) : Escrow :=
  { e with
    status      := .disputed
    releaseTime := Context.unix (t + (e.disputeWindow * 1000000000).toInt) }

-- The buyer cannot release what is in dispute while its window lasts.
theorem releaseFunds_disputed_iff (hg : s.escrows.get id = some escrow)
    (hs : escrow.status = .disputed) (hb : account = escrow.buyer) :
    (∃ text, k.releaseFunds ctx id account s = .error (.error text)) ↔
      0 < escrow.releaseTime ∧ Context.unix ctx.blockTime < escrow.releaseTime := by
  rcases Keeper.releaseFunds_cases k ctx account hg with
    ⟨hr, he⟩ | ⟨hr, text, he⟩
  · refine iff_of_false ?_ fun h => hr.2.2 ⟨hs, h⟩
    rw [he]
    exact fun ⟨_, h⟩ => payOut_ne_error h
  · refine iff_of_true ⟨text, he⟩ ?_
    by_contra hne
    exact hr ⟨hb, .inr hs, fun h => hne h.2⟩

theorem releaseFunds_guarded_iff {t : ℤ} {w : UInt64}
    (hg : s.escrows.get id = some (escrow.inDispute t)) (hw : escrow.disputeWindow = w.toInt64)
    (hb : account = escrow.buyer) :
    (∃ text, k.releaseFunds ctx id account s = .error (.error text)) ↔
      Guarded t w ctx.blockTime := by
  rw [releaseFunds_disputed_iff hg rfl hb, Guarded, windowEnd, ← hw]
  rfl

theorem releaseFunds_unreleasable (hg : s.escrows.get id = some escrow)
    (h : ¬ escrow.Releasable ctx account) :
    ∃ text, k.releaseFunds ctx id account s = .error (.error text) := by
  rcases Keeper.releaseFunds_cases k ctx account hg with
    ⟨hr, -⟩ | ⟨-, he⟩
  · exact absurd hr h
  · exact he

theorem of_openDispute_record {opener : String}
    (h : Keeper.openDispute ctx id opener s = .ok s') : ∃ escrow,
      s.escrows.get id = some escrow ∧ opener = escrow.buyer ∧ escrow.status = .held ∧
      s' = { s with escrows := s.escrows.set id (escrow.inDispute ctx.blockTime) } := by
  simp only [Keeper.openDispute, Result.bind_eq_ok, failIf_eq_ok, orFail_eq_ok,
    Result.pure_eq_ok, not_not] at h
  obtain ⟨escrow, hg, _, ho, _, hs, rfl⟩ := h
  exact ⟨escrow, hg, ho, hs, rfl⟩

-- Every call that could pay out and lose the status is left out.
def Keeper.Spares (k : Keeper) (s : State) : Action → Prop
  | .releaseFunds ctx msg => ∀ escrow, s.escrows.get msg.escrowId = some escrow →
    escrow.Releasable ctx msg.releaseBy → ¬ k.Loses s escrow escrow.seller
  | .refundBuyer msg => ∀ escrow, s.escrows.get msg.escrowId = some escrow →
    escrow.Refundable msg.requestedBy → ¬ k.Loses s escrow escrow.buyer
  | _ => True

-- What an action does to the records.
inductive Recorded (k : Keeper) (s s' : State) : Action → Prop
  | created {ctx : Context} {msg : MsgCreateEscrow} {escrow : Escrow}
    (id : (MsgServer.createEscrow k ctx msg s).toOption.map (·.2) =
      some (escrowID ctx msg.buyer s.escrowSeq))
    (window : escrow.disputeWindow = msg.disputeWindowSeconds.toInt64)
    (escrows : s'.escrows = s.escrows.set (escrowID ctx msg.buyer s.escrowSeq) escrow) :
    Recorded k s s' (.createEscrow ctx msg)
  | disputed {ctx : Context} {msg : MsgOpenDispute} {escrow : Escrow}
    (get : s.escrows.get msg.escrowId = some escrow) (held : escrow.status = .held)
    (escrows : s'.escrows = s.escrows.set msg.escrowId (escrow.inDispute ctx.blockTime)) :
    Recorded k s s' (.openDispute ctx msg)
  | settled {a : Action} {id : String} {escrow : Escrow} {status : Status}
    (other : ∀ ctx msg, a ≠ .createEscrow ctx msg ∧ ∀ msg, a ≠ .openDispute ctx msg)
    (get : s.escrows.get id = some escrow)
    (final : status = .released ∨ status = .refunded)
    (escrows : s'.escrows = s.escrows.set id { escrow with status }) : Recorded k s s' a
  | kept {a : Action}
    (other : ∀ ctx msg, a ≠ .createEscrow ctx msg ∧ ∀ msg, a ≠ .openDispute ctx msg)
    (escrows : ∀ id, s'.escrows.get id = s.escrows.get id) : Recorded k s s' a

theorem of_payOut_record {status : Status} {recipient : String} {failure : Option Failure}
    (hg : s.escrows.get id = some escrow) (hne : escrow.status ≠ status)
    (hl : ¬ k.Loses s escrow recipient)
    (h : k.payOut id escrow status recipient s = .ok (s', failure)) :
    s'.escrows = s.escrows.set id { escrow with status } ∨
      ∀ id, s'.escrows.get id = s.escrows.get id := by
  cases failure with
  | some e =>
    have hr := (Keeper.payOut_restores_iff hg hne).mpr hl s' e
    rw [h] at hr
    exact .inr (hr rfl).escrows
  | none =>
    left
    simp only [Keeper.payOut, Result.bind_eq_ok] at h
    obtain ⟨_, _, _, _, _, _, h⟩ := h
    split at h
    · cases h
    · split at h
      · cases h
        rfl
      · cases h
      · cases h

theorem settled_or_kept {status : Status} {recipient : String} {failure : Option Failure}
    (other : ∀ ctx msg, a ≠ .createEscrow ctx msg ∧ ∀ msg, a ≠ .openDispute ctx msg)
    (hg : s.escrows.get id = some escrow) (hne : escrow.status ≠ status)
    (hst : status = .released ∨ status = .refunded) (hl : ¬ k.Loses s escrow recipient)
    (h : k.payOut id escrow status recipient s = .ok (s', failure)) : Recorded k s s' a := by
  rcases of_payOut_record hg hne hl h with he | he
  · exact .settled other hg hst he
  · exact .kept other he

theorem recorded (h : k.act s a = .ok s') (hsp : k.Spares s a) : Recorded k s s' a := by
  cases a with
  | createEscrow ctx msg =>
    simp only [Keeper.act, Result.bind_eq_ok, Result.pure_eq_ok, Prod.exists] at h
    obtain ⟨_, id, h, rfl⟩ := h
    have hid := (of_createEscrow h).1
    have hopt : (MsgServer.createEscrow k ctx msg s).toOption.map (·.2) = some id := by
      rw [h]
      rfl
    simp only [MsgServer.createEscrow, Keeper.createEscrow, Result.bind_eq_ok,
      Result.pure_eq_ok, Prod.mk.injEq] at h
    obtain ⟨_, _, _, _, _, _, _, _, _, _, _, _, _, _, _, _, _, _, rfl, _⟩ := h
    exact .created (hid ▸ hopt) rfl rfl
  | releaseFunds ctx msg =>
    simp only [Keeper.act, MsgServer.releaseFunds, Result.bind_eq_ok, Result.pure_eq_ok,
      Prod.exists] at h
    obtain ⟨_, failure, ⟨_, _, h⟩, rfl⟩ := h
    cases hg : s.escrows.get msg.escrowId with
    | none => simp [Keeper.releaseFunds, hg, orFail] at h
    | some escrow =>
      rcases Keeper.releaseFunds_cases k ctx msg.releaseBy hg with
        ⟨hr, he⟩ | ⟨-, text, he⟩
      · have hne : escrow.status ≠ .released := by
          rcases hr.2.1 with h | h <;> simp [h]
        exact settled_or_kept (by simp) hg hne (.inl rfl) (hsp escrow hg hr) (he ▸ h)
      · rw [he] at h
        cases h
  | refundBuyer msg =>
    simp only [Keeper.act, MsgServer.refundBuyer, Result.bind_eq_ok, Result.pure_eq_ok,
      Prod.exists] at h
    obtain ⟨_, failure, ⟨_, _, h⟩, rfl⟩ := h
    cases hg : s.escrows.get msg.escrowId with
    | none => simp [Keeper.refundBuyer, hg, orFail] at h
    | some escrow =>
      rcases Keeper.refundBuyer_cases k msg.requestedBy hg with
        ⟨hr, he⟩ | ⟨-, text, he⟩
      · exact settled_or_kept (by simp) hg hr.2.2 (.inr rfl) (hsp escrow hg hr) (he ▸ h)
      · rw [he] at h
        cases h
  | openDispute ctx msg =>
    simp only [Keeper.act, MsgServer.openDispute, Result.bind_eq_ok] at h
    obtain ⟨_, _, h⟩ := h
    obtain ⟨escrow, hg, -, hs, rfl⟩ := of_openDispute_record h
    exact .disputed hg hs rfl
  | rest bank =>
    cases h
    exact .kept (by simp) fun _ => rfl

-- The windows of the escrows are those of the messages that opened them, and a dispute lasts until
-- the escrow is settled.
structure Watched (k : Keeper) (s : State) (history : List Entry) : Prop where
  windows  : ∀ e ∈ history, ∀ ctx msg id, e.action = .createEscrow ctx msg →
    e.createdId k = some id → ∃ escrow, s.escrows.get id = some escrow ∧
      escrow.disputeWindow = msg.disputeWindowSeconds.toInt64
  disputes : ∀ e ∈ history, ∀ ctx msg, e.action = .openDispute ctx msg →
    ∃ escrow, s.escrows.get msg.escrowId = some escrow ∧
      (escrow.status = .released ∨ escrow.status = .refunded ∨
        ∃ held : Escrow, escrow = held.inDispute ctx.blockTime)

-- A record that is written keeps its window, and a dispute that it is in.
structure Rewrites (escrow escrow' : Escrow) : Prop where
  window  : escrow'.disputeWindow = escrow.disputeWindow
  settled : escrow.status ≠ .held → escrow'.status = .released ∨ escrow'.status = .refunded

theorem Watched.set (h : Watched k s history) {escrow' : Escrow}
    (hg : s.escrows.get id = some escrow) (hw : Rewrites escrow escrow')
    (he : s'.escrows = s.escrows.set id escrow') : Watched k s' history where
  windows := by
    intro e hm ctx msg id' ha hc
    obtain ⟨stored, hs, hwin⟩ := h.windows e hm ctx msg id' ha hc
    rw [he, KVStore.get_set]
    split_ifs with heq
    · rw [heq, hg, Option.some.injEq] at hs
      exact ⟨escrow', rfl, hw.window.trans (hs ▸ hwin)⟩
    · exact ⟨stored, hs, hwin⟩
  disputes := by
    intro e hm ctx msg ha
    obtain ⟨stored, hs, hd⟩ := h.disputes e hm ctx msg ha
    rw [he, KVStore.get_set]
    split_ifs with heq
    · rw [heq, hg, Option.some.injEq] at hs
      have hne : escrow.status ≠ .held := by
        rw [hs]
        rcases hd with hd | hd | ⟨held, rfl⟩
        · simp [hd]
        · simp [hd]
        · simp [Escrow.inDispute]
      exact ⟨escrow', rfl, (hw.settled hne).imp_right .inl⟩
    · exact ⟨stored, hs, hd⟩

theorem Watched.kept (h : Watched k s history)
    (he : ∀ id, s'.escrows.get id = s.escrows.get id) : Watched k s' history where
  windows  := by simpa only [he] using h.windows
  disputes := by simpa only [he] using h.disputes

-- A step that neither opens an escrow nor a dispute is watched already.
theorem Watched.cons (h : Watched k s' history)
    (other : ∀ ctx msg, a ≠ .createEscrow ctx msg ∧ ∀ msg, a ≠ .openDispute ctx msg) :
    Watched k s' (⟨s, a, s'⟩ :: history) where
  windows := by
    intro e hm ctx msg id ha hc
    rcases List.mem_cons.mp hm with rfl | hm
    · exact absurd ha (other ctx msg).1
    · exact h.windows e hm ctx msg id ha hc
  disputes := by
    intro e hm ctx msg ha
    rcases List.mem_cons.mp hm with rfl | hm
    · exact absurd ha ((other ctx ⟨"", "", "", "", "", 0⟩).2 msg)
    · exact h.disputes e hm ctx msg ha

-- A new escrow takes the place of no other one.
theorem Watched.created (h : Watched k s history) (hnew : s.escrows.get id = none)
    (he : s'.escrows = s.escrows.set id escrow) : Watched k s' history := by
  have hold : ∀ {id' : String} {stored : Escrow}, s.escrows.get id' = some stored →
      s'.escrows.get id' = some stored := by
    intro id' stored hs
    rw [he, KVStore.get_set, if_neg, hs]
    rintro rfl
    simp [hnew] at hs
  constructor
  · intro e hm ctx msg id' ha hc
    obtain ⟨stored, hs, hw⟩ := h.windows e hm ctx msg id' ha hc
    exact ⟨stored, hold hs, hw⟩
  · intro e hm ctx msg ha
    obtain ⟨stored, hs, hd⟩ := h.disputes e hm ctx msg ha
    exact ⟨stored, hold hs, hd⟩

theorem Recorded.watched (hr : Recorded k s s' a) (hb : Booked k s history)
    (h : Watched k s history) : Watched k s' (⟨s, a, s'⟩ :: history) := by
  cases hr with
  | @created ctx msg escrow hid hwin he =>
    have hold := h.created (hb.fresh ctx msg.buyer) he
    refine ⟨?_, ?_⟩
    · intro e hm ctx' msg' id' ha hc
      rcases List.mem_cons.mp hm with rfl | hm
      · cases ha
        cases hid.symm.trans hc
        exact ⟨escrow, by rw [he, KVStore.get_set, if_pos rfl], hwin⟩
      · exact hold.windows e hm ctx' msg' id' ha hc
    · intro e hm ctx' msg' ha
      rcases List.mem_cons.mp hm with rfl | hm
      · cases ha
      · exact hold.disputes e hm ctx' msg' ha
  | @disputed ctx msg escrow hg hs he =>
    have hrw : Rewrites escrow (escrow.inDispute ctx.blockTime) := ⟨rfl, fun hne => absurd hs hne⟩
    have hold := h.set hg hrw he
    refine ⟨?_, ?_⟩
    · intro e hm ctx' msg' id' ha hc
      rcases List.mem_cons.mp hm with rfl | hm
      · cases ha
      · exact hold.windows e hm ctx' msg' id' ha hc
    · intro e hm ctx' msg' ha
      rcases List.mem_cons.mp hm with rfl | hm
      · cases ha
        exact ⟨_, by rw [he, KVStore.get_set, if_pos rfl], .inr (.inr ⟨escrow, rfl⟩)⟩
      · exact hold.disputes e hm ctx' msg' ha
  | @settled _ id escrow status other hg hst he =>
    have hrw : Rewrites escrow { escrow with status } := ⟨rfl, fun _ => hst⟩
    exact (h.set hg hrw he).cons other
  | kept other he => exact (h.kept he).cons other

-- The windows that are asked for fit, disputes are opened after 1970, and no payout fails in a way
-- that loses the status.
def Keeper.Orderly (k : Keeper) (p : State × List Entry) (a : Action) : Prop :=
  k.Spares p.1 a ∧
    (∀ ctx msg, a = .createEscrow ctx msg → msg.disputeWindowSeconds.toNat * 1000000000 < 2 ^ 63) ∧
    ∀ ctx msg, a = .openDispute ctx msg → 0 ≤ ctx.blockTime ∧ ctx.blockTime / 1000000000 < 2 ^ 62

-- What the condition says of the steps that were taken.
structure Sound (history : List Entry) : Prop where
  windows  : ∀ e ∈ history, ∀ ctx msg, e.action = .createEscrow ctx msg →
    msg.disputeWindowSeconds.toNat * 1000000000 < 2 ^ 63
  disputes : ∀ e ∈ history, ∀ ctx msg, e.action = .openDispute ctx msg →
    0 ≤ ctx.blockTime ∧ ctx.blockTime / 1000000000 < 2 ^ 62

theorem Sound.cons {p : State × List Entry} (h : Sound p.2) (hg : k.Orderly p a) :
    Sound (⟨p.1, a, s'⟩ :: p.2) where
  windows := by
    intro e hm ctx msg ha
    rcases List.mem_cons.mp hm with rfl | hm
    · exact hg.2.1 ctx msg ha
    · exact h.windows e hm ctx msg ha
  disputes := by
    intro e hm ctx msg ha
    rcases List.mem_cons.mp hm with rfl | hm
    · exact hg.2.2 ctx msg ha
    · exact h.disputes e hm ctx msg ha

theorem watched (k : Keeper) : k.chain.Invariant k.Orderly fun p =>
    Booked k p.1 p.2 ∧ Watched k p.1 p.2 ∧ Sound p.2 := by
  refine traced_invariant (fun hi => ⟨(booked k).init ⟨hi, rfl⟩, ?_, ?_⟩) ?_
  · constructor <;> simp
  · constructor <;> simp
  · rintro s history a s' ⟨hb, hw, hsound⟩ hg hs
    exact ⟨(of_act hb.payable hs.2).booked hs.1 hs.2 hb, (recorded hs.2 hg.1).watched hb hw,
      hsound.cons (p := (s, history)) hg⟩

-- In every run of that kind a dispute keeps the funds in the escrow for the window that was asked
-- for, counted in whole seconds. One dispute does so exactly when the window fits, and to the
-- nanosecond only when it is opened at the start of a second.
theorem dispute_window_iff (k : Keeper) :
    (∀ {p : State × List Entry}, k.chain.Run k.Orderly p → ∀ created ∈ p.2, ∀ disputed ∈ p.2,
      ∀ ctx₀ msg₀ ctx msg, created.action = .createEscrow ctx₀ msg₀ →
      created.createdId k = some msg.escrowId → disputed.action = .openDispute ctx msg →
      ∀ ctx' account, ctx.blockTime ≤ ctx'.blockTime → ctx'.blockTime / 1000000000 < 2 ^ 63 →
      ctx'.blockTime / 1000000000 <
        ctx.blockTime / 1000000000 + msg₀.disputeWindowSeconds.toNat →
      ∃ text, k.releaseFunds ctx' msg.escrowId account p.1 = .error (.error text)) ∧
    ∀ (s s' : State) (ctx : Context) (id opener : String) (escrow : Escrow) (w : UInt64),
      s.escrows.get id = some escrow → escrow.disputeWindow = w.toInt64 →
      Keeper.openDispute ctx id opener s = .ok s' → 0 ≤ ctx.blockTime →
      ctx.blockTime / 1000000000 < 2 ^ 62 →
      ((∀ ctx' : Context, ctx.blockTime ≤ ctx'.blockTime → ctx'.blockTime / 1000000000 < 2 ^ 63 →
        ctx'.blockTime / 1000000000 < ctx.blockTime / 1000000000 + w.toNat →
        ∃ text, k.releaseFunds ctx' id opener s' = .error (.error text)) ↔
          w.toNat * 1000000000 < 2 ^ 63) ∧
      ((∀ ctx' : Context, ctx.blockTime ≤ ctx'.blockTime → ctx'.blockTime / 1000000000 < 2 ^ 63 →
        ctx'.blockTime < ctx.blockTime + w.toNat * 1000000000 →
        ∃ text, k.releaseFunds ctx' id opener s' = .error (.error text)) ↔
          w.toNat = 0 ∨ w.toNat * 1000000000 < 2 ^ 63 ∧ ctx.blockTime % 1000000000 = 0) := by
  constructor
  · intro p hrun created hcm disputed hdm ctx₀ msg₀ ctx msg hc hid hd ctx' account hle hfits hbefore
    obtain ⟨hb, hw, hsound⟩ := (watched k).holds hrun
    obtain ⟨escrow, hg, hwin⟩ := hw.windows created hcm ctx₀ msg₀ msg.escrowId hc hid
    obtain ⟨escrow', hg', hstate⟩ := hw.disputes disputed hdm ctx msg hd
    cases hg.symm.trans hg'
    have hw₀ := hsound.windows created hcm ctx₀ msg₀ hc
    obtain ⟨ht, hlt⟩ := hsound.disputes disputed hdm ctx msg hd
    refine releaseFunds_unreleasable hg fun hr => ?_
    rcases hstate with hs | hs | ⟨held, rfl⟩
    · simpa [hs] using hr.2.1
    · simpa [hs] using hr.2.1
    · have hwin : held.disputeWindow = msg₀.disputeWindowSeconds.toInt64 := hwin
      have hguard := (guarded_seconds_iff ht hlt).mpr hw₀ ctx'.blockTime hle hfits hbefore
      rw [Guarded, windowEnd, ← hwin] at hguard
      exact hr.2.2 ⟨rfl, hguard⟩
  · intro s s' ctx id opener escrow w hg hw ho ht hlt
    obtain ⟨escrow', hg', hbuyer, -, hs⟩ := of_openDispute_record ho
    cases hg.symm.trans hg'
    have hget : s'.escrows.get id = some (escrow.inDispute ctx.blockTime) := by
      rw [hs, KVStore.get_set, if_pos rfl]
    simp only [releaseFunds_guarded_iff hget hw hbuyer]
    rw [← guarded_nanos_iff ht hlt, ← guarded_seconds_iff ht hlt]
    exact ⟨⟨fun h now => h ⟨0, now⟩, fun h ctx' => h ctx'.blockTime⟩,
      ⟨fun h now => h ⟨0, now⟩, fun h ctx' => h ctx'.blockTime⟩⟩

-- A dispute is opened in the middle of a second, and one on an escrow with a window of 2 ^ 63
-- seconds.
namespace Sample

def half : Context where
  blockHeight := 2
  blockTime   := 2500000000

def openedFor (disputeWindowSeconds : UInt64) : State :=
  keeper.next genesis
    (.createEscrow (block 1) ⟨"alice", "bob", "100", "uatom", "a book", disputeWindowSeconds⟩)

def disputedFor (ctx : Context) (disputeWindowSeconds : UInt64) : State :=
  keeper.next (openedFor disputeWindowSeconds)
    (.openDispute ctx ⟨"alice-1-1000000000-0", "alice"⟩)

def inDispute (s : State) : Bool :=
  (s.escrows.get "alice-1-1000000000-0").map (·.status) = some .disputed

def releasedAt (ctx : Context) (s : State) : Bool :=
  ((keeper.releaseFunds ctx "alice-1-1000000000-0" "alice" s).map (·.2)).toOption = some none

end Sample

-- The first window ends half a second too early, and the second one at once.
theorem window_ends_early :
    (Sample.inDispute (Sample.disputedFor Sample.half 60) = true ∧
      Sample.releasedAt ⟨62, 62000000000⟩ (Sample.disputedFor Sample.half 60) = true ∧
      62000000000 < Sample.half.blockTime + 60 * 1000000000) ∧
    Sample.inDispute (Sample.disputedFor (Sample.block 2) (2 ^ 63)) = true ∧
    Sample.releasedAt (Sample.block 2) (Sample.disputedFor (Sample.block 2) (2 ^ 63)) = true := by
  refine ⟨⟨?_, ?_, by decide⟩, ?_, ?_⟩
  · decide +kernel
  · decide +kernel
  · decide +kernel
  · decide +kernel

-- A window of a minute, from the second second on.
theorem sample_dispute_window :
    (∃ text, Sample.keeper.releaseFunds (Sample.block 61) "alice-1-1000000000-0" "alice"
      Sample.disputed = .error (.error text)) ∧
    ∀ ctx' : Context, 2000000000 ≤ ctx'.blockTime → ctx'.blockTime / 1000000000 < 2 ^ 63 →
      ctx'.blockTime < 62000000000 → ∃ text, Sample.keeper.releaseFunds ctx'
        "alice-1-1000000000-0" "alice" Sample.disputed = .error (.error text) := by
  have hbuy : Sample.keeper.chain.Run Sample.keeper.Orderly
      (Sample.opened, [⟨Sample.genesis, Sample.buy, Sample.opened⟩]) :=
    (Run.traced_init Sample.genesis_empty).traced_step
      ⟨trivial, by rintro ctx msg ⟨⟩; decide, by rintro ctx msg ⟨⟩⟩
      (Sample.step (a := Sample.buy) (by decide : _ ≠ _) (by decide +kernel))
  have hdispute : Sample.keeper.chain.Run Sample.keeper.Orderly (Sample.disputed, Sample.log.drop 1) :=
    hbuy.traced_step
      ⟨trivial, by rintro ctx msg ⟨⟩, by rintro ctx msg ⟨⟩; decide +kernel⟩
      (Sample.step (a := Sample.dispute) trivial (by decide +kernel))
  obtain ⟨hruns, hdisputes⟩ := dispute_window_iff Sample.keeper
  constructor
  · exact hruns hdispute ⟨Sample.genesis, Sample.buy, Sample.opened⟩ (by simp [Sample.log])
      ⟨Sample.opened, Sample.dispute, Sample.disputed⟩ (by simp [Sample.log]) (Sample.block 1) _
      (Sample.block 2) _ rfl (by decide +kernel) rfl (Sample.block 61) "alice" (by decide +kernel)
      (by decide +kernel) (by decide +kernel)
  · have hopened : ∃ escrow, Sample.opened.escrows.get "alice-1-1000000000-0" = some escrow ∧
        escrow.disputeWindow = (60 : UInt64).toInt64 :=
      ⟨_, rfl, rfl⟩
    obtain ⟨escrow, hg, hw⟩ := hopened
    have hopen : Keeper.openDispute (Sample.block 2) "alice-1-1000000000-0" "alice" Sample.opened =
        .ok Sample.disputed := by
      have hact : Sample.keeper.act Sample.opened Sample.dispute = .ok Sample.disputed :=
        Keeper.act_next (by decide +kernel)
      simp only [Keeper.act, Sample.dispute, MsgServer.openDispute, Result.bind_eq_ok] at hact
      obtain ⟨_, _, h⟩ := hact
      exact h
    exact (hdisputes Sample.opened Sample.disputed (Sample.block 2) "alice-1-1000000000-0" "alice"
      escrow 60 hg hw hopen (by decide +kernel) (by decide +kernel)).2.mpr
        (.inr ⟨by decide +kernel, by decide +kernel⟩)

end Marketplace
