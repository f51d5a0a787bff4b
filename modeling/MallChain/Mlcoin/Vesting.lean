import MallChain.Mlcoin.System

namespace Mlcoin

open Sdk State

-- A wallet that is locked before its unlock time has come.
def WalletBalance.LockedAt (w : WalletBalance) (time : ℤ) : Prop :=
  w.locked > 0 ∧ time < w.unlockTime

instance {w : WalletBalance} {time : ℤ} : Decidable (w.LockedAt time) :=
  inferInstanceAs (Decidable (_ ∧ _))

def Chain.Locked (p : Chain) (addr : String) : Prop :=
  ∃ w, p.state.walletBalance.get addr = some w ∧ w.LockedAt p.ctx.blockTime

def State.balanceOf (s : State) (addr : String) : ℤ :=
  (s.wallet addr).balance.toNat

-- The locked wallets that a step takes from.
def drained (p : Chain) (_ : Action) (p' : Chain) : Set String :=
  {addr | p.Locked addr ∧ p'.state.balanceOf addr < p.state.balanceOf addr}

-- The steps that respect the lock. Only `TransferMallcoin` looks at it, and the addition of
-- `TransferFrom` must not wrap around.
def LockKept (p : Chain) : Action → Prop
  | .call (.transfer sender recipient amount) =>
    sender = recipient ∨ amount = 0 ∨ ¬p.Locked sender
  | .call (.transferFrom owner _ recipient amount) =>
    (owner = recipient ∨ ¬p.Locked owner) ∧
      (¬p.Locked recipient ∨ p.state.balanceOf recipient + amount.toNat < 2 ^ 64)
  | .call (.sellMallcoin seller _) => ¬p.Locked seller
  | .call (.stake creator _) => ¬p.Locked creator
  | _ => True

variable {k : Keeper} {ctx : Context} {s s' : State} {addr x : String} {w : WalletBalance}
variable {amount total : UInt64}

theorem balanceOf_congr (h : s'.walletBalance = s.walletBalance) : s'.balanceOf x = s.balanceOf x := by
  rw [balanceOf, wallet, h, balanceOf, wallet]

theorem balanceOf_set (h : s'.walletBalance = s.walletBalance.set addr w) :
    s'.balanceOf x = if x = addr then (w.balance.toNat : ℤ) else s.balanceOf x := by
  rw [balanceOf, wallet, h, KVStore.get_set, balanceOf, wallet]
  split_ifs <;> rfl

theorem balanceOf_debit (hw : s.walletBalance.get addr = some w)
    (hle : amount.toNat ≤ w.balance.toNat)
    (h : s'.walletBalance = s.walletBalance.set addr { w with balance := w.balance - amount }) :
    s'.balanceOf x = s.balanceOf x - if x = addr then (amount.toNat : ℤ) else 0 := by
  rw [balanceOf_set h]
  split_ifs with hx
  · rw [hx, balanceOf, wallet, hw, Option.getD_some]
    exact toNat_sub hle
  · rw [sub_zero]

theorem balanceOf_credit (h : s'.walletBalance = s.walletBalance.set addr
    { s.wallet addr with balance := (s.wallet addr).balance + amount }) :
    s'.balanceOf x = s.balanceOf x +
      if x = addr then (amount.toNat : ℤ) - dropped (s.wallet addr).balance amount else 0 := by
  rw [balanceOf_set h]
  split_ifs with hx
  · rw [hx, balanceOf]
    dsimp only
    rw [toNat_add]
    ring
  · rw [add_zero]

theorem balanceOf_release (h : x = addr → ¬Keeper.vested ctx w) :
    (Keeper.releaseVested ctx addr w s).1.balanceOf x = s.balanceOf x := by
  by_cases hv : Keeper.vested ctx w
  case pos =>
    have hx : x ≠ addr := fun hx => h hx hv
    simp only [Keeper.releaseVested, hv, if_true]
    rw [balanceOf_set rfl, if_neg hx]
  case neg => simp only [Keeper.releaseVested, hv, if_false]

theorem of_transfer_balance {sender recipient : String}
    (h : k.transfer ctx sender recipient amount s = .ok s')
    (hx : ∀ w, s.walletBalance.get x = some w → ¬Keeper.vested ctx w) :
    s'.balanceOf x = s.balanceOf x - (if x = sender then (amount.toNat : ℤ) else 0) +
      if x = recipient then (amount.toNat : ℤ) else 0 := by
  simp only [Keeper.transfer, Result.bind_eq_ok, orFail_eq_ok, Result.pure_eq_ok] at h
  obtain ⟨_, _, _, _, _, _, w, hw, h⟩ := h
  have hr := releaseVested_released ctx hw
  have hb : (Keeper.releaseVested ctx sender w s).1.balanceOf x = s.balanceOf x :=
    balanceOf_release fun heq => hx w (heq ▸ hw)
  generalize Keeper.releaseVested ctx sender w s = r at h hr hb
  obtain ⟨_, _, _, hsub, _, hadd, hs⟩ := h
  obtain ⟨hsub, hle⟩ := of_safeSub hsub
  obtain ⟨hadd, hd⟩ := of_safeAdd hadd
  subst hs hsub hadd
  have hd : dropped (State.wallet _ recipient).balance amount = 0 := hd
  rw [balanceOf_credit rfl, balanceOf_debit hr.get hle rfl, hb, hd, sub_zero]

theorem not_vested_of_lockedAt (h : w.LockedAt ctx.blockTime) : ¬Keeper.vested ctx w :=
  fun hv => absurd h.2 (not_lt.mpr hv.2.2)

-- A locked wallet can only be the recipient of a transfer with a fee.
theorem of_transferMallcoin_balance {creator toAddr txId : String}
    (h : k.transferMallcoin ctx creator toAddr amount s = .ok (s', txId))
    (hx : Chain.Locked ⟨ctx, s⟩ x) : s.balanceOf x ≤ s'.balanceOf x := by
  obtain ⟨wx, hwx, hlock⟩ := hx
  simp only [Keeper.transferMallcoin, Result.bind_eq_ok, failIf_eq_ok, orFail_eq_ok,
    Result.pure_eq_ok, Prod.mk.injEq] at h
  obtain ⟨_, _, _, _, w, hw, h⟩ := h
  have hr := releaseVested_released ctx hw
  have hne : x ≠ creator := by
    rintro rfl
    cases hwx.symm.trans hw
    have hv := not_vested_of_lockedAt hlock
    obtain ⟨_, hlocked, _⟩ := h
    simp only [Keeper.releaseVested, hv, if_false] at hlocked
    exact hlocked hlock.1
  have hb : (Keeper.releaseVested ctx creator w s).1.balanceOf x = s.balanceOf x :=
    balanceOf_release fun heq => absurd heq hne
  generalize Keeper.releaseVested ctx creator w s = r at h hr hb
  obtain ⟨_, _, fee, _, total, _, total', _, _, _, _, hsub, _, hadd, _, _, hs, _⟩ := h
  obtain ⟨hsub, hle⟩ := of_safeSub hsub
  obtain ⟨hadd, hd⟩ := of_safeAdd hadd
  subst hsub hadd
  have hd : dropped (State.wallet _ toAddr).balance amount = 0 := hd
  have hs' : s'.walletBalance = _ := congrArg State.walletBalance hs.symm
  have hdebit : (r.1.setWallet creator { r.2 with balance := r.2.balance - total' }).balanceOf x =
      r.1.balanceOf x - if x = creator then (total'.toNat : ℤ) else 0 :=
    balanceOf_debit hr.get hle rfl
  rw [balanceOf_credit (s := r.1.setWallet creator _) hs', hdebit, hb, hd, sub_zero, if_neg hne]
  split_ifs <;> omega

theorem of_transferFrom_balance {owner spender recipient : String}
    (h : k.transferFrom ctx owner spender recipient amount s = .ok s') :
    amount ≠ 0 ∧ s'.balanceOf x = s.balanceOf x -
      (if x = owner ∧ owner ≠ recipient then (amount.toNat : ℤ) else 0) +
      if x = recipient then (amount.toNat : ℤ) - dropped (s.wallet recipient).balance amount
      else 0 := by
  simp only [Keeper.transferFrom, Result.bind_eq_ok, failIf_eq_ok, orFail_eq_ok,
    Result.pure_eq_ok] at h
  obtain ⟨_, hz, _, _, _, _, _, _, _, _, w, hw, _, hle, hs⟩ := h
  have hle : amount.toNat ≤ w.balance.toNat := UInt64.le_iff_toNat_le.mp (UInt64.not_lt.mp hle)
  have hs' : s'.walletBalance = _ := congrArg State.walletBalance hs.symm
  refine ⟨hz, ?_⟩
  rw [balanceOf_set hs']
  by_cases hx : x = recipient
  case pos =>
    -- the copy of the wallet that was read first decides, also if it is the owner's
    have hown : ¬(x = owner ∧ owner ≠ recipient) := fun ho => ho.2 (ho.1.symm.trans hx)
    rw [if_pos hx, if_pos hx, if_neg hown, hx, balanceOf, wallet]
    dsimp only
    rw [toNat_add]
    ring
  case neg =>
    rw [if_neg hx, if_neg hx]
    by_cases ho : x = owner
    case pos =>
      subst ho
      rw [if_pos ⟨rfl, hx⟩, balanceOf_debit (s := s) hw hle rfl, if_pos rfl, add_zero]
    case neg =>
      rw [if_neg fun h => ho h.1, balanceOf_set rfl, if_neg ho]
      simp [balanceOf, wallet]

theorem drained_eq_empty_iff {p p' : Chain} {a : Action} : drained p a p' = ∅ ↔
    ∀ x, p.Locked x → p.state.balanceOf x ≤ p'.state.balanceOf x := by
  simp [drained, Set.eq_empty_iff_forall_notMem]

-- A step that takes a positive amount from one wallet only.
theorem drained_of_debit {p p' : Chain} {a : Action} (hz : amount ≠ 0)
    (h : ∀ x, p'.state.balanceOf x =
      p.state.balanceOf x - if x = addr then (amount.toNat : ℤ) else 0) :
    drained p a p' = ∅ ↔ ¬p.Locked addr := by
  have hpos : 0 < amount.toNat := Nat.pos_of_ne_zero fun hn => hz (UInt64.toNat_inj.mp hn)
  rw [drained_eq_empty_iff]
  constructor
  · intro hd hl
    have hle := hd addr hl
    rw [h addr, if_pos rfl] at hle
    omega
  · intro hl x hx
    rw [h x]
    split_ifs with heq
    · exact absurd (heq ▸ hx) hl
    · rw [sub_zero]

theorem drained_of_le {p p' : Chain} {a : Action}
    (h : ∀ x, p.state.balanceOf x ≤ p'.state.balanceOf x) : drained p a p' = ∅ :=
  drained_eq_empty_iff.mpr fun x _ => h x

theorem drained_of_eq {p p' : Chain} {a : Action}
    (h : p'.state.walletBalance = p.state.walletBalance) : drained p a p' = ∅ :=
  drained_of_le fun _ => (balanceOf_congr h).ge

-- A credit that is checked for an overflow.
theorem balanceOf_le_of_credit (hfits : (s.wallet addr).balance.toNat + amount.toNat < 2 ^ 64)
    (h : s'.walletBalance = s.walletBalance.set addr
      { s.wallet addr with balance := (s.wallet addr).balance + amount }) :
    s.balanceOf x ≤ s'.balanceOf x := by
  rw [balanceOf_credit h, dropped_eq_zero_iff.mpr hfits]
  split_ifs <;> omega

theorem drained_transfer_iff {p : Chain} {sender recipient : String}
    (h : k.transfer p.ctx sender recipient amount p.state = .ok s') :
    drained p (.call (.transfer sender recipient amount)) { p with state := s' } = ∅ ↔
      LockKept p (.call (.transfer sender recipient amount)) := by
  have hb : ∀ x, p.Locked x → s'.balanceOf x = p.state.balanceOf x -
      (if x = sender then (amount.toNat : ℤ) else 0) +
      if x = recipient then (amount.toNat : ℤ) else 0 := by
    intro x hx
    obtain ⟨w, hw, hlock⟩ := hx
    refine of_transfer_balance h fun w' hw' => ?_
    cases hw.symm.trans hw'
    exact not_vested_of_lockedAt hlock
  rw [drained_eq_empty_iff]
  constructor
  · intro hd
    by_contra hn
    obtain ⟨hne, hz, hl⟩ : sender ≠ recipient ∧ amount ≠ 0 ∧ p.Locked sender := by
      simpa [LockKept] using hn
    have hpos : 0 < amount.toNat := Nat.pos_of_ne_zero fun hn => hz (UInt64.toNat_inj.mp hn)
    have hle := hd sender hl
    dsimp only at hle
    rw [hb sender hl, if_pos rfl, if_neg hne] at hle
    omega
  · intro hk x hx
    dsimp only
    rw [hb x hx]
    rcases hk with rfl | rfl | hl
    · rw [sub_add_cancel]
    · simp
    · have hne : x ≠ sender := fun heq => hl (heq ▸ hx)
      rw [if_neg hne]
      split_ifs <;> omega

theorem drained_transferFrom_iff {p : Chain} {owner spender recipient : String}
    (h : k.transferFrom p.ctx owner spender recipient amount p.state = .ok s') :
    drained p (.call (.transferFrom owner spender recipient amount)) { p with state := s' } = ∅ ↔
      LockKept p (.call (.transferFrom owner spender recipient amount)) := by
  have hb := fun x => (of_transferFrom_balance (x := x) h).2
  have hz := (of_transferFrom_balance (x := owner) h).1
  have hpos : 0 < amount.toNat := Nat.pos_of_ne_zero fun hn => hz (UInt64.toNat_inj.mp hn)
  have hlt := amount.toNat_lt
  have hfits : dropped (p.state.wallet recipient).balance amount = 0 ↔
      p.state.balanceOf recipient + amount.toNat < 2 ^ 64 := by
    rw [dropped_eq_zero_iff, balanceOf]
    omega
  rw [drained_eq_empty_iff]
  constructor
  · intro hd
    refine ⟨or_iff_not_imp_left.mpr fun hne hl => ?_, or_iff_not_imp_left.mpr fun hl => ?_⟩
    · have hle := hd owner hl
      dsimp only at hle
      rw [hb owner, if_pos ⟨rfl, hne⟩, if_neg hne] at hle
      omega
    · have hle := hd recipient (not_not.mp hl)
      dsimp only at hle
      rw [hb recipient, if_pos rfl, if_neg fun h => h.2 h.1.symm] at hle
      rw [← hfits]
      by_contra hdropped
      rw [dropped] at hdropped hle
      split_ifs at hdropped hle
      · omega
      · omega
  · rintro ⟨ho, hr⟩ x hx
    dsimp only
    rw [hb x]
    have hown : ¬(x = owner ∧ owner ≠ recipient) := by
      rintro ⟨rfl, hne⟩
      exact ho.elim hne fun hl => hl hx
    rw [if_neg hown]
    split_ifs with heq
    · subst heq
      rw [hfits.mpr (hr.resolve_left fun hl => hl hx)]
      omega
    · omega

theorem Unstaked.balanceOf_le {id : String} {info : StakingInfo} {rewards : UInt64} {s₁ : State}
    (h : Unstaked ctx addr id info rewards s s₁ s') : s.balanceOf x ≤ s'.balanceOf x := by
  have hr : s.balanceOf x ≤ (s.returned addr info.stakedAmount).balanceOf x :=
    balanceOf_le_of_credit h.balance rfl
  have hs : s'.balanceOf x = s₁.balanceOf x :=
    balanceOf_congr ((congrArg State.walletBalance h.state).trans rfl)
  rw [hs]
  rcases h.reward with ⟨rfl, _⟩ | ⟨_, e, hm⟩
  · exact hr
  · exact hr.trans (balanceOf_le_of_credit hm.balance
      ((congrArg State.walletBalance hm.state).trans rfl))

-- A step takes from no locked wallet exactly if it respects the lock.
theorem drained_iff {p p' : Chain} {a : Action} (h : k.act p a = .ok p') :
    drained p a p' = ∅ ↔ LockKept p a := by
  cases a with
  | call c =>
    simp only [Keeper.act, Result.bind_eq_ok, Result.pure_eq_ok] at h
    obtain ⟨s', h, rfl⟩ := h
    have hc := of_call h
    cases c with
    | transferMallcoin =>
      simp only [Keeper.call, Result.bind_eq_ok, Result.pure_eq_ok, Prod.exists] at h
      obtain ⟨_, _, h, rfl⟩ := h
      exact iff_of_true (drained_eq_empty_iff.mpr fun x hx => of_transferMallcoin_balance h hx)
        trivial
    | transfer => exact drained_transfer_iff h
    | approve =>
      exact iff_of_true
        (drained_of_eq ((congrArg State.walletBalance (of_approve_administered h)).trans rfl)) trivial
    | transferFrom => exact drained_transferFrom_iff h
    | buyMallcoin =>
      cases hc with
      | framed plain => exact plain.elim
      | bought h =>
        exact iff_of_true (drained_of_le fun x => balanceOf_le_of_credit h.balance
          ((congrArg State.walletBalance h.state).trans rfl)) trivial
    | sellMallcoin =>
      cases hc with
      | framed plain => exact plain.elim
      | sold h =>
        exact drained_of_debit h.amount fun x => balanceOf_debit h.wallet h.balance
          ((congrArg State.walletBalance h.state).trans rfl)
    | stake =>
      cases hc with
      | framed plain => exact plain.elim
      | staked h =>
        exact drained_of_debit h.nonzero fun x => balanceOf_debit h.wallet h.balance
          ((congrArg State.walletBalance h.state).trans rfl)
    | unstake =>
      cases hc with
      | framed plain => exact plain.elim
      | unstaked h => exact iff_of_true (drained_of_le fun x => h.balanceOf_le) trivial
    | mintToWallet =>
      cases hc with
      | framed plain => exact plain.elim
      | minted h =>
        exact iff_of_true (drained_of_le fun x => balanceOf_le_of_credit h.balance
          ((congrArg State.walletBalance h.state).trans rfl)) trivial
    | mintMallcoin =>
      simp only [Keeper.call, Result.bind_eq_ok, Result.pure_eq_ok, Prod.exists] at h
      obtain ⟨_, _, h, rfl⟩ := h
      exact iff_of_true (drained_of_eq
        ((congrArg State.walletBalance (of_mintMallcoin_administered h)).trans rfl)) trivial
    | updateParams =>
      exact iff_of_true (drained_of_eq
        ((congrArg State.walletBalance (of_updateParams_administered h)).trans rfl)) trivial
  | endBlock ctx =>
    cases of_act h with
    | ended h =>
      exact iff_of_true (drained_of_eq ((congrArg State.walletBalance h.state).trans rfl)) trivial
  | rest bank =>
    cases h
    exact iff_of_true (drained_of_eq rfl) trivial

-- No step of a run takes from a locked wallet.
theorem vesting_lock (k : Keeper) (init : Chain → Prop) (q : Chain × Set String)
    (h : ((chain k init).recorded drained).Run (fun q => LockKept q.1) q) :
    q.2 = ∅ ∧ ∀ a p', (chain k init).step q.1 a p' → (drained q.1 a p' = ∅ ↔ LockKept q.1 a) := by
  have hinv : ((chain k init).recorded drained).Invariant (fun q => LockKept q.1)
      fun q => q.2 = ∅ := {
    init := fun hi => hi.2
    step := fun hq hg hs => by
      rw [hs.2, hq, (drained_iff hs.1.2).mpr hg, Set.union_empty]
  }
  exact ⟨hinv.holds h, fun a p' hs => drained_iff hs.2⟩

namespace Sample

-- A wallet that is locked for the next 1000 seconds.
def vesting : Chain where
  ctx   := block
  state := initGenesis {
    walletBalanceMap := [
      { index := "holder", address := "holder", balance := 500, locked := 1000, unlockTime := 2000 },
      { index := "owner", address := "owner", balance := 500 }]
  } .empty

theorem vesting_founded : vesting.Founded :=
  ⟨_, ⟨_, rfl⟩, by decide⟩

end Sample

-- The holder sends all that its locked wallet has with a transfer that takes no fee.
theorem transfer_drains : ¬∀ q,
    ((chain Sample.keeper Chain.Founded).recorded drained).Reachable q → q.2 = ∅ := by
  intro h
  have h₀ : ((chain Sample.keeper Chain.Founded).recorded drained).Reachable (Sample.vesting, ∅) :=
    .recorded_init Sample.vesting_founded
  have ha : Allowed Sample.vesting (.call (.transfer "holder" "friend" 500)) := trivial
  have h₁ := h₀.recorded_step trivial ⟨ha, Keeper.act_next (by decide +kernel)⟩
  have hd := (Set.union_empty_iff.mp (h _ h₁)).2
  have hl : Sample.vesting.Locked "holder" := ⟨_, rfl, by decide⟩
  have hle := drained_eq_empty_iff.mp hd "holder" hl
  revert hle
  decide +kernel

theorem sample_vesting_lock :
    drained Sample.vesting (.call (.transfer "owner" "holder" 500))
      (Sample.keeper.next Sample.vesting (.call (.transfer "owner" "holder" 500))) = ∅ := by
  have h₀ : ((chain Sample.keeper Chain.Founded).recorded drained).Run
      (fun q => LockKept q.1) (Sample.vesting, ∅) := .recorded_init Sample.vesting_founded
  have ha : Allowed Sample.vesting (.call (.transfer "owner" "holder" 500)) := trivial
  refine ((vesting_lock Sample.keeper Chain.Founded _ h₀).2 _ _
    ⟨ha, Keeper.act_next (by decide +kernel)⟩).mpr (.inr (.inr ?_))
  rintro ⟨w, hw, hlock⟩
  cases hw
  revert hlock
  decide

end Mlcoin
