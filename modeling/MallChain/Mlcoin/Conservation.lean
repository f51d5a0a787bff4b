import MallChain.Mlcoin.Transfer

namespace Mlcoin

open Sdk State

variable {k : Keeper} {ctx : Context} {s s' : State} {addr : String} {w : WalletBalance}
variable {amount : UInt64}

-- Records and allowances are not worth anything.

@[simp]
theorem recordTransaction_value {fromAddr toAddr txType memo : String} :
    (Keeper.recordTransaction ctx fromAddr toAddr amount txType memo s).1.value = s.value :=
  rfl

@[simp]
theorem recordActivity_value {users : List String} :
    (Keeper.recordActivity amount users s).value = s.value :=
  rfl

@[simp]
theorem setAllowance_value {owner spender : String} :
    (Keeper.setAllowance owner spender amount s).value = s.value :=
  rfl

@[simp]
theorem setAllowance_walletBalance {owner spender : String} :
    (Keeper.setAllowance owner spender amount s).walletBalance = s.walletBalance :=
  rfl

-- What the release of a vested wallet loses.
def releaseDropped (ctx : Context) (w : WalletBalance) : ℤ :=
  if Keeper.vested ctx w then dropped w.balance w.locked else 0

theorem releaseDropped_nonneg : 0 ≤ releaseDropped ctx w := by
  rw [releaseDropped]
  split_ifs
  · exact dropped_nonneg
  · exact le_refl _

structure Released (ctx : Context) (addr : String) (w w' : WalletBalance) (s s' : State) : Prop where
  value : s'.value = s.value - releaseDropped ctx w
  get   : s'.walletBalance.get addr = some w'
  fees  : s'.transactionFees = s.transactionFees

theorem releaseVested_released (ctx : Context) (h : s.walletBalance.get addr = some w) :
    Released ctx addr w (Keeper.releaseVested ctx addr w s).2 s
      (Keeper.releaseVested ctx addr w s).1 := by
  by_cases hv : Keeper.vested ctx w
  case pos =>
    simp only [Keeper.releaseVested, hv, if_true]
    refine ⟨?_, get_setWallet, rfl⟩
    simp only [value_setWallet, h, worth, releaseDropped, hv, if_true, toNat_add,
      UInt64.toNat_zero]
    ring
  case neg =>
    simp only [Keeper.releaseVested, hv, if_false]
    exact ⟨by simp [releaseDropped, hv], h, rfl⟩

theorem value_debit (h : s.walletBalance.get addr = some w) (hle : amount.toNat ≤ w.balance.toNat) :
    (s.setWallet addr { w with balance := w.balance - amount }).value = s.value - amount.toNat := by
  simp only [value_setWallet, h, worth, toNat_sub hle]
  ring

-- A credit adds the amount, short of what the addition drops. A missing wallet is created.
theorem value_credit :
    let w := (s.walletBalance.get addr).getD { address := addr, balance := 0 }
    (s.setWallet addr { w with balance := w.balance + amount }).value =
      s.value + amount.toNat - dropped w.balance amount := by
  cases h : s.walletBalance.get addr with
  | none =>
    simp only [Option.getD, value_setWallet, h, worth, toNat_add, UInt64.toNat_zero]
    ring
  | some w =>
    simp only [Option.getD, value_setWallet, h, worth, toNat_add]
    ring

theorem of_transfer {sender recipient : String}
    (h : k.transfer ctx sender recipient amount s = .ok s') :
    ∃ w, s.walletBalance.get sender = some w ∧ s'.value = s.value - releaseDropped ctx w := by
  simp only [Keeper.transfer, Result.bind_eq_ok, orFail_eq_ok, Result.pure_eq_ok] at h
  obtain ⟨_, _, _, _, _, _, w, hw, h⟩ := h
  have hr := releaseVested_released ctx hw
  generalize Keeper.releaseVested ctx sender w s = r at h hr
  obtain ⟨_, _, _, hsub, _, hadd, hs⟩ := h
  obtain ⟨hsub, hle⟩ := of_safeSub hsub
  obtain ⟨hadd, hd⟩ := of_safeAdd hadd
  subst hs hsub hadd
  refine ⟨w, hw, ?_⟩
  rw [recordTransaction_value, value_credit, hd, value_debit hr.get hle, hr.value]
  ring

-- The fee of `TransferMallcoin`.
def feeOf (amount : UInt64) : ℕ :=
  let fee := amount.toNat * 97 / 10000000
  if fee = 0 ∧ amount ≠ 0 then 1 else fee

theorem of_transferFee {fee : ℤ} (h : Keeper.transferFee amount.toNat = .ok fee) :
    fee = feeOf amount := by
  simp only [Keeper.transferFee, Result.bind_eq_ok, Result.pure_eq_ok] at h
  obtain ⟨_, hm, q, hq, hf⟩ := h
  obtain ⟨_, hq⟩ := MathInt.of_mul_quo hm hq
  rw [Int.tdiv_eq_ediv_of_nonneg (by omega)] at hq
  have hz : (amount.toNat : ℤ) ≠ 0 ↔ amount ≠ 0 := by
    rw [Ne, Ne, ← UInt64.toNat_inj, UInt64.toNat_zero]
    omega
  rw [← hf, feeOf]
  by_cases h₀ : amount = 0
  case pos => simp [h₀] at hq ⊢; simp [hq]
  case neg =>
    simp only [hz, h₀, ne_eq, not_false_eq_true, and_true]
    split_ifs <;> omega

-- What the fee counter loses.
def feeDropped (s : State) (amount : UInt64) : ℤ :=
  dropped s.transactionFees (UInt64.ofNat (feeOf amount))

theorem value_addFee {fee : UInt64} :
    let feesAcc := s.feesAccumulated.getD {}
    State.value { s with
      feesAccumulated := some { feesAcc with transactionFees := feesAcc.transactionFees + fee } } =
      s.value + fee.toNat - dropped s.transactionFees fee := by
  simp only [value, transactionFees, Option.getD_some, toNat_add]
  ring

theorem of_transferMallcoin {creator toAddr txId : String}
    (h : k.transferMallcoin ctx creator toAddr amount s = .ok (s', txId)) :
    ∃ w, s.walletBalance.get creator = some w ∧
      s'.value = s.value - releaseDropped ctx w - feeDropped s amount := by
  simp only [Keeper.transferMallcoin, Result.bind_eq_ok, orFail_eq_ok, Result.pure_eq_ok,
    Prod.mk.injEq] at h
  obtain ⟨_, _, _, _, w, hw, h⟩ := h
  have hr := releaseVested_released ctx hw
  generalize Keeper.releaseVested ctx creator w s = r at h hr
  obtain ⟨_, _, fee, hfee, total, htotal, total', htotal', _, _, _, hsub, _, hadd, feeU, hfeeU, hs, _⟩ := h
  obtain ⟨hsub, hle⟩ := of_safeSub hsub
  obtain ⟨hadd, hd⟩ := of_safeAdd hadd
  have htotal := (of_toUint64 htotal').trans (MathInt.of_add htotal)
  have hfeeU := of_toUint64 hfeeU
  have hfee := of_transferFee hfee
  have hfeeU' : feeU = UInt64.ofNat (feeOf amount) := by
    have hn : feeU.toNat = feeOf amount := by omega
    rw [← hn, UInt64.ofNat_toNat]
  subst hs hsub hadd
  refine ⟨w, hw, ?_⟩
  rw [recordActivity_value, recordTransaction_value, value_addFee, value_credit, hd,
    value_debit hr.get hle, hr.value, feeDropped, ← hfeeU', ← hr.fees]
  simp only [transactionFees, setWallet]
  omega

-- Two wallets that are read before either is written, as long as they are different.
theorem value_move {owner recipient : String} (hne : owner ≠ recipient)
    (hw : s.walletBalance.get owner = some w) (hle : amount.toNat ≤ w.balance.toNat) :
    let r := (s.walletBalance.get recipient).getD { address := recipient, balance := 0 }
    ((s.setWallet owner { w with balance := w.balance - amount }).setWallet recipient
      { r with balance := r.balance + amount }).value =
      s.value - dropped ((s.walletBalance.get recipient).elim 0 (·.balance)) amount := by
  have hg : ∀ {x}, (s.setWallet owner x).walletBalance.get recipient = s.walletBalance.get recipient :=
    KVStore.get_set_ne hne.symm
  intro r
  rw [value_setWallet, value_debit hw hle, hg]
  simp only [r]
  cases s.walletBalance.get recipient with
  | none =>
    simp only [Option.getD_none, Option.elim, worth, toNat_add, UInt64.toNat_zero]
    ring
  | some r =>
    simp only [Option.getD_some, Option.elim, worth, toNat_add]
    ring

theorem of_transferFrom {owner spender recipient : String}
    (h : k.transferFrom ctx owner spender recipient amount s = .ok s') :
    amount ≠ 0 ∧ s'.value = s.value +
      (if owner = recipient then (amount.toNat : ℤ) else 0) -
      dropped ((s.walletBalance.get recipient).elim 0 (·.balance)) amount := by
  simp only [Keeper.transferFrom, Result.bind_eq_ok, failIf_eq_ok, orFail_eq_ok,
    Result.pure_eq_ok] at h
  obtain ⟨_, hz, _, _, _, _, _, _, _, _, w, hw, _, hle, hs⟩ := h
  have hle : amount.toNat ≤ w.balance.toNat := UInt64.le_iff_toNat_le.mp (UInt64.not_lt.mp hle)
  subst hs
  refine ⟨hz, ?_⟩
  rw [recordTransaction_value]
  by_cases heq : owner = recipient
  case pos =>
    -- the copy that was read before the debit overwrites the debited wallet
    subst heq
    simp only [value_setWallet, get_setWallet, setAllowance_value, setAllowance_walletBalance, hw,
      Option.getD_some, Option.elim, worth, toNat_add, toNat_sub hle, if_true]
    ring
  case neg =>
    simpa [heq] using value_move (s := Keeper.setAllowance owner spender _ s) heq hw hle

-- When a release, the fee counter and a credit stay below `2 ^ 64`.

def ReleaseFits (ctx : Context) (s : State) (addr : String) : Prop :=
  ∀ w, s.walletBalance.get addr = some w → Keeper.vested ctx w →
    w.balance.toNat + w.locked.toNat < 2 ^ 64

def FeeFits (s : State) (amount : UInt64) : Prop :=
  s.transactionFees.toNat + feeOf amount < 2 ^ 64

def CreditFits (s : State) (addr : String) (amount : UInt64) : Prop :=
  ((s.walletBalance.get addr).elim 0 (·.balance)).toNat + amount.toNat < 2 ^ 64

theorem releaseFits_iff (h : s.walletBalance.get addr = some w) :
    ReleaseFits ctx s addr ↔ releaseDropped ctx w = 0 := by
  simp only [ReleaseFits, h, Option.some.injEq, releaseDropped, forall_eq']
  split_ifs with hv
  · simp [hv, dropped_eq_zero_iff]
  · simp [hv]

theorem feeOf_lt : feeOf amount < 2 ^ 64 := by
  have h := amount.toNat_lt
  simp only [feeOf]
  split_ifs <;> omega

theorem feeFits_iff : FeeFits s amount ↔ feeDropped s amount = 0 := by
  rw [FeeFits, feeDropped, dropped_eq_zero_iff, UInt64.toNat_ofNat_of_lt' feeOf_lt]

theorem creditFits_iff :
    CreditFits s addr amount ↔
      dropped ((s.walletBalance.get addr).elim 0 (·.balance)) amount = 0 :=
  dropped_eq_zero_iff.symm

-- When the three transfers conserve what all wallets and the fee counter hold: a release, the fee
-- counter and the credit of `TransferFrom` must not wrap around, and `TransferFrom` must not pay the
-- owner.
theorem transfers_conserve_iff (k : Keeper) (ctx : Context) (s s' : State)
    (owner spender recipient : String) (amount : UInt64) :
    (∀ txId, k.transferMallcoin ctx owner recipient amount s = .ok (s', txId) →
      (s'.value = s.value ↔ ReleaseFits ctx s owner ∧ FeeFits s amount)) ∧
    (k.transfer ctx owner recipient amount s = .ok s' →
      (s'.value = s.value ↔ ReleaseFits ctx s owner)) ∧
    (k.transferFrom ctx owner spender recipient amount s = .ok s' →
      (s'.value = s.value ↔ owner ≠ recipient ∧ CreditFits s recipient amount)) := by
  refine ⟨fun txId h => ?_, fun h => ?_, fun h => ?_⟩
  · obtain ⟨w, hw, hv⟩ := of_transferMallcoin h
    have h₁ : 0 ≤ releaseDropped ctx w := releaseDropped_nonneg
    have h₂ : 0 ≤ feeDropped s amount := dropped_nonneg
    rw [releaseFits_iff hw, feeFits_iff, hv]
    omega
  · obtain ⟨w, hw, hv⟩ := of_transfer h
    rw [releaseFits_iff hw, hv]
    omega
  · obtain ⟨hz, hv⟩ := of_transferFrom h
    have hz : 0 < amount.toNat := Nat.pos_of_ne_zero fun hn => hz (UInt64.toNat_inj.mp hn)
    have hlt := amount.toNat_lt
    rw [creditFits_iff, hv, dropped]
    by_cases heq : owner = recipient
    case pos =>
      simp only [heq, if_true, ne_eq, not_true, false_and, iff_false]
      split_ifs <;> omega
    case neg =>
      simp only [heq, if_false, ne_eq, not_false_eq_true, true_and]
      split_ifs <;> omega

-- A ledger on which an owner approved a spender.
namespace Sample

def keeper : Keeper where
  stringToBytes addr := some (.ofBytes (addr.toList.map Char.toNat))
  authority          := .ofBytes [1]
  authorityString    := "gov"
  moduleAddr         := .ofBytes [2]
  treasuryAddr       := .ofBytes [3]
  mintAddr           := .ofBytes [4]

def block : Context where
  blockTime   := 1000
  blockHeight := 10

def ledger : State where
  walletBalance := KVStore.empty.set "owner" { address := "owner", balance := 20000000 }
  allowances    := KVStore.empty.set "owner|spender" 500

end Sample

-- An owner that is its own recipient gains the amount.
theorem self_transferFrom_creates :
    ¬∀ s', Sample.keeper.transferFrom Sample.block "owner" "spender" "owner" 500 Sample.ledger = .ok s' →
      s'.value = Sample.ledger.value := by
  intro h
  obtain ⟨s', hs⟩ := Result.isOk_iff.mp (by decide +kernel :
    (Sample.keeper.transferFrom Sample.block "owner" "spender" "owner" 500 Sample.ledger).isOk = true)
  have hv := (of_transferFrom hs).2
  rw [h s' hs] at hv
  revert hv
  decide +kernel

theorem sample_transfers_conserve : ∃ s₁ s₂ s₃ txId,
    Sample.keeper.transferMallcoin Sample.block "owner" "friend" 1000000 Sample.ledger = .ok (s₁, txId) ∧
    (s₁.value = Sample.ledger.value ↔
      ReleaseFits Sample.block Sample.ledger "owner" ∧ FeeFits Sample.ledger 1000000) ∧
    Sample.keeper.transfer Sample.block "owner" "friend" 1000000 Sample.ledger = .ok s₂ ∧
    (s₂.value = Sample.ledger.value ↔ ReleaseFits Sample.block Sample.ledger "owner") ∧
    Sample.keeper.transferFrom Sample.block "owner" "spender" "friend" 500 Sample.ledger = .ok s₃ ∧
    (s₃.value = Sample.ledger.value ↔ "owner" ≠ "friend" ∧ CreditFits Sample.ledger "friend" 500) := by
  obtain ⟨⟨s₁, txId⟩, h₁⟩ := Result.isOk_iff.mp (by decide +kernel :
    (Sample.keeper.transferMallcoin Sample.block "owner" "friend" 1000000 Sample.ledger).isOk = true)
  obtain ⟨s₂, h₂⟩ := Result.isOk_iff.mp (by decide +kernel :
    (Sample.keeper.transfer Sample.block "owner" "friend" 1000000 Sample.ledger).isOk = true)
  obtain ⟨s₃, h₃⟩ := Result.isOk_iff.mp (by decide +kernel :
    (Sample.keeper.transferFrom Sample.block "owner" "spender" "friend" 500 Sample.ledger).isOk = true)
  exact ⟨s₁, s₂, s₃, txId, h₁,
    (transfers_conserve_iff Sample.keeper Sample.block _ s₁ "owner" "" "friend" 1000000).1 txId h₁, h₂,
    (transfers_conserve_iff Sample.keeper Sample.block _ s₂ "owner" "" "friend" 1000000).2.1 h₂, h₃,
    (transfers_conserve_iff Sample.keeper Sample.block _ s₃ "owner" "spender" "friend" 500).2.2 h₃⟩

end Mlcoin
