import MallChain.Mlcoin.Types

namespace Mlcoin

open Sdk

def safeSub (a b : UInt64) : Result UInt64 := do
  failIf (b > a) (wrap errInvalidRequest "arithmetic underflow")
  return a - b

def safeAdd (a b : UInt64) : Result UInt64 := do
  failIf (a.toNat > 2 ^ 64 - 1 - b.toNat) (wrap errInvalidRequest "arithmetic overflow")
  return a + b

-- `math.Int.Uint64`
def toUint64 (x : ℤ) : Result UInt64 :=
  if 0 ≤ x ∧ x < 2 ^ 64 then .ok (UInt64.ofNat x.toNat) else .error (.panic "Uint64() out of bounds")

theorem of_safeSub {a b c : UInt64} (h : safeSub a b = .ok c) : c = a - b ∧ b.toNat ≤ a.toNat := by
  simp only [safeSub, Result.bind_eq_ok, failIf_eq_ok, Result.pure_eq_ok] at h
  obtain ⟨_, hle, hc⟩ := h
  exact ⟨hc.symm, UInt64.le_iff_toNat_le.mp (UInt64.not_lt.mp hle)⟩

theorem of_safeAdd {a b c : UInt64} (h : safeAdd a b = .ok c) : c = a + b ∧ dropped a b = 0 := by
  simp only [safeAdd, Result.bind_eq_ok, failIf_eq_ok, Result.pure_eq_ok] at h
  obtain ⟨_, hle, hc⟩ := h
  have hb := b.toNat_lt
  exact ⟨hc.symm, dropped_eq_zero_iff.mpr (by omega)⟩

theorem of_toUint64 {x : ℤ} {c : UInt64} (h : toUint64 x = .ok c) : (c.toNat : ℤ) = x := by
  simp only [toUint64] at h
  split_ifs at h with hx
  cases h
  have hlt : x.toNat < 2 ^ 64 := by omega
  rw [UInt64.toNat_ofNat_of_lt' hlt]
  omega

namespace Keeper

def validateAddress (k : Keeper) (addr text : String) : Result Unit :=
  failIf (k.stringToBytes addr = none) (.error text)

def recordTransaction (ctx : Context) (fromAddr toAddr : String) (amount : UInt64)
    (txType memo : String) (s : State) : State × String :=
  let txId := s!"TX-{s.transactionCount}"
  let transaction : Transaction := {
    txId        := txId
    fromAddr    := fromAddr
    toAddr      := toAddr
    amount      := amount
    txType      := txType
    timestamp   := ctx.blockTime
    blockHeight := ctx.blockHeight
    memo        := memo
  }
  ({ s with
    transactionCount := s.transactionCount + 1
    transactions     := s.transactions.set txId transaction
  }, txId)

def recordActivity (volume : UInt64) (users : List String) (s : State) : State :=
  let metrics := s.activityMetrics.getD {}
  let metrics := { metrics with
    totalTransactions := metrics.totalTransactions + 1
    totalVolume       := metrics.totalVolume + volume
    activeUsers       := metrics.activeUsers + UInt64.ofNat users.dedup.length
  }
  let metrics := if metrics.totalTransactions > 1000000 then
    { metrics with totalTransactions := 0, totalVolume := 0, activeUsers := 0, engagementScore := 0 }
  else metrics
  { s with activityMetrics := some metrics }

-- A wallet whose unlock time has come. The addition is not checked.
def vested (ctx : Context) (wallet : WalletBalance) : Prop :=
  wallet.locked > 0 ∧ wallet.unlockTime > 0 ∧ ctx.blockTime ≥ wallet.unlockTime

instance (ctx : Context) (wallet : WalletBalance) : Decidable (vested ctx wallet) :=
  inferInstanceAs (Decidable (_ ∧ _))

def releaseVested (ctx : Context) (addr : String) (wallet : WalletBalance) (s : State) :
    State × WalletBalance :=
  if vested ctx wallet then
    let wallet := { wallet with
      balance    := wallet.balance + wallet.locked
      locked     := 0
      unlockTime := 0
    }
    (s.setWallet addr wallet, wallet)
  else (s, wallet)

def transfer (k : Keeper) (ctx : Context) (sender recipient : String) (amount : UInt64)
    (s : State) : Result State := do
  failIf (sender = "" ∨ recipient = "")
    (wrap errInvalidRequest "sender and recipient must be specified")
  k.validateAddress sender "invalid sender address"
  k.validateAddress recipient "invalid recipient address"
  let wallet ← orFail (s.walletBalance.get sender) (wrap errWalletNotFound "sender wallet not found")
  let (s, wallet) := releaseVested ctx sender wallet s
  failIf (wallet.balance < amount) (wrap errInsufficientBalance "sender has insufficient balance")
  let newBalance ← safeSub wallet.balance amount
  let s := s.setWallet sender { wallet with balance := newBalance }
  let receiverWallet := (s.walletBalance.get recipient).getD { address := recipient, balance := 0 }
  let newReceiverBalance ← safeAdd receiverWallet.balance amount
  let s := s.setWallet recipient { receiverWallet with balance := newReceiverBalance }
  return (recordTransaction ctx sender recipient amount "transfer" "WASM bridge transfer" s).1

-- 0.0097 percent of the amount, and at least one unit of an amount that is not zero.
def transferFee (amount : ℤ) : Result ℤ := do
  let fee ← MathInt.quo (← MathInt.mul amount 97) 10000000
  return if fee = 0 ∧ amount ≠ 0 then 1 else fee

def transferMallcoin (k : Keeper) (ctx : Context) (creator toAddr : String) (amount : UInt64)
    (s : State) : Result (State × String) := do
  k.validateAddress creator "invalid sender address"
  k.validateAddress toAddr "invalid recipient address"
  let wallet ← orFail (s.walletBalance.get creator) (.error "sender wallet not found")
  let (s, wallet) := releaseVested ctx creator wallet s
  failIf (wallet.locked > 0) (wrap errLockedFunds "cannot transfer from locked wallet")
  let fee ← transferFee amount.toNat
  let totalDeduction ← toUint64 (← MathInt.add amount.toNat fee)
  failIf (wallet.balance < totalDeduction) (wrap errInsufficientBalance "insufficient balance")
  let newSenderBalance ← safeSub wallet.balance totalDeduction
  let s := s.setWallet creator { wallet with balance := newSenderBalance }
  let receiverWallet := (s.walletBalance.get toAddr).getD { address := toAddr, balance := 0 }
  let newReceiverBalance ← safeAdd receiverWallet.balance amount
  let s := s.setWallet toAddr { receiverWallet with balance := newReceiverBalance }
  let feesAcc := s.feesAccumulated.getD {}
  let feesAcc := { feesAcc with transactionFees := feesAcc.transactionFees + (← toUint64 fee) }
  let s := { s with feesAccumulated := some feesAcc }
  let (s, txId) := recordTransaction ctx creator toAddr amount "transfer" "P2P transfer" s
  return (recordActivity amount [creator, toAddr] s, txId)

def allowanceKey (owner spender : String) : String :=
  owner ++ "|" ++ spender

def getAllowance (owner spender : String) (s : State) : UInt64 :=
  (s.allowances.get (allowanceKey owner spender)).getD 0

def setAllowance (owner spender : String) (amount : UInt64) (s : State) : State :=
  { s with allowances := s.allowances.set (allowanceKey owner spender) amount }

def approve (k : Keeper) (owner spender : String) (amount : UInt64) (s : State) : Result State := do
  failIf (owner = "" ∨ spender = "")
    (wrap errInvalidRequest "owner and spender must be specified")
  k.validateAddress owner "invalid owner address"
  k.validateAddress spender "invalid spender address"
  return setAllowance owner spender amount s

def transferFrom (k : Keeper) (ctx : Context) (owner spender recipient : String) (amount : UInt64)
    (s : State) : Result State := do
  failIf (amount = 0) (wrap errInvalidRequest "transfer amount must be greater than zero")
  k.validateAddress owner "invalid owner address"
  k.validateAddress spender "invalid spender address"
  k.validateAddress recipient "invalid recipient address"
  let allowance := getAllowance owner spender s
  failIf (allowance < amount) (wrap errInsufficientAllowance "allowance too low")
  let ownerWallet ← orFail (s.walletBalance.get owner) (wrap errWalletNotFound "owner wallet not found")
  failIf (ownerWallet.balance < amount)
    (wrap errInsufficientBalance "owner has insufficient balance")
  -- both wallets are read before either is written, and the addition is not checked
  let recipientWallet := (s.walletBalance.get recipient).getD { address := recipient, balance := 0 }
  let s := setAllowance owner spender (allowance - amount) s
  let s := s.setWallet owner { ownerWallet with balance := ownerWallet.balance - amount }
  let s := s.setWallet recipient { recipientWallet with balance := recipientWallet.balance + amount }
  return (recordTransaction ctx owner recipient amount "transfer_from" "Allowed transfer" s).1

end Keeper

end Mlcoin
