import MallChain.Lib.Calendar
import MallChain.Mlcoin.Transfer

namespace Mlcoin

open Sdk

-- `errorsmod.Wrap` with another error in place of the one that was returned.
def orWrap {α : Type} (r : Result α) (e : Failure) : Result α :=
  match r with
  | .ok a => .ok a
  | .error _ => .error e

@[simp]
theorem orWrap_eq_ok {α : Type} {r : Result α} {e : Failure} {a : α} :
    orWrap r e = .ok a ↔ r = .ok a := by
  cases r <;> simp [orWrap]

def phaseMonths : UInt64 := 36
def phaseOneMonthly : ℕ := 3000000

-- The monthly emission halves every 36 months.
def getMonthlyEmission (month : UInt64) : UInt64 :=
  let month := if month = 0 then 1 else month
  let phase := (month - 1) / phaseMonths
  if phase < 64 then .ofNat (phaseOneMonthly >>> phase.toNat) else 0

def isLeapYear (year : ℤ) : Bool :=
  (year % 4 = 0 && year % 100 ≠ 0) || year % 400 = 0

def daysInMonth (m year : ℤ) : UInt64 :=
  if m ∈ [1, 3, 5, 7, 8, 10, 12] then 31
  else if m ∈ [4, 6, 9, 11] then 30
  else if m = 2 then if isLeapYear year then 29 else 28
  else 30

namespace State

-- The wallet of an address, or a new one.
def wallet (s : State) (addr : String) : WalletBalance :=
  (s.walletBalance.get addr).getD { address := addr, balance := 0 }

end State

namespace EmissionState

-- A part of what is minted is burned at once.
def burnAmount (e : EmissionState) (amount : UInt64) : UInt64 :=
  amount * e.burnRateBps / 10000

def netAmount (e : EmissionState) (amount : UInt64) : UInt64 :=
  amount - e.burnAmount amount

def minted (e : EmissionState) (amount : UInt64) : EmissionState := { e with
  circulating  := e.circulating + amount - e.burnAmount amount
  emittedTotal := e.emittedTotal + amount
  burnedTotal  := e.burnedTotal + e.burnAmount amount
}

-- A new month starts with nothing emitted.
def scheduled (e : EmissionState) (time : ℤ) (month : UInt64) : EmissionState :=
  let monthlyEmission := getMonthlyEmission month
  let dailyEmission := monthlyEmission / daysInMonth (Calendar.month time) (Calendar.year time)
  let e := if e.currentMonth ≠ month then { e with currentMonth := month, emittedTotal := 0 } else e
  { e with dailyLimit := dailyEmission }

-- The mint and a burn are recorded.
def records (e : EmissionState) (amount : UInt64) : UInt64 :=
  if e.burnAmount amount > 0 then 2 else 1

end EmissionState

namespace Keeper

def recordMint (ctx : Context) (address : String) (amount burnAmount : UInt64) (s : State) : State :=
  let s := (recordTransaction ctx "system" address amount "mint" "Minted from conversion or reward" s).1
  if burnAmount > 0 then
    (recordTransaction ctx "system" "burn" burnAmount "burn" "Auto-burn on mint" s).1
  else s

def mintToWallet (internalMinting : Bool) (ctx : Context) (address : String) (amount : UInt64)
    (s : State) : Result State := do
  failIf (internalMinting = false) (wrap errUnauthorized "minting not enabled for this caller")
  let e ← orFail s.emissionState (wrap errInvalidSupply "emission state not initialized")
  let newCirculating ← orWrap (safeAdd e.circulating amount)
    (wrap errInvalidSupply "circulating supply overflow")
  failIf (newCirculating > e.totalSupply)
    (wrap errSupplyExhausted "cannot mint more than total supply")
  failIf (amount > e.dailyLimit)
    (wrap errDailyLimitExceeded "amount exceeds daily emission limit")
  let walletBalance := s.wallet address
  let newBalance ← orWrap (safeAdd walletBalance.balance (e.netAmount amount))
    (wrap errInvalidSupply "wallet balance overflow on mint")
  let s := s.setWallet address { walletBalance with balance := newBalance }
  let s := { s with emissionState := some (e.minted amount) }
  return recordMint ctx address amount (e.burnAmount amount) s

-- The flag is reset when the function returns.
def withMintingEnabled (fn : Bool → Result State) : Result State :=
  fn true

def absoluteMonth (time : ℤ) : UInt64 :=
  UInt64.ofInt (Calendar.year time * 12 + Calendar.month time)

-- The first tick is in the first month.
def monthAnchor (time : ℤ) (s : State) : UInt64 :=
  s.emissionMonthAnchor.getD (absoluteMonth time)

def monthsSinceGenesis (time : ℤ) (s : State) : UInt64 :=
  absoluteMonth time - monthAnchor time s + 1

def updateEmissionSchedule (ctx : Context) (s : State) : Result State := do
  let e ← orFail s.emissionState (wrap errInvalidSupply "emission state not initialized")
  return { s with
    emissionMonthAnchor := some (monthAnchor ctx.blockTime s)
    emissionState       := some (e.scheduled ctx.blockTime (monthsSinceGenesis ctx.blockTime s))
  }

end Keeper

-- What a successful mint did.
structure Minted (address : String) (amount : UInt64) (e : EmissionState) (s s' : State) : Prop where
  emission : s.emissionState = some e
  supply   : e.circulating.toNat + amount.toNat ≤ e.totalSupply.toNat
  limit    : amount.toNat ≤ e.dailyLimit.toNat
  balance  : (s.wallet address).balance.toNat + (e.netAmount amount).toNat < 2 ^ 64
  state    : s' = { s with
    walletBalance := s.walletBalance.set address
      { s.wallet address with balance := (s.wallet address).balance + e.netAmount amount }
    emissionState    := some (e.minted amount)
    transactions     := s'.transactions
    transactionCount := s.transactionCount + e.records amount
  }

variable {ctx : Context} {s s' : State} {address : String} {amount : UInt64}

theorem recordMint_eq {e : EmissionState} :
    Keeper.recordMint ctx address amount (e.burnAmount amount) s = { s with
      transactions     := (Keeper.recordMint ctx address amount (e.burnAmount amount) s).transactions
      transactionCount := s.transactionCount + e.records amount
    } := by
  simp only [Keeper.recordMint, EmissionState.records]
  split_ifs
  · simp only [Keeper.recordTransaction, add_assoc]
    rfl
  · rfl

theorem of_mintToWallet {internalMinting : Bool}
    (h : Keeper.mintToWallet internalMinting ctx address amount s = .ok s') :
    ∃ e, Minted address amount e s s' := by
  simp only [Keeper.mintToWallet, Result.bind_eq_ok, failIf_eq_ok, orFail_eq_ok, orWrap_eq_ok,
    Result.pure_eq_ok] at h
  obtain ⟨_, _, e, he, _, hc, _, ht, _, hd, _, hb, hs⟩ := h
  obtain ⟨hc, hc'⟩ := of_safeAdd hc
  obtain ⟨hb, hb'⟩ := of_safeAdd hb
  have hcirc := toNat_add (a := e.circulating) (b := amount)
  rw [UInt64.not_lt, UInt64.le_iff_toNat_le] at ht hd
  rw [recordMint_eq] at hs
  subst hs hc hb
  exact ⟨e, he, by omega, hd, dropped_eq_zero_iff.mp hb', rfl⟩

-- What a tick of the schedule did.
structure Scheduled (ctx : Context) (e : EmissionState) (s s' : State) : Prop where
  emission  : s.emissionState = some e
  anchor    : s'.emissionMonthAnchor = some (Keeper.monthAnchor ctx.blockTime s)
  scheduled : s'.emissionState =
    some (e.scheduled ctx.blockTime (Keeper.monthsSinceGenesis ctx.blockTime s))

theorem of_updateEmissionSchedule (h : Keeper.updateEmissionSchedule ctx s = .ok s') :
    (∃ e, Scheduled ctx e s s') ∧ s' = { s with
      emissionMonthAnchor := s'.emissionMonthAnchor
      emissionState       := s'.emissionState
    } := by
  simp only [Keeper.updateEmissionSchedule, Result.bind_eq_ok, orFail_eq_ok,
    Result.pure_eq_ok] at h
  obtain ⟨e, he, rfl⟩ := h
  exact ⟨⟨e, he, rfl, rfl⟩, rfl⟩

end Mlcoin
