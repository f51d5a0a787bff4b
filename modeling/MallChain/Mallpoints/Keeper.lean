import MallChain.Mlcoin.Market

namespace Mallpoints

open Sdk

structure ModuleIntervals where
  monthlyPointsCap      : UInt64 := 10000000000
  badgeConversionDay    : UInt64 := 15
  nonBadgeConversionDay : UInt64 := 27
  nonBadgeConversionMon : UInt64 := 12
  deriving DecidableEq, Repr

structure UserPoints where
  index          : String := ""
  address        : String
  points         : UInt64
  tasksCompleted : UInt64 := 0
  lastEarned     : UInt64 := 0
  deriving DecidableEq, Repr

-- The collections of the module, and the state of the mlcoin keeper.
structure State where
  intervals  : Option ModuleIntervals := none
  userPoints : KVStore String UserPoints := .empty
  mlcoin     : Mlcoin.State := {}

structure Keeper where
  addressCodec : String → Option AccAddress
  hasUserBadge : String → Bool

def errUserNotFound : String := "user not found"
def errInsufficientPoints : String := "insufficient Mallpoints balance"
def errConversionWindowClosed : String := "conversion window is closed"
def errInvalidRequest : String := "invalid request"

def defaultMlptsPerMlcns : UInt64 := 3200000
def mlptsPerMlcnsScale : UInt64 := 1000000

namespace State

def getModuleIntervals (s : State) : ModuleIntervals :=
  s.intervals.getD {}

-- A ratio that is not set, or zero, is the default.
def getConversionRatio (s : State) : UInt64 × UInt64 :=
  match s.mlcoin.params with
  | none   => (defaultMlptsPerMlcns, mlptsPerMlcnsScale)
  | some p =>
    if p.mlptsPerMlcns = 0 then (defaultMlptsPerMlcns, mlptsPerMlcnsScale)
    else (p.mlptsPerMlcns, mlptsPerMlcnsScale)

end State

def safeMulDiv (a b c : UInt64) : Result UInt64 := do
  failIf (c = 0) (Mlcoin.wrap errInvalidRequest "safeMulDiv: divisor is zero")
  if b = 0 then return 0
  failIf (a.toNat > (2 ^ 64 - 1) / b.toNat)
    (Mlcoin.wrap errInvalidRequest "safeMulDiv: arithmetic overflow")
  return a * b / c

-- The coins that a conversion mints.
def mintedAmount (amount : UInt64) (s : State) : Result UInt64 :=
  safeMulDiv amount s.getConversionRatio.1 s.getConversionRatio.2

namespace Keeper

variable (k : Keeper) (ctx : Mlcoin.Context)

def checkConversionWindow (creator : String) (s : State) : Result Unit :=
  let dayOfMonth := UInt64.ofInt (Calendar.dayOfMonth ctx.blockTime)
  let monthOfYear := UInt64.ofInt (Calendar.month ctx.blockTime)
  let intervals := s.getModuleIntervals
  if k.hasUserBadge creator then
    failIf (dayOfMonth ≠ intervals.badgeConversionDay) (Mlcoin.wrap errConversionWindowClosed
      "badge holders can only convert on configured conversion day")
  else
    failIf (¬(monthOfYear = intervals.nonBadgeConversionMon ∧
        dayOfMonth = intervals.nonBadgeConversionDay)) (Mlcoin.wrap errConversionWindowClosed
      "non-badge holders can only convert on configured annual conversion date")

def mintToUser (address : String) (amount : UInt64) (s : State) : Result State := do
  let mlcoin ← Mlcoin.Keeper.withMintingEnabled fun enabled =>
    Mlcoin.Keeper.mintToWallet enabled ctx address amount s.mlcoin
  return { s with mlcoin }

def convertToMallcoin (creator : String) (amount : UInt64) (s : State) : Result State := do
  failIf (k.addressCodec creator = none) (.error "invalid creator address")
  let minted ← Mlcoin.wrapErr "conversion ratio math" (mintedAmount amount s)
  failIf (minted = 0 ∧ amount > 0) (Mlcoin.wrap errInvalidRequest
    (s!"convert amount {amount} points rounds down to zero coins at ratio " ++
      s!"{s.getConversionRatio.1}/{s.getConversionRatio.2}; increase amount"))
  k.checkConversionWindow ctx creator s
  let userPoints ← orFail (s.userPoints.get creator)
    (Mlcoin.wrap errUserNotFound "user has no Mallpoints")
  failIf (userPoints.points < amount)
    (Mlcoin.wrap errInsufficientPoints "insufficient Mallpoints balance")
  let s := { s with
    userPoints := s.userPoints.set creator { userPoints with points := userPoints.points - amount }
  }
  Mlcoin.wrapErr s!"failed to mint {minted} Mallcoins" (mintToUser ctx creator minted s)

end Keeper

variable {a b c minted : UInt64}

theorem of_safeMulDiv (h : safeMulDiv a b c = .ok minted) :
    minted.toNat = a.toNat * b.toNat / c.toNat := by
  by_cases hb : b = 0
  case pos =>
    subst hb
    simp only [safeMulDiv, if_true, Result.bind_eq_ok, Result.pure_eq_ok] at h
    obtain ⟨_, _, hm⟩ := h
    rw [← hm, UInt64.toNat_zero, mul_zero, Nat.zero_div]
  case neg =>
    simp only [safeMulDiv, hb, if_false, Result.bind_eq_ok, failIf_eq_ok, Result.pure_eq_ok] at h
    obtain ⟨_, _, _, hle, hm⟩ := h
    have hpos : 0 < b.toNat := Nat.pos_of_ne_zero fun hz => hb (UInt64.toNat_inj.mp hz)
    have hmul : a.toNat * b.toNat ≤ 2 ^ 64 - 1 :=
      (Nat.le_div_iff_mul_le hpos).mp (not_lt.mp hle)
    have hlt : a.toNat * b.toNat < 2 ^ 64 := by omega
    rw [← hm, UInt64.toNat_div, UInt64.toNat_mul, Nat.mod_eq_of_lt hlt]

-- What a conversion mints, and that it is minted.
theorem of_convertToMallcoin {k : Keeper} {ctx : Mlcoin.Context} {creator : String} {amount : UInt64}
    {s s' : State} (h : k.convertToMallcoin ctx creator amount s = .ok s') :
    ∃ minted, mintedAmount amount s = .ok minted ∧ ¬(minted = 0 ∧ amount > 0) ∧
      Mlcoin.Keeper.mintToWallet true ctx creator minted s.mlcoin = .ok s'.mlcoin := by
  simp only [Keeper.convertToMallcoin, Keeper.mintToUser, Result.bind_eq_ok, failIf_eq_ok,
    Mlcoin.wrapErr_eq_ok, Result.pure_eq_ok] at h
  obtain ⟨_, _, minted, hm, _, hz, _, _, _, _, _, _, mlcoin, hw, hs⟩ := h
  subst hs
  exact ⟨minted, hm, hz, hw⟩

end Mallpoints
