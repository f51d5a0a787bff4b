import MallChain.Lib.ByteString
import MallChain.Mallpoints.Keeper

namespace Mallpoints

open Sdk ByteString

structure Params where
  pointsIssuer : String := ""
  deriving DecidableEq, Repr

structure ConversionWindow where
  isOpen       : Bool := false
  currentMonth : UInt64 := 0
  nextOpening  : UInt64 := 0
  deriving DecidableEq, Repr

-- All collections of the module.
structure Store extends State where
  params              : Option Params := none
  monthlyPointsIssued : KVStore String UInt64 := .empty
  conversionWindow    : Option ConversionWindow := none

structure PointsKeeper extends Keeper where
  sha256 : ByteString → ByteString

structure MsgAwardPoints where
  creator   : String
  recipient : String
  amount    : UInt64
  taskType  : String
  pow       : ByteString := []
  nonce     : UInt64 := 0

def errNoBadge : String := "user does not have a badge"
def errMonthlyCapExceeded : String := "monthly issuance cap exceeded"
def errUnauthorized : String := "unauthorized"

def monthlyPointsCap : UInt64 := 10000000000

-- A number with at least as many digits as the width.
def appendInt (x : ℤ) (width : ℕ) : String :=
  let digits := toString x.natAbs
  (if x < 0 then "-" else "") ++ String.ofList (List.replicate (width - digits.length) '0') ++ digits

-- `Format("2006-01")`
def monthKey (time : ℤ) : String :=
  appendInt (Calendar.year time) 4 ++ "-" ++ appendInt (Calendar.month time) 2

def safeAdd (a b : UInt64) : Result UInt64 := do
  failIf (a > UInt64.ofNat (2 ^ 64 - 1) - b)
    (Mlcoin.wrap errInvalidRequest "safeAdd: arithmetic overflow")
  return a + b

-- The leading zero bits of a digest.
def bitsLeading : ByteString → ℕ
  | [] => 0
  | b :: bs => if b = 0 then 8 + bitsLeading bs else 7 - b.val.log2

def requiredLeadingZeroBits : ℕ := 16

namespace PointsKeeper

variable (k : PointsKeeper)

def digest (msg : MsgAwardPoints) : ByteString :=
  k.sha256 (putUint64 msg.nonce ++ ofString msg.creator ++ ofString msg.recipient ++
    ofString msg.taskType ++ putUint64 msg.amount)

def powValid (msg : MsgAwardPoints) : Bool :=
  decide (0 < msg.pow.length) && decide (requiredLeadingZeroBits ≤ bitsLeading (k.digest msg)) &&
    decide (msg.pow.length = (k.digest msg).length) && decide (k.digest msg = msg.pow)

def awardPoints (ctx : Mlcoin.Context) (msg : MsgAwardPoints) (s : Store) : Result Store := do
  failIf (k.addressCodec msg.creator = none) (.error "invalid creator address")
  failIf (k.addressCodec msg.recipient = none) (.error "invalid recipient address")
  let params ← orFail s.params (Mlcoin.wrap errUnauthorized "points issuer not configured")
  failIf (params.pointsIssuer = "" ∨ msg.creator ≠ params.pointsIssuer)
    (Mlcoin.wrap errUnauthorized "creator is not the configured points issuer")
  let userPoints := (s.userPoints.get msg.recipient).getD { address := msg.recipient, points := 0 }
  failIf (msg.amount = 0) (Mlcoin.wrap errInvalidRequest "award amount must be > 0")
  let currentMonthKey := monthKey ctx.blockTime
  let monthlyIssued := (s.monthlyPointsIssued.get currentMonthKey).getD 0
  let newMonthlyIssued ← Mlcoin.orWrap (safeAdd monthlyIssued msg.amount)
    (Mlcoin.wrap errInvalidRequest "award amount overflow")
  failIf (newMonthlyIssued > monthlyPointsCap)
    (Mlcoin.wrap errMonthlyCapExceeded "monthly Mallpoints issuance cap exceeded")
  -- an engagement needs a proof of work or a badge
  failIf (msg.taskType = "engagement" ∧ k.powValid msg = false ∧ k.hasUserBadge msg.creator = false)
    (Mlcoin.wrap errNoBadge
      "creator missing required badge or valid PoW for engagement tasks")
  let newPoints ← Mlcoin.orWrap (safeAdd userPoints.points msg.amount)
    (Mlcoin.wrap errInvalidRequest "recipient points balance overflow")
  let userPoints := { userPoints with
    points         := newPoints
    tasksCompleted := userPoints.tasksCompleted + 1
    lastEarned     := .ofInt ctx.blockTime
  }
  return { s with
    userPoints          := s.userPoints.set msg.recipient userPoints
    monthlyPointsIssued := s.monthlyPointsIssued.set currentMonthKey newMonthlyIssued
  }

def convert (ctx : Mlcoin.Context) (creator : String) (amount : UInt64) (s : Store) : Result Store := do
  return { s with toState := ← k.convertToMallcoin ctx creator amount s.toState }

end PointsKeeper

namespace Store

def pointsOf (s : Store) (user : String) : ℕ :=
  ((s.userPoints.get user).map fun u => u.points.toNat).getD 0

def issuedIn (s : Store) (key : String) : ℕ :=
  ((s.monthlyPointsIssued.get key).map UInt64.toNat).getD 0

end Store

variable {k : PointsKeeper} {ctx : Mlcoin.Context} {msg : MsgAwardPoints} {s s' : Store}
variable {a b r amount : UInt64} {creator : String}

theorem of_safeAdd (h : safeAdd a b = .ok r) : r.toNat = a.toNat + b.toNat := by
  simp only [safeAdd, Result.bind_eq_ok, failIf_eq_ok, Result.pure_eq_ok, not_lt] at h
  obtain ⟨_, hle, rfl⟩ := h
  have hb := b.toNat_lt
  have hmax : (UInt64.ofNat (2 ^ 64 - 1)).toNat = 2 ^ 64 - 1 := rfl
  have hsub := UInt64.toNat_sub_of_le (UInt64.ofNat (2 ^ 64 - 1)) b (UInt64.le_iff_toNat_le.mpr (by omega))
  have hle := UInt64.le_iff_toNat_le.mp hle
  rw [UInt64.toNat_add, Nat.mod_eq_of_lt]
  omega

-- What an award asks for, and the two records that it changes.
structure Awarded (ctx : Mlcoin.Context) (msg : MsgAwardPoints) (s s' : Store) : Prop where
  issuer   : ∃ params, s.params = some params ∧ params.pointsIssuer ≠ "" ∧
    msg.creator = params.pointsIssuer
  amount   : msg.amount ≠ 0
  record   : ∃ old new : UserPoints,
    old = (s.userPoints.get msg.recipient).getD { address := msg.recipient, points := 0 } ∧
    new.index = old.index ∧ new.points.toNat = old.points.toNat + msg.amount.toNat ∧
    s'.userPoints = s.userPoints.set msg.recipient new
  issued   : ∃ new : UInt64, new.toNat = s.issuedIn (monthKey ctx.blockTime) + msg.amount.toNat ∧
    new ≤ monthlyPointsCap ∧
    s'.monthlyPointsIssued = s.monthlyPointsIssued.set (monthKey ctx.blockTime) new
  others   : s'.params = s.params ∧ s'.conversionWindow = s.conversionWindow ∧
    s'.intervals = s.intervals ∧ s'.mlcoin = s.mlcoin

theorem of_awardPoints (h : k.awardPoints ctx msg s = .ok s') :
    Awarded ctx msg s s' ∧ k.addressCodec msg.recipient ≠ none := by
  simp only [PointsKeeper.awardPoints, Result.bind_eq_ok, failIf_eq_ok, orFail_eq_ok,
    Result.pure_eq_ok, Mlcoin.orWrap_eq_ok, not_or, not_not, not_lt] at h
  obtain ⟨_, _, _, hrec, params, hp, _, hissuer, _, hz, newIssued, hissued, _, hcap, _, _, newPoints,
    hpoints, rfl⟩ := h
  refine ⟨⟨⟨params, hp, hissuer⟩, hz, ⟨_, _, rfl, ?index, ?points, rfl⟩,
    ⟨newIssued, ?issued, hcap, rfl⟩, rfl, rfl, rfl, rfl⟩, hrec⟩
  case index  => rfl
  case points => exact of_safeAdd hpoints
  case issued =>
    rw [of_safeAdd hissued, Store.issuedIn]
    cases s.monthlyPointsIssued.get (monthKey ctx.blockTime) <;> rfl

-- What a conversion takes from the points of its user.
structure Converted (creator : String) (amount : UInt64) (s s' : Store) : Prop where
  record : ∃ old new : UserPoints, s.userPoints.get creator = some old ∧
    new.index = old.index ∧ old.points.toNat = new.points.toNat + amount.toNat ∧
    s'.userPoints = s.userPoints.set creator new
  others : s'.params = s.params ∧ s'.conversionWindow = s.conversionWindow ∧
    s'.intervals = s.intervals ∧ s'.monthlyPointsIssued = s.monthlyPointsIssued

theorem of_convert (h : k.convert ctx creator amount s = .ok s') :
    Converted creator amount s s' ∧ k.addressCodec creator ≠ none := by
  simp only [PointsKeeper.convert, Keeper.convertToMallcoin, Keeper.mintToUser, Result.bind_eq_ok,
    failIf_eq_ok, orFail_eq_ok, Mlcoin.wrapErr_eq_ok, Result.pure_eq_ok, not_lt] at h
  obtain ⟨_, ⟨_, hcodec, _, _, _, _, _, _, old, hget, _, hle, _, _, rfl⟩, rfl⟩ := h
  refine ⟨⟨⟨old, _, hget, ?index, ?points, rfl⟩, rfl, rfl, rfl, rfl⟩, hcodec⟩
  case index  => rfl
  case points =>
    have hsub := UInt64.toNat_sub_of_le old.points amount hle
    have hnat := UInt64.le_iff_toNat_le.mp hle
    simp only [hsub]
    omega

end Mallpoints
