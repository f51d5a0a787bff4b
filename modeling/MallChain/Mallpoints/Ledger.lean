import MallChain.Lib.Transition
import MallChain.Mallpoints.Award

namespace Mallpoints

open Sdk

-- The module with the awards, each with its time, and the conversions that succeeded.
structure World where
  store       : Store
  awards      : List (ℤ × UInt64)
  conversions : List UInt64

-- Every message meets its own badges and block, and between them the other modules and the
-- governance do what they like to the state that is theirs.
inductive Action
  | award (k : PointsKeeper) (ctx : Mlcoin.Context) (msg : MsgAwardPoints)
  | convert (k : PointsKeeper) (ctx : Mlcoin.Context) (creator : String) (amount : UInt64)
  | elsewhere (params : Option Params) (intervals : Option ModuleIntervals) (mlcoin : Mlcoin.State)

def World.next (w : World) : Action → World
  | .award k ctx msg =>
    match k.awardPoints ctx msg w.store with
    | .ok store => { w with store := store, awards := (ctx.blockTime, msg.amount) :: w.awards }
    | .error _ => w
  | .convert k ctx creator amount =>
    match k.convert ctx creator amount w.store with
    | .ok store => { w with store := store, conversions := amount :: w.conversions }
    | .error _ => w
  | .elsewhere params intervals mlcoin =>
    { w with store := { w.store with params := params, intervals := intervals, mlcoin := mlcoin } }

-- The ledger starts without points.
def ledger : TransitionSystem World Action where
  init w := w.store.userPoints = .empty ∧ w.store.monthlyPointsIssued = .empty ∧ w.awards = [] ∧
    w.conversions = []
  step w a w' := w' = w.next a

def total (amounts : List UInt64) : ℕ :=
  (amounts.map UInt64.toNat).sum

-- What was awarded at the times that pass a test.
def awardedWhen (p : ℤ → Bool) (awards : List (ℤ × UInt64)) : ℕ :=
  total ((awards.filter fun a => p a.1).map (·.2))

-- What all users have.
def Store.balances (s : Store) : ℤ :=
  s.userPoints.sum fun _ u => (u.points.toNat : ℤ)

variable {w : World} {s s' : Store} {ctx : Mlcoin.Context} {msg : MsgAwardPoints}
variable {creator : String} {amount : UInt64} {p q : ℤ → Bool} {awards : List (ℤ × UInt64)}

@[simp]
theorem total_cons {amounts : List UInt64} :
    total (amount :: amounts) = amount.toNat + total amounts := by
  simp [total]

theorem awardedWhen_cons {time : ℤ} :
    awardedWhen p ((time, amount) :: awards) =
      (if p time = true then amount.toNat else 0) + awardedWhen p awards := by
  by_cases h : p time = true <;> simp [awardedWhen, h]

theorem awardedWhen_mono (h : ∀ time, p time = true → q time = true) :
    awardedWhen p awards ≤ awardedWhen q awards := by
  induction awards with
  | nil => exact le_refl _
  | cons a awards ih =>
    rw [awardedWhen_cons, awardedWhen_cons]
    have hone : (if p a.1 = true then a.2.toNat else 0) ≤ if q a.1 = true then a.2.toNat else 0 := by
      by_cases hp : p a.1 = true
      case pos => rw [if_pos hp, if_pos (h _ hp)]
      case neg => rw [if_neg hp]; exact Nat.zero_le _
    omega

theorem Awarded.balances (h : Awarded ctx msg s s') :
    s'.balances = s.balances + msg.amount.toNat := by
  obtain ⟨old, new, hold, _, hpoints, hset⟩ := h.record
  rw [Store.balances, hset, Store.balances]
  cases hget : s.userPoints.get msg.recipient with
  | none =>
    rw [KVStore.sum_set_new hget, hpoints, hold, hget]
    simp
  | some u =>
    rw [KVStore.sum_set_old hget, hpoints, hold, hget]
    push_cast
    simp only [Option.getD_some]
    ring

theorem Converted.balances (h : Converted creator amount s s') :
    s'.balances = s.balances - amount.toNat := by
  obtain ⟨old, new, hget, _, hpoints, hset⟩ := h.record
  rw [Store.balances, hset, Store.balances, KVStore.sum_set_old hget, hpoints]
  push_cast
  ring

theorem Awarded.issuedIn (h : Awarded ctx msg s s') (key : String) :
    s'.issuedIn key = s.issuedIn key +
      if monthKey ctx.blockTime = key then msg.amount.toNat else 0 := by
  obtain ⟨new, hnew, _, hset⟩ := h.issued
  rw [Store.issuedIn, hset, KVStore.get_set]
  by_cases hk : monthKey ctx.blockTime = key
  case pos => simp [← hk, hnew]
  case neg =>
    rw [if_neg (Ne.symm hk), if_neg hk]
    rfl

-- The map of the months and the points of the users tell the history of the module.
structure World.Balanced (w : World) : Prop where
  issued : ∀ key, w.store.issuedIn key = awardedWhen (fun time => monthKey time = key) w.awards
  cap    : ∀ key, w.store.issuedIn key ≤ monthlyPointsCap.toNat
  points : w.store.balances = total (w.awards.map (·.2)) - total w.conversions

theorem World.Balanced.award (h : w.Balanced) (ha : Awarded ctx msg w.store s') :
    World.Balanced { w with store := s', awards := (ctx.blockTime, msg.amount) :: w.awards } where
  issued key := by
    rw [ha.issuedIn key, h.issued key, awardedWhen_cons, add_comm]
    simp only [decide_eq_true_eq]
  cap key := by
    obtain ⟨new, hnew, hle, hset⟩ := ha.issued
    have hle := UInt64.le_iff_toNat_le.mp hle
    have hkey := ha.issuedIn key
    by_cases hk : monthKey ctx.blockTime = key
    case pos =>
      rw [if_pos hk, ← hk, ← hnew, hk] at hkey
      exact hkey ▸ hle
    case neg =>
      rw [if_neg hk, add_zero] at hkey
      exact hkey ▸ h.cap key
  points := by
    rw [ha.balances, h.points, List.map_cons, total_cons]
    push_cast
    ring

theorem World.Balanced.convert (h : w.Balanced) (hc : Converted creator amount w.store s') :
    World.Balanced { w with store := s', conversions := amount :: w.conversions } where
  issued key := by
    have hsame : s'.issuedIn key = w.store.issuedIn key := by
      rw [Store.issuedIn, hc.others.2.2.2, Store.issuedIn]
    exact hsame.trans (h.issued key)
  cap key := by
    have hsame : s'.issuedIn key = w.store.issuedIn key := by
      rw [Store.issuedIn, hc.others.2.2.2, Store.issuedIn]
    exact hsame.trans_le (h.cap key)
  points := by
    rw [hc.balances, h.points, total_cons]
    push_cast
    ring

theorem balanced_invariant : ledger.Invariant (fun _ _ => True) World.Balanced where
  init := by
    rintro w ⟨hpoints, hissued, hawards, hconversions⟩
    have hzero : ∀ key, w.store.issuedIn key = 0 := by
      intro key
      rw [Store.issuedIn, hissued]
      rfl
    refine ⟨fun key => ?_, fun key => ?_, ?_⟩
    · rw [hzero, hawards]
      rfl
    · rw [hzero]
      exact Nat.zero_le _
    · rw [Store.balances, hpoints, hawards, hconversions]
      rfl
  step := by
    rintro w a w' h _ rfl
    cases a with
    | award k ctx msg =>
      simp only [World.next]
      split
      case h_1 s' hok => exact h.award (of_awardPoints hok).1
      case h_2 => exact h
    | convert k ctx creator amount =>
      simp only [World.next]
      split
      case h_1 s' hok => exact h.convert (of_convert hok).1
      case h_2 => exact h
    | elsewhere => exact ⟨h.issued, h.cap, h.points⟩

-- In no month more is awarded than the cap, only the configured issuer awards, and the users
-- together have what was awarded and not converted.
theorem cap_and_ledger {w : World} (h : ledger.Reachable w) :
    (∀ year month, awardedWhen (fun time => Calendar.year time = year ∧ Calendar.month time = month)
      w.awards ≤ monthlyPointsCap.toNat) ∧
    (∀ (k : PointsKeeper) (ctx : Mlcoin.Context) (msg : MsgAwardPoints) (s' : Store),
      k.awardPoints ctx msg w.store = .ok s' → ∃ params, w.store.params = some params ∧
        params.pointsIssuer ≠ "" ∧ msg.creator = params.pointsIssuer) ∧
    w.store.balances = total (w.awards.map (·.2)) - total w.conversions := by
  have hI := balanced_invariant.holds h
  refine ⟨fun year month => ?_, fun k ctx msg s' hok => (of_awardPoints hok).1.issuer, hI.points⟩
  let key := appendInt year 4 ++ "-" ++ appendInt month 2
  have hle : awardedWhen (fun time => Calendar.year time = year ∧ Calendar.month time = month)
      w.awards ≤ awardedWhen (fun time => monthKey time = key) w.awards := by
    refine awardedWhen_mono fun time ht => ?_
    simp only [decide_eq_true_eq] at ht ⊢
    rw [monthKey, ht.1, ht.2]
  exact hle.trans (hI.issued key ▸ hI.cap key)

namespace Sample

-- All have a badge, and January 15 is their day.
def allBadged : PointsKeeper where
  addressCodec text := if text = "" then none else some (.ofBytes (text.toList.map Char.toNat))
  hasUserBadge _    := true
  sha256 b          := b

def block : Mlcoin.Context where
  blockTime   := 1768435200
  blockHeight := 10

def genesis : World where
  store       := {
    params := some { pointsIssuer := "issuer" }
    mlcoin := {
      emissionState := some { totalSupply := 670000000, circulating := 160000000, dailyLimit := 100000 }
    }
  }
  awards      := []
  conversions := []

def grant (recipient : String) (amount : UInt64) : Action :=
  .award allBadged block {
    creator   := "issuer"
    recipient := recipient
    amount    := amount
    taskType  := "quiz"
  }

def earned : World :=
  [grant "alice" 500, grant "bob" 300, .convert allBadged block "alice" 100].foldl .next genesis

theorem run_reachable {w : World} (hw : ledger.Reachable w) (as : List Action) :
    ledger.Reachable (as.foldl .next w) := by
  induction as generalizing w with
  | nil => exact hw
  | cons a as ih => exact ih (.step hw trivial rfl)

end Sample

theorem earned_ledger :
    Sample.earned.store.balances = 700 ∧ Sample.earned.conversions = [100] ∧
    Sample.earned.store.balances =
      total (Sample.earned.awards.map (·.2)) - total Sample.earned.conversions :=
  ⟨by decide +kernel, by decide +kernel,
    (cap_and_ledger (Sample.run_reachable (.init ⟨rfl, rfl, rfl, rfl⟩) _)).2.2⟩

end Mallpoints
