import MallChain.Badge.Keeper
import MallChain.Mallpoints.Ledger

namespace Mallpoints

open Sdk ByteString

structure GenesisState where
  params           : Params := {}
  userPointsMap    : List UserPoints := []
  conversionWindow : Option ConversionWindow := some { isOpen := true, currentMonth := 1 }

def initGenesis (genState : GenesisState) (s : Store) : Store :=
  { s with
    userPoints       := genState.userPointsMap.foldl (fun m elem => m.set elem.index elem) s.userPoints
    conversionWindow := genState.conversionWindow.or s.conversionWindow
    params           := some genState.params
    intervals        := some s.getModuleIntervals
  }

def exportGenesis (s : Store) : Result GenesisState := do
  let params ← orFail s.params (.error "collections: not found")
  return {
    params           := params
    userPointsMap    := s.userPoints.values
    conversionWindow := some (s.conversionWindow.getD {})
  }

-- The stores of the two modules. The state of mlcoin has its own genesis.
structure Modules where
  points : Store
  badge  : Badge.State

structure Codec where
  addressCodec : String → Option AccAddress
  sha256       : ByteString → ByteString

namespace Modules

-- The keeper of the points asks the badge module for badges.
def pointsKeeper (c : Codec) (m : Modules) : PointsKeeper where
  addressCodec := c.addressCodec
  hasUserBadge := Badge.hasUserBadge m.badge
  sha256       := c.sha256

inductive Step
  | award (ctx : Mlcoin.Context) (msg : MsgAwardPoints)
  | convert (ctx : Mlcoin.Context) (creator : String) (amount : UInt64)
  | issue (ctx : Mlcoin.Context) (msg : Badge.MsgIssueBadge)
  | elsewhere (points : Params) (badge : Badge.Params) (intervals : Option ModuleIntervals)
    (mlcoin : Mlcoin.State)

def next (c : Codec) (m : Modules) : Step → Modules
  | .award ctx msg =>
    match (m.pointsKeeper c).awardPoints ctx msg m.points with
    | .ok points => { m with points := points }
    | .error _ => m
  | .convert ctx creator amount =>
    match (m.pointsKeeper c).convert ctx creator amount m.points with
    | .ok points => { m with points := points }
    | .error _ => m
  | .issue ctx msg =>
    match Badge.issueBadge c.addressCodec ctx.blockTime msg m.badge with
    | .ok badge => { m with badge := badge }
    | .error _ => m
  | .elsewhere points badge intervals mlcoin => {
    points := { m.points with params := some points, intervals := intervals, mlcoin := mlcoin }
    badge  := { m.badge with params := some badge }
  }

-- The modules from their genesis on.
def system (c : Codec) : TransitionSystem Modules Step where
  init m      := ∃ gs gb mlcoin, m = ⟨initGenesis gs { mlcoin := mlcoin }, Badge.initGenesis gb {}⟩
  step m a m' := m' = m.next c a

-- An export that is imported into empty stores.
def reimported (m : Modules) : Result Modules := do
  let gs ← exportGenesis m.points
  let gb ← Badge.exportGenesis m.badge
  return ⟨initGenesis gs { mlcoin := m.points.mlcoin }, Badge.initGenesis gb {}⟩

-- After an import every user has the same points and badge, and the month goes on at the same count.
structure RoundTrips (c : Codec) (time : ℤ) (m m' : Modules) : Prop where
  points : ∀ user, c.addressCodec user ≠ none → m'.points.pointsOf user = m.points.pointsOf user
  issued : m'.points.issuedIn (monthKey time) = m.points.issuedIn (monthKey time)
  badges : ∀ user, c.addressCodec user ≠ none → m'.badge.holds user = m.badge.holds user

-- All that matters came with a genesis: what the messages write has no index.
structure Indexed (c : Codec) (time : ℤ) (m : Modules) : Prop where
  points : ∀ user u, c.addressCodec user ≠ none → m.points.userPoints.get user = some u →
    u.index = user ∨ u.points = 0
  issued : m.points.issuedIn (monthKey time) = 0
  badges : ∀ user b, c.addressCodec user ≠ none → m.badge.userBadge.get user = some b →
    b.index = user ∨ b.hasBadge = false

-- A record has its key as index, or none.
structure Tagged (m : Modules) : Prop where
  points : ∀ key u, m.points.userPoints.get key = some u → u.index = key ∨ u.index = ""
  badges : ∀ key b, m.badge.userBadge.get key = some b → b.index = key ∨ b.index = ""
  params : m.points.params ≠ none ∧ m.badge.params ≠ none

end Modules

variable {c : Codec} {m m' : Modules} {time : ℤ} {ctx : Mlcoin.Context} {user : String}

theorem tagged_set {ν : Type} {s : KVStore String ν} {index : ν → String} {key : String} {v : ν}
    (h : ∀ k v, s.get k = some v → index v = k ∨ index v = "") (hv : index v = key ∨ index v = "") :
    ∀ k v', (s.set key v).get k = some v' → index v' = k ∨ index v' = "" := by
  intro k v' hget
  rw [KVStore.get_set] at hget
  split at hget
  case isTrue hk =>
    cases hget
    exact hk ▸ hv
  case isFalse => exact h k v' hget

theorem Awarded.tagged {msg : MsgAwardPoints} {s s' : Store} (h : Awarded ctx msg s s')
    (ht : ∀ key u, s.userPoints.get key = some u → u.index = key ∨ u.index = "") :
    ∀ key u, s'.userPoints.get key = some u → u.index = key ∨ u.index = "" := by
  obtain ⟨old, new, hold, hindex, _, hset⟩ := h.record
  rw [hset]
  refine tagged_set ht ?_
  rw [hindex, hold]
  cases hget : s.userPoints.get msg.recipient with
  | none => exact .inr rfl
  | some u => exact ht _ u hget

theorem Converted.tagged {creator : String} {amount : UInt64} {s s' : Store}
    (h : Converted creator amount s s')
    (ht : ∀ key u, s.userPoints.get key = some u → u.index = key ∨ u.index = "") :
    ∀ key u, s'.userPoints.get key = some u → u.index = key ∨ u.index = "" := by
  obtain ⟨old, new, hget, hindex, _, hset⟩ := h.record
  rw [hset]
  exact tagged_set ht (hindex ▸ ht _ old hget)

theorem tagged_invariant (c : Codec) :
    (Modules.system c).Invariant (fun _ _ => True) Modules.Tagged where
  init := by
    rintro m ⟨gs, gb, mlcoin, rfl⟩
    refine ⟨fun key u hget => .inl ?_, fun key b hget => .inl ?_, by simp [initGenesis],
      by simp [Badge.initGenesis]⟩
    · exact KVStore.keyed_foldl .empty key u hget
    · exact KVStore.keyed_foldl .empty key b hget
  step := by
    rintro m a m' h _ rfl
    cases a with
    | award ctx msg =>
      simp only [Modules.next]
      split
      case h_2 => exact h
      case h_1 points hok =>
        have ha := (of_awardPoints hok).1
        exact ⟨ha.tagged h.points, h.badges, ha.others.1 ▸ h.params.1, h.params.2⟩
    | convert ctx creator amount =>
      simp only [Modules.next]
      split
      case h_2 => exact h
      case h_1 points hok =>
        have hc := (of_convert hok).1
        exact ⟨hc.tagged h.points, h.badges, hc.others.1 ▸ h.params.1, h.params.2⟩
    | issue ctx msg =>
      simp only [Modules.next]
      split
      case h_2 => exact h
      case h_1 badge hok =>
        obtain ⟨hp, b, hindex, _, _, hset⟩ := Badge.of_issueBadge hok
        exact ⟨h.points, hset ▸ tagged_set h.badges (.inr hindex), h.params.1, hp ▸ h.params.2⟩
    | elsewhere => exact ⟨h.points, h.badges, by simp [Modules.next], by simp [Modules.next]⟩

-- What an import makes of the exported stores.
structure Modules.Restored (m m' : Modules) : Prop where
  points : m'.points.userPoints = .ofValues UserPoints.index m.points.userPoints.values
  issued : m'.points.monthlyPointsIssued = .empty
  badges : m'.badge.userBadge = .ofValues Badge.UserBadge.index m.badge.userBadge.values

theorem Modules.Tagged.reimported (h : m.Tagged) : ∃ m', m.reimported = .ok m' := by
  obtain ⟨points, hp⟩ := Option.ne_none_iff_exists'.mp h.params.1
  obtain ⟨badge, hb⟩ := Option.ne_none_iff_exists'.mp h.params.2
  exact ⟨_, by rw [Modules.reimported, exportGenesis, Badge.exportGenesis, hp, hb]; rfl⟩

theorem of_reimported (h : m.reimported = .ok m') : m.Restored m' := by
  simp only [Modules.reimported, exportGenesis, Badge.exportGenesis, Result.bind_eq_ok, orFail_eq_ok,
    Result.pure_eq_ok] at h
  obtain ⟨_, ⟨_, _, rfl⟩, _, ⟨_, _, rfl⟩, rfl⟩ := h
  exact ⟨rfl, rfl, rfl⟩

theorem Modules.Restored.pointsOf (h : m.Restored m') (ht : m.Tagged) (hu : user ≠ "") :
    m'.points.pointsOf user = m.points.pointsOf user ↔
      ∀ u, m.points.userPoints.get user = some u → u.index = user ∨ u.points = 0 := by
  rw [Store.pointsOf, Store.pointsOf, h.points, KVStore.get_ofValues_of_tagged ht.points hu]
  cases hget : m.points.userPoints.get user with
  | none => simp
  | some u =>
    by_cases hindex : u.index = user
    case pos => simp [Option.filter_some, hindex]
    case neg =>
      have hzero : 0 = u.points.toNat ↔ u.points = 0 := by
        rw [eq_comm, ← UInt64.toNat_inj]
        rfl
      simp [Option.filter_some, hindex, hzero]

theorem Modules.Restored.holds (h : m.Restored m') (ht : m.Tagged) (hu : user ≠ "") :
    m'.badge.holds user = m.badge.holds user ↔
      ∀ b, m.badge.userBadge.get user = some b → b.index = user ∨ b.hasBadge = false := by
  rw [Badge.State.holds, Badge.State.holds, h.badges, KVStore.get_ofValues_of_tagged ht.badges hu]
  cases hget : m.badge.userBadge.get user with
  | none => simp
  | some b =>
    by_cases hindex : b.index = user
    case pos => simp [Option.filter_some, hindex]
    case neg => cases hb : b.hasBadge <;> simp [Option.filter_some, hindex, hb]

-- No address is empty, so that an export keeps exactly the records that came with a genesis.
theorem roundTrips_iff_indexed (c : Codec) (time : ℤ) (hcodec : c.addressCodec "" = none) {m : Modules}
    (h : (Modules.system c).Reachable m) :
    (∃ m', m.reimported = .ok m' ∧ Modules.RoundTrips c time m m') ↔ m.Indexed c time := by
  have ht := (tagged_invariant c).holds h
  have hne : ∀ user, c.addressCodec user ≠ none → user ≠ "" := by
    rintro user hu rfl
    exact hu hcodec
  constructor
  case mp =>
    rintro ⟨m', hm, hr⟩
    have hm := of_reimported hm
    refine ⟨fun user u hu => (hm.pointsOf ht (hne user hu)).mp (hr.points user hu) u, ?_,
      fun user b hu => (hm.holds ht (hne user hu)).mp (hr.badges user hu) b⟩
    rw [← hr.issued, Store.issuedIn, hm.issued]
    rfl
  case mpr =>
    intro hi
    obtain ⟨m', hm⟩ := ht.reimported
    have hm' := of_reimported hm
    refine ⟨m', hm, fun user hu => (hm'.pointsOf ht (hne user hu)).mpr fun u => hi.points user u hu, ?_,
      fun user hu => (hm'.holds ht (hne user hu)).mpr fun b => hi.badges user b hu⟩
    rw [hi.issued, Store.issuedIn, hm'.issued]
    rfl

namespace Sample

def codec : Codec where
  addressCodec := allBadged.addressCodec
  sha256 b     := b

-- The modules from a genesis on that names the issuer and has the points of one user.
def fresh : Modules where
  points := initGenesis {
    params        := { pointsIssuer := "issuer" }
    userPointsMap := [{ index := "carol", address := "carol", points := 40 }]
  } {}
  badge  := Badge.initGenesis { params := { badgeIssuer := "issuer" } } {}

def quiz (recipient : String) (amount : UInt64) : Modules.Step :=
  .award block { creator := "issuer", recipient := recipient, amount := amount, taskType := "quiz" }

-- Two users get points.
def active : Modules :=
  (fresh.next codec (quiz "alice" 500)).next codec (quiz "bob" 300)

theorem codec_empty : codec.addressCodec "" = none := by
  simp [codec, allBadged]

theorem fresh_reachable : (Modules.system codec).Reachable fresh :=
  .init ⟨_, _, _, rfl⟩

theorem active_reachable : (Modules.system codec).Reachable active :=
  .step (a := quiz "bob" 300) (.step (a := quiz "alice" 500) fresh_reachable trivial rfl) trivial rfl

end Sample

theorem fresh_roundTrips_iff :
    (∃ m', Sample.fresh.reimported = .ok m' ∧
      Modules.RoundTrips Sample.codec 1768435200 Sample.fresh m') ↔
    Sample.fresh.Indexed Sample.codec 1768435200 :=
  roundTrips_iff_indexed Sample.codec 1768435200 Sample.codec_empty Sample.fresh_reachable

-- The records of the two users are merged under an empty key.
theorem points_merged :
    ¬∀ (c : Codec) (time : ℤ), c.addressCodec "" = none → ∀ m : Modules,
      (Modules.system c).Reachable m →
      ∃ m', m.reimported = .ok m' ∧ Modules.RoundTrips c time m m' := by
  intro h
  obtain ⟨m', hm, hr⟩ := h Sample.codec 1768435200 Sample.codec_empty _ Sample.active_reachable
  have hbefore : Sample.active.points.pointsOf "alice" = 500 := by
    decide +kernel
  have hafter : Sample.active.reimported.map (·.points.pointsOf "alice") = .ok 0 := by
    decide +kernel
  rw [hm] at hafter
  have hzero : m'.points.pointsOf "alice" = 0 := Except.ok.inj hafter
  have hsame := hr.points "alice" (by decide +kernel)
  omega

end Mallpoints
