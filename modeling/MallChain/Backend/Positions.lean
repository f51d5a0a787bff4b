import MallChain.Backend.Liquidity

namespace Liquidity

open Interleaving

variable {ν : Type} (A : Arithmetic ν) (config : Config ν)

-- The user's own step of an addition to the pool or of a removal from it, after the transaction.
def Label.IsOwn (poolId : ν) (user : String) (w : World ν) : Label → Prop
  | .adding r user' | .removing r user' =>
    user' = user ∧ (w.objects[r]?.any fun pool => A.eq pool.id poolId) = true
  | .other | .replacing => False

instance Label.decidableIsOwn {poolId : ν} {user : String} {w : World ν} :
    (label : Label) → Decidable (label.IsOwn A poolId user w)
  | .adding _ _ | .removing _ _ => inferInstanceAs (Decidable (_ ∧ _))
  | .other | .replacing         => inferInstanceAs (Decidable False)

-- While a run is at any part of it in which the user takes no such step, the position stays.
def PositionsKept (p : Pool Label (World ν)) (actions : List (Action (Request ν))) : Prop :=
  ∀ poolId user before part after, actions = before ++ part ++ after →
    (p.execs (handler A config) before).MeetsAll (handler A config)
      (fun label w => ¬label.IsOwn A poolId user w) part →
    (p.execs (handler A config) (before ++ part)).store.recorded A poolId user =
      (p.execs (handler A config) before).store.recorded A poolId user

-- The pools are assigned only while no position is recorded.
def poolsGuard : Label → World ν → Prop
  | .replacing, w => ∀ poolId user, w.recorded A poolId user = A.zero
  | _, _          => True

-- A change of a pool that concerns one user.
structure LiquidityPool.Framed (user : String) (pool pool' : LiquidityPool ν) : Prop where
  id       : pool'.id = pool.id
  position : ∀ user' ≠ user, pool'.position A user' = pool.position A user'

-- What the steps do to the pools.
def Label.Allows (update : World ν → World ν) : Label → Prop
  | .other => ∀ w, (update w).objects = w.objects ∧ (update w).pools = w.pools
  | .replacing => ∀ w, ∃ fresh : LiquidityPool ν, fresh.userPositions = .empty ∧
    (update w).objects = w.objects ++ [fresh] ∧ (update w).pools = [w.objects.length]
  | .adding r user | .removing r user => ∃ f : LiquidityPool ν → LiquidityPool ν,
    (∀ pool : LiquidityPool ν, pool.Framed A user (f pool)) ∧
    ∀ w, (update w).objects = w.objects.modify r f ∧ (update w).pools = w.pools

abbrev AllowedSteps {α : Type} (q : Handler ν α) : Prop :=
  q.Steps fun label update => label.Allows A update

variable {A config} {w w' : World ν} {poolId : ν} {user user' : String} {r : ℕ}
  {pool : LiquidityPool ν} {p : Pool Label (World ν)}

section Positions

theorem LiquidityPool.position_set {x : ν} (h : user' ≠ user) :
    ({ pool with userPositions := pool.userPositions.set user x } : LiquidityPool ν).position A user' =
      pool.position A user' := by
  simp only [position, KVStore.get_set_ne h]

theorem LiquidityPool.framed_addLiquidity {a0 a1 : ν} :
    pool.Framed A user (pool.addLiquidity A user a0 a1) where
  id             := rfl
  position _ hne := position_set hne

theorem LiquidityPool.framed_removeLiquidity {lp userLiquidity amount0 amount1 : ν} :
    pool.Framed A user (pool.removeLiquidity A user lp userLiquidity amount0 amount1) where
  id             := rfl
  position _ hne := position_set hne

theorem fetched_userPositions {fetched : Fetched ν} {now : ℤ} :
    (fetchPoolsFromBlockchain A config fetched now).userPositions = .empty := by
  rw [fetchPoolsFromBlockchain]
  split_ifs <;> rfl

namespace World

theorem recorded_congr (ho : w'.objects = w.objects) (hp : w'.pools = w.pools) :
    w'.recorded A poolId user = w.recorded A poolId user := by
  simp only [recorded, findPool, ho, hp]

theorem of_findPool (h : w.findPool A poolId = some (r, pool)) :
    w.objects[r]? = some pool ∧ A.eq pool.id poolId = true := by
  obtain ⟨r', _, h⟩ := List.exists_of_findSome?_eq_some h
  simp only [Option.map_eq_some_iff, Option.filter_eq_some_iff, Prod.mk.injEq] at h
  obtain ⟨_, ⟨hr, heq⟩, rfl, rfl⟩ := h
  exact ⟨hr, heq⟩

-- A pool that has just been built has no positions.
theorem recorded_replaced {fresh : LiquidityPool ν} (hf : fresh.userPositions = .empty)
    (ho : w'.objects = w.objects ++ [fresh]) (hp : w'.pools = [w.objects.length]) :
    w'.recorded A poolId user = A.zero := by
  rw [recorded]
  split
  case h_2 => rfl
  case h_1 r pool h =>
    obtain ⟨r', hr', h⟩ := List.exists_of_findSome?_eq_some h
    rw [hp, List.mem_singleton] at hr'
    subst hr'
    simp only [ho, List.getElem?_concat_length, Option.map_eq_some_iff, Option.filter_eq_some_iff,
      Option.some.injEq, Prod.mk.injEq] at h
    obtain ⟨_, ⟨rfl, _⟩, _, rfl⟩ := h
    rw [LiquidityPool.position, hf, KVStore.get_empty]

theorem findPool_modify {f : LiquidityPool ν → LiquidityPool ν} (hf : ∀ pool, (f pool).id = pool.id)
    (ho : w'.objects = w.objects.modify r f) (hp : w'.pools = w.pools) :
    w'.findPool A poolId =
      (w.findPool A poolId).map fun (r', pool) => (r', if r = r' then f pool else pool) := by
  rw [findPool, findPool, List.map_findSome?, hp]
  congr 1
  funext r'
  simp only [ho, List.getElem?_modify, Function.comp_apply]
  cases w.objects[r']? with
  | none => rfl
  | some pool =>
    by_cases hr : r = r'
    case pos => cases heq : A.eq pool.id poolId <;> simp [Option.filter, hr, hf, heq]
    case neg => cases heq : A.eq pool.id poolId <;> simp [Option.filter, hr, heq]

-- Only the user's own position changes, and only in the pool that is changed.
theorem recorded_modify {f : LiquidityPool ν → LiquidityPool ν}
    (hf : ∀ pool : LiquidityPool ν, pool.Framed A user' (f pool)) (ho : w'.objects = w.objects.modify r f)
    (hp : w'.pools = w.pools)
    (hn : ¬(user' = user ∧ (w.objects[r]?.any fun pool => A.eq pool.id poolId) = true)) :
    w'.recorded A poolId user = w.recorded A poolId user := by
  rw [recorded, recorded, findPool_modify (fun pool => (hf pool).id) ho hp]
  cases h : w.findPool A poolId with
  | none => rfl
  | some e =>
    obtain ⟨r', pool⟩ := e
    by_cases hr : r = r'
    case neg => simp [hr]
    case pos =>
      subst hr
      obtain ⟨hpool, hid⟩ := of_findPool h
      have huser : user ≠ user' := by
        intro heq
        exact hn ⟨heq.symm, by rw [hpool, Option.any_some, hid]⟩
      simp [(hf pool).position user huser]

end World

-- A step that assigns no pools keeps all positions that are not the user's own. One that does keeps
-- them if there are none.
theorem Label.Allows.recorded_eq {label : Label} {update : World ν → World ν}
    (h : label.Allows A update) (hg : poolsGuard A label w) (hn : ¬label.IsOwn A poolId user w) :
    (update w).recorded A poolId user = w.recorded A poolId user := by
  cases label with
  | other => exact World.recorded_congr (h w).1 (h w).2
  | replacing =>
    obtain ⟨fresh, hf, ho, hp⟩ := h w
    rw [World.recorded_replaced hf ho hp, hg poolId user]
  | adding r user' | removing r user' =>
    obtain ⟨f, hf, hu⟩ := h
    exact World.recorded_modify hf (hu w).1 (hu w).2 hn

theorem Label.Allows.guard_of_kept {label : Label} {update : World ν → World ν}
    (h : label.Allows A update)
    (hk : ∀ poolId user, ¬label.IsOwn A poolId user w →
      (update w).recorded A poolId user = w.recorded A poolId user) :
    poolsGuard A label w := by
  cases label with
  | replacing =>
    intro poolId user
    obtain ⟨fresh, hf, ho, hp⟩ := h w
    rw [← hk poolId user not_false, World.recorded_replaced hf ho hp]
  | other | adding | removing => trivial

end Positions

section Handlers

variable {fetched : Fetched ν} {request : Request ν}

theorem ensurePoolsLoaded_allowed : AllowedSteps A (ensurePoolsLoaded A config fetched) := by
  refine ⟨fun _ => ⟨rfl, rfl⟩, fun w => Prog.Steps.ite ?_ ?_⟩
  case refine_1 =>
    intro _
    refine ⟨fun _ => ⟨rfl, rfl⟩, fun w => Prog.Steps.write ?_⟩
    exact fun _ => ⟨_, fetched_userPositions, rfl, rfl⟩
  case refine_2 => exact fun _ => trivial

theorem replyCached_pools :
    (w.replyCached A config).objects = w.objects ∧ (w.replyCached A config).pools = w.pools := by
  rw [World.replyCached]
  split <;> exact ⟨rfl, rfl⟩

theorem getAllPools_allowed : AllowedSteps A (getAllPools A config fetched) := by
  refine ⟨fun _ => replyCached_pools, fun w => Prog.Steps.ite (fun _ => trivial) fun _ => ?_⟩
  refine ⟨fun _ => ⟨rfl, rfl⟩, fun w => Prog.Steps.write ?_⟩
  exact fun _ => ⟨_, fetched_userPositions, rfl, rfl⟩

-- A step that only answers.
theorem reply_allowed {update : World ν → World ν}
    (h : ∀ w, (update w).objects = w.objects ∧ (update w).pools = w.pools) :
    AllowedSteps A (.write .other update) :=
  Prog.Steps.write h

theorem skip_allowed {α : Type} {q : Handler ν α} (h : AllowedSteps A q) :
    AllowedSteps A (do .skip .other; q) :=
  ⟨fun _ => ⟨rfl, rfl⟩, fun _ => h⟩

theorem getPool_allowed {poolId : Value ν} : AllowedSteps A (getPool A config poolId fetched) := by
  refine ensurePoolsLoaded_allowed.bind fun _ => reply_allowed fun w => ?_
  split <;> exact ⟨rfl, rfl⟩

theorem getUserPosition_allowed {poolId userAddress : Value ν} :
    AllowedSteps A (getUserPosition A config poolId userAddress fetched) := by
  refine Prog.Steps.ite ?_ ?_
  case refine_1 => exact fun _ => reply_allowed fun _ => ⟨rfl, rfl⟩
  case refine_2 =>
    intro _
    refine ensurePoolsLoaded_allowed.bind fun _ => reply_allowed fun w => ?_
    split <;> exact ⟨rfl, rfl⟩

theorem addLiquidityToPool_allowed {req : AddRequest ν} :
    AllowedSteps A (addLiquidityToPool A config req) := by
  refine Prog.Steps.ite (fun _ => trivial) fun _ => Prog.Steps.ite (fun _ => trivial) fun _ => ?_
  refine ensurePoolsLoaded_allowed.bind fun _ => Prog.Steps.act_bind (fun _ => ⟨rfl, rfl⟩) ?_
  intro w
  split
  case h_1 => trivial
  case h_2 r pool a0 a1 _ =>
    apply skip_allowed
    split
    case h_1 => trivial
    case h_2 => exact skip_allowed trivial
    case h_3 =>
      apply skip_allowed
      exact Prog.Steps.act ⟨_, fun _ => LiquidityPool.framed_addLiquidity, fun _ => ⟨rfl, rfl⟩⟩

theorem addLiquidity_allowed {req : AddRequest ν} {slippage : Value ν} :
    AllowedSteps A (addLiquidity A config req slippage) := by
  refine Prog.Steps.ite (fun _ => reply_allowed fun _ => ⟨rfl, rfl⟩) fun _ => ?_
  refine Prog.Steps.ite (fun _ => reply_allowed fun _ => ⟨rfl, rfl⟩) fun _ => ?_
  refine Prog.Steps.ite (fun _ => reply_allowed fun _ => ⟨rfl, rfl⟩) fun _ => ?_
  refine addLiquidityToPool_allowed.bind fun result => ?_
  cases result with
  | error e => exact reply_allowed fun _ => ⟨rfl, rfl⟩
  | ok liquidity =>
    refine reply_allowed fun w => ?_
    split <;> exact ⟨rfl, rfl⟩

theorem removeLiquidity_allowed {req : RemoveRequest ν} :
    AllowedSteps A (removeLiquidity A config req) := by
  refine Prog.Steps.ite (fun _ => reply_allowed fun _ => ⟨rfl, rfl⟩) fun _ => ?_
  refine Prog.Steps.ite (fun _ => reply_allowed fun _ => ⟨rfl, rfl⟩) fun _ => ?_
  refine ensurePoolsLoaded_allowed.bind fun _ => Prog.Steps.act_bind (fun _ => ⟨rfl, rfl⟩) ?_
  intro w
  split
  case h_1 => exact reply_allowed fun _ => ⟨rfl, rfl⟩
  case h_2 r pool _ =>
    split
    case h_1 => exact reply_allowed fun _ => ⟨rfl, rfl⟩
    case h_2 removal _ =>
      apply skip_allowed
      split
      case h_1 => exact reply_allowed fun _ => ⟨rfl, rfl⟩
      case h_2 => exact skip_allowed (reply_allowed fun _ => ⟨rfl, rfl⟩)
      case h_3 =>
        apply skip_allowed
        exact Prog.Steps.write ⟨_, fun _ => LiquidityPool.framed_removeLiquidity, fun _ => ⟨rfl, rfl⟩⟩

theorem handler_allowed : AllowedSteps A (handler A config request) := by
  cases request with
  | clock now => exact reply_allowed fun _ => ⟨rfl, rfl⟩
  | getAllPools fetched => exact getAllPools_allowed
  | getPool poolId fetched => exact getPool_allowed
  | getUserPosition poolId userAddress fetched => exact getUserPosition_allowed
  | addLiquidity req slippage => exact addLiquidity_allowed
  | addLiquidityToPool req => exact addLiquidityToPool_allowed.bind fun _ => trivial
  | removeLiquidity req => exact removeLiquidity_allowed

theorem running_allowed (hp : (liquiditySystem A config).Reachable p) :
    ∀ q ∈ p.running, AllowedSteps A q :=
  Run.steps (fun _ _ _ => handler_allowed) hp

end Handlers

section Runs

variable {a : Action (Request ν)} {actions : List (Action (Request ν))}

-- One step of a run keeps every position that is not the user's own just where the guard is met.
theorem recorded_exec (hq : ∀ q ∈ p.running, AllowedSteps A q) (hg : p.Meets (poolsGuard A) a)
    (hn : p.Meets (fun label w => ¬label.IsOwn A poolId user w) a) :
    (p.exec (handler A config) a).store.recorded A poolId user = p.store.recorded A poolId user := by
  cases a with
  | start request => rfl
  | run i =>
    rw [Pool.exec]
    split
    case h_2 => rfl
    case h_1 label update next hi =>
      rw [Pool.Meets, hi] at hg hn
      exact (hq _ (List.mem_of_getElem? hi)).1.recorded_eq hg hn

theorem meets_of_kept (hq : ∀ q ∈ p.running, AllowedSteps A q)
    (hk : ∀ poolId user, p.Meets (fun label w => ¬label.IsOwn A poolId user w) a →
      (p.exec (handler A config) a).store.recorded A poolId user = p.store.recorded A poolId user) :
    p.Meets (poolsGuard A) a := by
  cases a with
  | start request => trivial
  | run i =>
    rw [Pool.Meets]
    split
    case h_2 => trivial
    case h_1 label update next hi =>
      refine (hq _ (List.mem_of_getElem? hi)).1.guard_of_kept fun poolId user hn => ?_
      have h := hk poolId user
      simp only [Pool.Meets, Pool.exec, hi] at h
      exact h hn

theorem exec_allowed (hq : ∀ q ∈ p.running, AllowedSteps A q) :
    ∀ q ∈ (p.exec (handler A config) a).running, AllowedSteps A q :=
  exec_running (fun _ _ => handler_allowed) hq

-- A part of a run that meets the guard and has no step of the user's own.
theorem recorded_execs (hq : ∀ q ∈ p.running, AllowedSteps A q)
    (hg : p.MeetsAll (handler A config) (poolsGuard A) actions)
    (hn : p.MeetsAll (handler A config) (fun label w => ¬label.IsOwn A poolId user w) actions) :
    (p.execs (handler A config) actions).store.recorded A poolId user =
      p.store.recorded A poolId user := by
  induction actions generalizing p with
  | nil => rfl
  | cons a actions ih => exact (ih (exec_allowed hq) hg.2 hn.2).trans (recorded_exec hq hg.1 hn.1)

theorem execs_allowed (hq : ∀ q ∈ p.running, AllowedSteps A q) :
    ∀ q ∈ (p.execs (handler A config) actions).running, AllowedSteps A q := by
  induction actions generalizing p with
  | nil => exact hq
  | cons a actions ih => exact ih (exec_allowed hq)

theorem positionsKept_of_meetsAll (hq : ∀ q ∈ p.running, AllowedSteps A q)
    (hg : p.MeetsAll (handler A config) (poolsGuard A) actions) : PositionsKept A config p actions := by
  intro poolId user before part after hactions hn
  subst hactions
  have hpart := (Pool.meetsAll_append.mp (Pool.meetsAll_append.mp hg).1).2
  rw [Pool.execs_append]
  exact recorded_execs (execs_allowed hq) hpart hn

theorem PositionsKept.head (h : PositionsKept A config p (a :: actions)) :
    ∀ poolId user, p.Meets (fun label w => ¬label.IsOwn A poolId user w) a →
      (p.exec (handler A config) a).store.recorded A poolId user = p.store.recorded A poolId user :=
  fun poolId user hn => h poolId user [] [a] actions rfl ⟨hn, trivial⟩

theorem PositionsKept.tail (h : PositionsKept A config p (a :: actions)) :
    PositionsKept A config (p.exec (handler A config) a) actions := by
  intro poolId user before part after hactions hn
  exact h poolId user (a :: before) part after (congrArg (a :: ·) hactions) hn

theorem meetsAll_of_positionsKept (hq : ∀ q ∈ p.running, AllowedSteps A q)
    (h : PositionsKept A config p actions) : p.MeetsAll (handler A config) (poolsGuard A) actions := by
  induction actions generalizing p with
  | nil => trivial
  | cons a actions ih => exact ⟨meets_of_kept hq h.head, ih (exec_allowed hq) h.tail⟩

-- On every run from any state that is reached, the positions change only by steps of the users' own
-- exactly where the pools are assigned only while there are none.
theorem positionsKept_iff (hp : (liquiditySystem A config).Reachable p) :
    PositionsKept A config p actions ↔ p.MeetsAll (handler A config) (poolsGuard A) actions :=
  ⟨meetsAll_of_positionsKept (running_allowed hp), positionsKept_of_meetsAll (running_allowed hp)⟩

end Runs

-- A number with so many digits after the point.
def decimalText (x : ℚ) (digits : ℕ) : String :=
  let n := ⌊|x| * 10 ^ digits + 1 / 2⌋.toNat
  let fraction := toString (n % 10 ^ digits)
  let zeros := String.ofList (List.replicate (digits - fraction.length) '0')
  (if x < 0 then "-" else "") ++ toString (n / 10 ^ digits) ++ "." ++ zeros ++ fraction

-- Exact arithmetic, with the root of a square.
def sampleArithmetic : Arithmetic ℚ where
  ofRat x    := x
  nan        := 0
  parse _    := 0
  text x     := toString x
  toFixed    := decimalText
  add        := (· + ·)
  sub        := (· - ·)
  mul        := (· * ·)
  div        := (· / ·)
  pow x y    := x ^ y.num
  max x y    := Max.max x y
  sqrt x     := Nat.sqrt x.num.natAbs / Nat.sqrt x.den
  round x    := ⌊x + 1 / 2⌋
  eq x y     := x = y
  lt x y     := x < y
  le x y     := x ≤ y
  isFinite _ := true
  isNaN _    := false

def sampleConfig : Config ℚ where
  poolToken0Denom    := "umlcn"
  poolToken1Denom    := "umal"
  poolToken0Decimals := 6
  poolToken1Decimals := 6
  cacheDuration      := 30000
  poolAccountAddress := ""
  liqDefaultApy      := 0
  liqDefaultFee      := 3 / 10
  operatorMnemonic   := "mnemonic"

def sampleFetched : Fetched ℚ where
  marketPrice := none
  balances    := none
  trades      := none
  tradesAt    := 0

def sampleAddition : Request ℚ :=
  .addLiquidity {
    poolId      := .number 2
    amount0     := .number 1
    amount1     := .number 1
    userAddress := .string "mall1alice"
    fetched     := sampleFetched
    onChain     := { transaction := .ok "A1" }
  } .undefined

-- A user adds liquidity, and the time of the cache passes.
def sampleActions : List (Action (Request ℚ)) :=
  inTurn 8 [sampleAddition, .clock 60000]

def sampleStart : Pool Label (World ℚ) where
  store   := { now := 0 }
  running := []

-- The pools are listed then.
def sampleListing : List (Action (Request ℚ)) :=
  [.start (.getAllPools sampleFetched), .run 2, .run 2, .run 2]

theorem sample_positionsKept_iff :
    PositionsKept sampleArithmetic sampleConfig sampleStart sampleActions ↔
      sampleStart.MeetsAll (handler sampleArithmetic sampleConfig) (poolsGuard sampleArithmetic)
        sampleActions :=
  positionsKept_iff (.init ⟨⟨0, rfl⟩, rfl⟩)

theorem position_lost_by_listing :
    ¬∀ p actions, (liquiditySystem sampleArithmetic sampleConfig).Reachable p →
      PositionsKept sampleArithmetic sampleConfig p actions := by
  intro h
  have hstart : (liquiditySystem sampleArithmetic sampleConfig).Reachable sampleStart :=
    .init ⟨⟨0, rfl⟩, rfl⟩
  have hkept := h sampleStart (sampleActions ++ sampleListing) hstart 2 "mall1alice" sampleActions
    sampleListing [] (by simp) (by decide +kernel)
  have hbefore : (sampleStart.execs (handler sampleArithmetic sampleConfig)
      sampleActions).store.recorded sampleArithmetic 2 "mall1alice" = 1 := by decide +kernel
  have hafter : (sampleStart.execs (handler sampleArithmetic sampleConfig)
      (sampleActions ++ sampleListing)).store.recorded sampleArithmetic 2 "mall1alice" = 0 := by
    decide +kernel
  rw [hbefore, hafter] at hkept
  exact absurd hkept (by decide +kernel)

end Liquidity
