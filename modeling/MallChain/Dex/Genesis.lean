import MallChain.Lib.Snapshot
import MallChain.Dex.WellFormed

namespace Dex

open Sdk

-- A pool of the list may be nil.
structure GenesisState where
  params     : Option Params
  pools      : List (Option Pool)
  nextPoolId : UInt64

def defaultGenesisState : GenesisState where
  params     := some defaultParams
  pools      := []
  nextPoolId := 1

-- `Coin.IsValid`
def coinIsValid (coin : Coin) : Bool :=
  validDenom coin.denom && 0 ≤ coin.amount

namespace GenesisState

-- The loop over the pools, with the ids that were seen.
def validatePools (poolIds : List ℕ) : List (Option Pool) → Result Unit
  | [] => .ok ()
  | none :: pools => validatePools poolIds pools
  | some pool :: pools => do
    failIf (pool.id ∈ poolIds) (.error s!"duplicate pool id {pool.id}")
    failIf (pool.id = 0) (.error "pool id cannot be zero")
    failIf (pool.tokenADenom = "" ∨ pool.tokenBDenom = "")
      (.error "pool token denoms cannot be empty")
    failIf (pool.tokenADenom = pool.tokenBDenom) (.error "pool token denoms must be different")
    failIf (coinIsValid pool.tokenAReserve = false ∨ coinIsValid pool.tokenBReserve = false)
      (.error "invalid pool reserves")
    failIf (coinIsValid pool.totalLiquidity = false) (.error "invalid total liquidity")
    validatePools (pool.id :: poolIds) pools

def validate (gs : GenesisState) : Result Unit := do
  gs.params.elim (.ok ()) Params.validate
  validatePools [] gs.pools
  failIf (gs.nextPoolId = 0) (.error "next pool id cannot be zero")

end GenesisState

-- The default genesis passes its own check.
theorem defaultGenesisState_validate : defaultGenesisState.validate = .ok () := by
  decide +kernel

-- The module's store before genesis, next to the bank that has its own.
def State.blank (bank : Bank) : State where
  bank          := bank
  pools         := .empty
  poolLiquidity := .empty
  params        := none
  nextPoolId    := none

def setPool (pools : KVStore ℕ Pool) : Option Pool → KVStore ℕ Pool
  | none => pools
  | some pool => pools.set pool.id pool

def initGenesis (genState : GenesisState) (s : State) : State :=
  { s with
    params     := genState.params.or s.params
    nextPoolId := some genState.nextPoolId.toNat
    pools      := genState.pools.foldl setPool s.pools
  }

def exportGenesis (s : State) : Result GenesisState := do
  let params ← orFail s.params (.error "collections: not found")
  return {
    params     := some params
    pools      := s.pools.values.map some
    nextPoolId := .ofNat s.getNextPoolId
  }

-- The counter of the source is a uint64.
def State.wrapped (s : State) : State :=
  { s with nextPoolId := s.nextPoolId.map (· % 2 ^ 64) }

def Keeper.nextWrapped (k : Keeper) (s : State) (a : Action) : State :=
  (k.next s a).wrapped

-- The chain from a genesis on that passed its check.
def chain (k : Keeper) : TransitionSystem State Action where
  init s      := ∃ gs bank, gs.validate = .ok () ∧ s = initGenesis gs (.blank bank)
  step s a s' := a.Allowed ∧ s' = k.nextWrapped s a

variable {k : Keeper} {s s' : State} {a : Action} {gs : GenesisState}

theorem State.wrapped_nextPoolId {n : ℕ} (h : s.nextPoolId = some n) :
    s.wrapped.nextPoolId = some (n % 2 ^ 64) := by
  simp [State.wrapped, h]

theorem foldl_setPool (pools : List (Option Pool)) (m : KVStore ℕ Pool) :
    pools.foldl setPool m = pools.reduceOption.foldl (fun m pool => m.set pool.id pool) m := by
  induction pools generalizing m with
  | nil => rfl
  | cons pool pools ih =>
    cases pool with
    | none => exact ih m
    | some pool => exact ih (m.set pool.id pool)

theorem initGenesis_pools (gs : GenesisState) (bank : Bank) :
    (initGenesis gs (.blank bank)).pools = .ofValues Pool.id gs.pools.reduceOption :=
  foldl_setPool gs.pools .empty

-- The pools are stored under their ids, every record belongs to a pool, and the counter is a uint64.
structure State.Indexed (s : State) : Prop where
  pools   : s.pools.Keyed Pool.id
  records : ∀ {id provider}, s.record id provider ≠ none → s.pools.get id ≠ none
  counter : ∃ n, s.nextPoolId = some n ∧ n < 2 ^ 64

theorem Effect.indexed {user : Option AccAddress} (h : Effect k s s' user) (hs : s.Indexed) :
    s'.wrapped.Indexed := by
  obtain ⟨n, hn, hlt⟩ := hs.counter
  cases h with
  | @created creator pool h =>
    refine ⟨h.pools ▸ hs.pools.set rfl, fun {id provider} hr => ?_, pool.id.succ % 2 ^ 64,
      State.wrapped_nextPoolId h.next, Nat.mod_lt _ (by decide)⟩
    by_cases hid : id = pool.id
    case pos => simp [State.wrapped, h.pools, hid]
    case neg =>
      have hkey : liquidityKey id provider ≠ liquidityKey pool.id creator :=
        fun hk => hid (key_eq_iff.mp hk).1
      have hr : s.record id provider ≠ none := by
        simpa [State.record, State.wrapped, h.records, KVStore.get_set_ne hkey] using hr
      simpa [State.wrapped, h.pools, KVStore.get_set_ne hid] using hs.records hr
  | @replaced user poolId pool pool' h =>
    refine ⟨h.pools ▸ hs.pools.set (h.id.trans (hs.pools _ _ h.get)), fun {id provider} hr => ?_,
      n % 2 ^ 64, State.wrapped_nextPoolId (h.next.trans hn), Nat.mod_lt _ (by decide)⟩
    by_cases hid : id = poolId
    case pos => simp [State.wrapped, h.pools, hid]
    case neg =>
      have hr := (h.records id provider hr).resolve_left hid
      simpa [State.wrapped, h.pools, KVStore.get_set_ne hid] using hs.records hr
  | params _ h | bank h =>
    subst h
    exact ⟨hs.pools, hs.records, n % 2 ^ 64, State.wrapped_nextPoolId hn, Nat.mod_lt _ (by decide)⟩

theorem State.Indexed.next (h : s.Indexed) (ha : a.Allowed) : (k.nextWrapped s a).Indexed := by
  have hstep : (system k).step s a (k.next s a) := ⟨ha, rfl⟩
  rw [Keeper.nextWrapped]
  rcases of_step hstep with he | he
  · exact he.indexed h
  · obtain ⟨n, hn, _⟩ := h.counter
    rw [he]
    exact ⟨h.pools, h.records, n % 2 ^ 64, State.wrapped_nextPoolId hn, Nat.mod_lt _ (by decide)⟩

theorem indexed_invariant {guard : State → Action → Prop} :
    (chain k).Invariant guard State.Indexed where
  init := by
    rintro s ⟨gs, bank, _, rfl⟩
    exact ⟨initGenesis_pools gs bank ▸ KVStore.keyed_ofValues, fun hr => absurd rfl hr, _, rfl,
      gs.nextPoolId.toNat_lt⟩
  step := by
    rintro s a s' hs _ ⟨ha, rfl⟩
    exact hs.next ha

-- What an operation returns to its caller.
inductive Answer
  | done
  | poolId (id : ℕ)
  | paid (coins : Coins)
  deriving DecidableEq

def Keeper.answer (k : Keeper) (s : State) : Action → Result Answer
  | .deliver (.createPool creator tokenA tokenB fee) => do
    let (_, id) ← k.createPool creator tokenA tokenB fee s
    return .poolId id
  | .deliver (.removeLiquidity provider poolId tokens) => do
    let (_, tokenA, tokenB) ← k.removeLiquidity provider poolId tokens s
    return .paid [tokenA, tokenB]
  | .deliver (.swap sender poolId tokenIn tokenOutDenom minTokenOut) => do
    let (_, tokenOut) ← k.swap sender poolId tokenIn tokenOutDenom minTokenOut s
    return .paid [tokenOut]
  | a => do
    let _ ← k.act s a
    return .done

-- The answers to operations that are carried out one after the other.
def Keeper.answers (k : Keeper) (s : State) : List Action → List (Result Answer)
  | [] => []
  | a :: as => k.answer s a :: k.answers (k.nextWrapped s a) as

-- The state after an import is the same to everyone.
def RoundTrips (k : Keeper) (s : State) : Prop :=
  ∃ gs, exportGenesis s = .ok gs ∧
    (initGenesis gs (.blank s.bank)).pools = s.pools ∧
    (initGenesis gs (.blank s.bank)).params = s.params ∧
    (initGenesis gs (.blank s.bank)).getNextPoolId = s.getNextPoolId ∧
    ∀ as, k.answers (initGenesis gs (.blank s.bank)) as = k.answers s as

theorem exportGenesis_ok {params : Params} (h : s.params = some params) :
    exportGenesis s = .ok ⟨some params, s.pools.values.map some, .ofNat s.getNextPoolId⟩ := by
  rw [exportGenesis, h]
  rfl

-- Only the records of the providers are lost.
theorem initGenesis_exportGenesis (hs : s.Indexed) (h : exportGenesis s = .ok gs) :
    initGenesis gs (.blank s.bank) = { s with poolLiquidity := .empty } := by
  obtain ⟨n, hn, hlt⟩ := hs.counter
  simp only [exportGenesis, Result.bind_eq_ok, orFail_eq_ok, Result.pure_eq_ok] at h
  obtain ⟨params, hp, rfl⟩ := h
  have hpools : (initGenesis ⟨some params, s.pools.values.map some, .ofNat s.getNextPoolId⟩
      (.blank s.bank)).pools = s.pools := by
    rw [initGenesis_pools, List.reduceOption, List.filterMap_map]
    exact (congrArg _ List.filterMap_some).trans (KVStore.ofValues_values hs.pools)
  have hnext : (UInt64.ofNat s.getNextPoolId).toNat = n := by
    simpa [State.getNextPoolId, hn] using hlt
  simp only [initGenesis, State.mk.injEq] at hpools ⊢
  exact ⟨rfl, hpools, rfl, by simp [hp], by rw [hnext, hn]⟩

section

variable {text : String} {b : Bank} {addr addr' : AccAddress} {cs : Coins}

-- The failures that the later parts of `RemoveLiquidity` can end with.

theorem failIf_ne_error {c : Prop} [Decidable c] {e : Failure} (h : e ≠ .error text) :
    failIf c e ≠ .error (.error text) := by
  simp only [failIf]
  split
  · exact fun he => h (Except.error.inj he)
  · simp

theorem quo_ne_error {x y : ℤ} : MathInt.quo x y ≠ .error (.error text) := by
  simp only [MathInt.quo]
  split <;> simp

theorem newCoin_ne_error {denom : String} {amount : ℤ} :
    Coin.new denom amount ≠ .error (.error text) :=
  Result.bind_ne_error (failIf_ne_error (by simp)) fun _ =>
    Result.bind_ne_error (failIf_ne_error (by simp)) fun _ => by simp [pure, Except.pure]

theorem subCoin_ne_error {c c' : Coin} : c.sub c' ≠ .error (.error text) :=
  Result.bind_ne_error (failIf_ne_error (by simp)) fun _ =>
    Result.bind_ne_error MathInt.inRange_ne_error fun _ =>
      Result.bind_ne_error (failIf_ne_error (by simp)) fun _ => by simp [pure, Except.pure]

theorem newCoins_ne_error : Coins.new cs ≠ .error (.error text) :=
  Result.bind_ne_error (failIf_ne_error (by simp)) fun _ => by simp [pure, Except.pure]

theorem subUnlockedCoins_ne_error (h : text ≠ "insufficient funds") :
    Bank.subUnlockedCoins addr cs b ≠ .error (.error text) := by
  induction cs generalizing b with
  | nil => simp [Bank.subUnlockedCoins]
  | cons c cs ih =>
    exact Result.bind_ne_error (failIf_ne_error (by simpa using h.symm)) fun _ => ih

theorem addCoins_ne_error : Bank.addCoins addr cs b ≠ .error (.error text) := by
  induction cs generalizing b with
  | nil => simp [Bank.addCoins]
  | cons c cs ih => exact Result.bind_ne_error MathInt.inRange_ne_error fun _ => ih

theorem subSupply_ne_error : Bank.subSupply cs b ≠ .error (.error text) := by
  induction cs generalizing b with
  | nil => simp [Bank.subSupply]
  | cons c cs ih => exact Result.bind_ne_error MathInt.inRange_ne_error fun _ => ih

theorem sendCoins_ne_error (h : text ≠ "insufficient funds") :
    b.sendCoins addr addr' cs ≠ .error (.error text) :=
  Result.bind_ne_error (subUnlockedCoins_ne_error h) fun _ => addCoins_ne_error

theorem burnCoins_ne_error (h : text ≠ "insufficient funds") :
    b.burnCoins addr cs ≠ .error (.error text) :=
  Result.bind_ne_error (subUnlockedCoins_ne_error h) fun _ => subSupply_ne_error

theorem payOut_ne_error (h : text ≠ "insufficient funds")
    (hb : text ≠ "not allowed to receive funds") :
    b.sendCoinsFromModuleToAccount addr addr' cs ≠ .error (.error text) :=
  Result.bind_ne_error (failIf_ne_error (by simpa using hb.symm)) fun _ => sendCoins_ne_error h

end

variable {provider : AccAddress} {poolId : ℕ} {pool : Pool} {tokens : Coin}

-- Without a record nobody withdraws.
theorem removeLiquidity_no_record (hp : s.pools.get poolId = some pool)
    (hr : s.record poolId provider = none) :
    k.removeLiquidity provider poolId tokens s = .error (.error "insufficient liquidity tokens") := by
  rw [State.record] at hr
  simp only [Keeper.removeLiquidity, hp, hr]
  rfl

-- Who has a record is not told that it is missing.
theorem removeLiquidity_record (hp : s.pools.get poolId = some pool)
    (hr : s.record poolId provider = some tokens) :
    k.removeLiquidity provider poolId tokens s ≠
      .error (.error "insufficient liquidity tokens") := by
  rw [State.record] at hr
  simp only [Keeper.removeLiquidity, hp, hr, orFail, Option.elim, Result.ok_bind, failIf, lt_irrefl,
    if_false]
  refine Result.bind_ne_error MathInt.inRange_ne_error fun _ => ?_
  refine Result.bind_ne_error quo_ne_error fun _ => ?_
  refine Result.bind_ne_error MathInt.inRange_ne_error fun _ => ?_
  refine Result.bind_ne_error quo_ne_error fun _ => ?_
  refine Result.bind_ne_error newCoin_ne_error fun _ => ?_
  refine Result.bind_ne_error newCoin_ne_error fun _ => ?_
  refine Result.bind_ne_error newCoins_ne_error fun _ => ?_
  refine Result.bind_ne_error (sendCoins_ne_error (by decide)) fun _ => ?_
  refine Result.bind_ne_error newCoins_ne_error fun _ => ?_
  refine Result.bind_ne_error (burnCoins_ne_error (by decide)) fun _ => ?_
  refine Result.bind_ne_error newCoins_ne_error fun _ => ?_
  refine Result.bind_ne_error (payOut_ne_error (by decide) (by decide)) fun _ => ?_
  refine Result.bind_ne_error subCoin_ne_error fun _ => ?_
  refine Result.bind_ne_error subCoin_ne_error fun _ => ?_
  refine Result.bind_ne_error subCoin_ne_error fun _ => ?_
  refine Result.bind_ne_error subCoin_ne_error fun _ => ?_
  simp [pure, Except.pure]

-- A record that is lost is missed by its owner.
theorem answer_of_record (hs : s.Indexed) (hr : s.record poolId provider = some tokens) :
    k.answer { s with poolLiquidity := .empty } (.deliver (.removeLiquidity provider poolId tokens)) ≠
      k.answer s (.deliver (.removeLiquidity provider poolId tokens)) := by
  have hrec : s.record poolId provider ≠ none := by
    simp [hr]
  obtain ⟨pool, hp⟩ := Option.ne_none_iff_exists'.mp (hs.records hrec)
  have hne := removeLiquidity_record (k := k) hp hr
  have hlost : k.removeLiquidity provider poolId tokens { s with poolLiquidity := .empty } =
      .error (.error "insufficient liquidity tokens") :=
    removeLiquidity_no_record hp rfl
  simp only [Keeper.answer, hlost]
  cases hc : k.removeLiquidity provider poolId tokens s with
  | ok _ =>
    intro h
    cases h
  | error e =>
    intro h
    have he : (Except.error (.error "insufficient liquidity tokens") : Result Answer) = .error e := h
    cases he
    exact hne hc

-- Nothing changes by an export and an import exactly when nobody has a share in a pool.
theorem roundTrips_iff_no_records (k : Keeper) {s : State} (h : (chain k).Reachable s) :
    RoundTrips k s ↔ s.params ≠ none ∧ s.poolLiquidity = .empty := by
  have hs : s.Indexed := indexed_invariant.holds h
  constructor
  case mp =>
    rintro ⟨gs, he, _, _, _, hall⟩
    rw [initGenesis_exportGenesis hs he] at hall
    simp only [exportGenesis, Result.bind_eq_ok, orFail_eq_ok] at he
    obtain ⟨params, hp, _⟩ := he
    refine ⟨by simp [hp], KVStore.eq_of_get fun key => ?_⟩
    by_contra hne
    obtain ⟨tokens, hr⟩ := Option.ne_none_iff_exists'.mp hne
    have hone := hall [.deliver (.removeLiquidity (ofLex key).2 (ofLex key).1 tokens)]
    simp only [Keeper.answers, List.cons.injEq, and_true] at hone
    exact answer_of_record hs hr hone
  case mpr =>
    rintro ⟨hp, hempty⟩
    obtain ⟨params, hp⟩ := Option.ne_none_iff_exists'.mp hp
    refine ⟨_, exportGenesis_ok hp, ?_⟩
    have hsame : { s with poolLiquidity := .empty } = s := by
      rw [← hempty]
    rw [initGenesis_exportGenesis hs (exportGenesis_ok hp), hsame]
    exact ⟨rfl, rfl, rfl, fun _ => rfl⟩

namespace Sample

def started : State :=
  initGenesis defaultGenesisState (.blank genesis.bank)

def opened : State :=
  keeper.nextWrapped started (.deliver list)

theorem started_reachable : (chain keeper).Reachable started :=
  .init ⟨defaultGenesisState, genesis.bank, defaultGenesisState_validate, rfl⟩

theorem opened_reachable : (chain keeper).Reachable opened :=
  .step (a := .deliver list) started_reachable trivial ⟨trivial, rfl⟩

end Sample

theorem started_roundTrips_iff :
    RoundTrips Sample.keeper Sample.started ↔
      Sample.started.params ≠ none ∧ Sample.started.poolLiquidity = .empty :=
  roundTrips_iff_no_records Sample.keeper Sample.started_reachable

-- After an import the provider of a pool gets nothing back.
theorem provider_forgotten :
    ¬∀ (k : Keeper) (s : State), (chain k).Reachable s → RoundTrips k s := by
  intro h
  obtain ⟨gs, he, _, _, _, hall⟩ := h Sample.keeper Sample.opened Sample.opened_reachable
  have hone := hall [.deliver (.removeLiquidity Sample.alice 1 ⟨"liquidity-1", 6324⟩)]
  have hbefore : Sample.keeper.answers Sample.opened
      [.deliver (.removeLiquidity Sample.alice 1 ⟨"liquidity-1", 6324⟩)] =
        [.ok (.paid [⟨"uatom", 5000⟩, ⟨"umlcn", 8000⟩])] := by
    decide +kernel
  have hafter : (do
      let gs ← exportGenesis Sample.opened
      return Sample.keeper.answers (initGenesis gs (.blank Sample.opened.bank))
        [.deliver (.removeLiquidity Sample.alice 1 ⟨"liquidity-1", 6324⟩)] : Result _) =
      .ok [.error (.error "insufficient liquidity tokens")] := by
    decide +kernel
  rw [he] at hafter
  cases hafter.symm.trans (congrArg Except.ok (hone.trans hbefore))

end Dex
