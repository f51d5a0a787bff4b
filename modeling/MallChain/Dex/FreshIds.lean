import MallChain.Dex.Genesis

namespace Dex

open Sdk

-- No pool is opened with the largest number, after which the counter starts again.
def NotExhausted (s : State) (a : Action) : Prop :=
  ∀ creator tokenA tokenB fee, a = .deliver (.createPool creator tokenA tokenB fee) →
    s.getNextPoolId + 1 < 2 ^ 64

-- The numbers from the counter on are not taken.
structure State.FreshIds (s : State) : Prop where
  counter : ∃ n, s.nextPoolId = some n ∧ n < 2 ^ 64
  unused  : ∀ {id}, s.getNextPoolId ≤ id → s.pools.get id = none

variable {k : Keeper} {s s' : State} {a : Action} {gs : GenesisState}

-- Only `CreatePool` moves the counter.
theorem created_of_counter (h : k.act s a = .ok s') (hne : s'.nextPoolId ≠ s.nextPoolId) :
    ∃ creator tokenA tokenB fee, a = .deliver (.createPool creator tokenA tokenB fee) := by
  cases a with
  | deliver m =>
    simp only [Keeper.act] at h
    cases m with
    | createPool creator tokenA tokenB fee => exact ⟨creator, tokenA, tokenB, fee, rfl⟩
    | addLiquidity =>
      obtain ⟨_, _, hr, _⟩ := of_addLiquidity h
      exact absurd hr.next hne
    | removeLiquidity =>
      simp only [Keeper.deliver, Result.bind_eq_ok, Result.pure_eq_ok] at h
      obtain ⟨⟨s₁, outs⟩, h, rfl⟩ := h
      obtain ⟨_, _, hr, _⟩ := of_removeLiquidity h
      exact absurd hr.next hne
    | swap =>
      simp only [Keeper.deliver, Result.bind_eq_ok, Result.pure_eq_ok] at h
      obtain ⟨⟨s₁, out⟩, h, rfl⟩ := h
      obtain ⟨_, _, _, _, hr, _⟩ := of_swap h
      exact absurd hr.next hne
    | updateParams =>
      simp only [Keeper.deliver, Keeper.updateParams, Result.bind_eq_ok, Result.pure_eq_ok] at h
      obtain ⟨_, _, _, _, rfl⟩ := h
      exact absurd rfl hne
  | send | mint | burn =>
    simp only [Keeper.act, Result.bind_eq_ok, Result.pure_eq_ok] at h
    obtain ⟨_, _, rfl⟩ := h
    exact absurd rfl hne

theorem State.FreshIds.wrapped (h : s.FreshIds) : s.wrapped.FreshIds := by
  obtain ⟨n, hn, hlt⟩ := h.counter
  have hw : s.wrapped.nextPoolId = some n := by
    rw [State.wrapped_nextPoolId hn, Nat.mod_eq_of_lt hlt]
  refine ⟨⟨n, hw, hlt⟩, fun {id} hle => h.unused ?_⟩
  simpa [State.getNextPoolId, hw, hn] using hle

theorem State.FreshIds.next (h : s.FreshIds) (ha : a.Allowed) (hg : NotExhausted s a) :
    (k.nextWrapped s a).FreshIds := by
  refine .wrapped ?_
  obtain ⟨n, hn, hlt⟩ := h.counter
  rw [Keeper.next]
  split
  case h_2 => exact h
  case h_1 s' hact =>
    have he := of_act hact ha
    generalize a.signer = user at he
    cases he with
    | @created creator pool hc =>
      have hid : pool.id = n := by simpa [State.getNextPoolId, hn] using hc.id
      have hmoved : s'.nextPoolId ≠ s.nextPoolId := by
        simp [hc.next, hn, hid]
      obtain ⟨creator, tokenA, tokenB, fee, ha⟩ := created_of_counter hact hmoved
      have hbound := hg creator tokenA tokenB fee ha
      simp only [State.getNextPoolId, hn, Option.getD_some] at hbound
      refine ⟨⟨n + 1, by rw [hc.next, hid], hbound⟩, fun {id} hle => ?_⟩
      simp only [State.getNextPoolId, hc.next, hid, Option.getD_some] at hle
      rw [hc.pools, hid, KVStore.get_set_ne (by omega)]
      refine h.unused ?_
      simp only [State.getNextPoolId, hn, Option.getD_some]
      omega
    | @replaced user poolId pool pool' hr =>
      refine ⟨⟨n, hr.next.trans hn, hlt⟩, fun {id} hle => ?_⟩
      rw [State.getNextPoolId, hr.next] at hle
      have hid : id ≠ poolId := by
        rintro rfl
        exact absurd hr.get (by simp [h.unused hle])
      rw [hr.pools, KVStore.get_set_ne hid]
      exact h.unused hle
    | params _ he | bank he =>
      subst he
      exact ⟨h.counter, h.unused⟩

theorem initGenesis_freshIds (bank : Bank)
    (h : ∀ pool, some pool ∈ gs.pools → pool.id < gs.nextPoolId.toNat) :
    (initGenesis gs (.blank bank)).FreshIds := by
  refine ⟨⟨_, rfl, gs.nextPoolId.toNat_lt⟩, fun {id} hle => ?_⟩
  by_contra hne
  obtain ⟨pool, hp⟩ := Option.ne_none_iff_exists'.mp hne
  rw [initGenesis_pools] at hp
  have hmem := KVStore.mem_of_get_ofValues hp
  have hlt := h pool (List.reduceOption_mem_iff.mp hmem.1)
  exact absurd hle (by simpa [initGenesis, State.getNextPoolId, ← hmem.2] using hlt)

-- While the counter of the genesis lies above the ids of its pools and does not overflow, no new
-- pool takes the place of another one.
theorem createPool_fresh (k : Keeper) (gs : GenesisState) (bank : Bank)
    (hids : ∀ pool, some pool ∈ gs.pools → pool.id < gs.nextPoolId.toNat) {s : State}
    (h : ((chain k).startingAt (initGenesis gs (.blank bank))).Run NotExhausted s)
    (creator : AccAddress) (tokenA tokenB : Coin) (fee : String) (s' : State) (poolId : ℕ)
    (hc : k.createPool creator tokenA tokenB fee s = .ok (s', poolId)) :
    s.pools.get poolId = none ∧
    ∀ id pool, s.pools.get id = some pool → s'.pools.get id = some pool := by
  have hI : ((chain k).startingAt (initGenesis gs (.blank bank))).Invariant NotExhausted
      State.FreshIds := {
    init := by
      rintro s rfl
      exact initGenesis_freshIds bank hids
    step := by
      rintro s a s' hs hg ⟨ha, rfl⟩
      exact hs.next ha hg
  }
  obtain ⟨pool, rfl, hcreated⟩ := of_createPool hc
  have hnone : s.pools.get pool.id = none := (hI.holds h).unused hcreated.id.ge
  refine ⟨hnone, fun id p hp => ?_⟩
  have hne : id ≠ pool.id := by
    rintro rfl
    simp [hnone] at hp
  rw [hcreated.pools, KVStore.get_set_ne hne]
  exact hp

namespace Sample

def imported : Pool where
  id             := 1
  tokenADenom    := "uatom"
  tokenBDenom    := "umlcn"
  tokenAReserve  := ⟨"uatom", 700⟩
  tokenBReserve  := ⟨"umlcn", 900⟩
  totalLiquidity := ⟨"liquidity-1", 793⟩
  fee            := "0.003"
  creator        := alice

-- A genesis that has one pool, with the given counter.
def counting (nextPoolId : UInt64) : GenesisState where
  params     := some defaultParams
  pools      := [some imported]
  nextPoolId := nextPoolId

end Sample

theorem counting_fresh :
    ∃ s' poolId, Sample.keeper.createPool Sample.alice ⟨"uatom", 5000⟩ ⟨"umlcn", 8000⟩ ""
        (initGenesis (Sample.counting 2) (.blank Sample.genesis.bank)) = .ok (s', poolId) ∧
      (initGenesis (Sample.counting 2) (.blank Sample.genesis.bank)).pools.get poolId = none ∧
      ∀ id pool, (initGenesis (Sample.counting 2) (.blank Sample.genesis.bank)).pools.get id =
        some pool → s'.pools.get id = some pool := by
  have hok : (Sample.keeper.createPool Sample.alice ⟨"uatom", 5000⟩ ⟨"umlcn", 8000⟩ ""
      (initGenesis (Sample.counting 2) (.blank Sample.genesis.bank))).isOk = true := by
    decide +kernel
  obtain ⟨⟨s', poolId⟩, hc⟩ := Result.isOk_iff.mp hok
  have hids : ∀ pool, some pool ∈ (Sample.counting 2).pools →
      pool.id < (Sample.counting 2).nextPoolId.toNat := by
    intro pool hmem
    simp only [Sample.counting, List.mem_singleton, Option.some.injEq] at hmem
    subst hmem
    decide
  exact ⟨s', poolId, hc, createPool_fresh Sample.keeper (Sample.counting 2) Sample.genesis.bank hids
    (.init rfl) _ _ _ _ s' poolId hc⟩

-- A genesis whose counter stands at one of its pools is accepted, and the next pool takes its place.
theorem imported_pool_overwritten :
    ¬∀ (k : Keeper) (gs : GenesisState) (bank : Bank), gs.validate = .ok () → ∀ s : State,
      ((chain k).startingAt (initGenesis gs (.blank bank))).Reachable s →
      ∀ creator tokenA tokenB fee s' poolId,
        k.createPool creator tokenA tokenB fee s = .ok (s', poolId) → s.pools.get poolId = none := by
  intro h
  have hv : (Sample.counting 1).validate = .ok () := by
    decide +kernel
  have hall := h Sample.keeper (Sample.counting 1) Sample.genesis.bank hv _ (.init rfl) Sample.alice
    ⟨"uatom", 5000⟩ ⟨"umlcn", 8000⟩ ""
  have hok : (Sample.keeper.createPool Sample.alice ⟨"uatom", 5000⟩ ⟨"umlcn", 8000⟩ ""
      (initGenesis (Sample.counting 1) (.blank Sample.genesis.bank))).map (·.2) = .ok 1 := by
    decide +kernel
  cases hc : Sample.keeper.createPool Sample.alice ⟨"uatom", 5000⟩ ⟨"umlcn", 8000⟩ ""
      (initGenesis (Sample.counting 1) (.blank Sample.genesis.bank)) with
  | error e =>
    rw [hc] at hok
    cases hok
  | ok r =>
    rw [hc] at hok
    cases r with
    | mk s' id =>
      cases hok
      have hnone := hall s' 1 hc
      have hsome : (initGenesis (Sample.counting 1) (.blank Sample.genesis.bank)).pools.get 1 =
          some Sample.imported := by
        decide +kernel
      rw [hsome] at hnone
      cases hnone

end Dex
