import MallChain.Dex.WellFormed

namespace Dex

open Sdk

-- What all pools together hold of a denomination.
def State.reserves (s : State) (d : String) : ℤ :=
  s.pools.sum fun _ pool => pool.reserves.amountOf d

-- The three ledgers of the module agree: the bank covers the reserves, and the shares of a pool are
-- counted alike by the pool, by the records of its providers and by the bank.
structure State.Solvent (k : Keeper) (s : State) : Prop where
  reserves : ∀ d, s.reserves d ≤ s.bank.balances k.moduleAddr d
  shares   : ∀ id pool, s.pools.get id = some pool →
    s.shareSum id = pool.totalLiquidity.amount ∧
    pool.totalLiquidity.amount = s.bank.supply (liquidityDenom id)

variable {k : Keeper} {s s' : State} {pool pool' : Pool} {creator user : AccAddress} {poolId : ℕ}

theorem amountOf_gain {d : String} (hA : pool'.tokenAReserve.denom = pool.tokenAReserve.denom)
    (hB : pool'.tokenBReserve.denom = pool.tokenBReserve.denom) :
    pool'.reserves.amountOf d = pool.reserves.amountOf d + Coins.amountOf (pool.gain pool') d := by
  simp only [Pool.reserves, Pool.gain, Coins.amountOf_cons, Coins.amountOf_nil, hA, hB]
  split_ifs <;> ring

theorem Created.reserves (h : Created k creator pool s s') (hw : s.WellFormed) (d : String) :
    s'.reserves d = s.reserves d + pool.reserves.amountOf d := by
  have hn : s.pools.get pool.id = none := hw.fresh h.id.ge
  rw [State.reserves, h.pools, KVStore.sum_set_new hn, State.reserves]

theorem Replaced.reserves (h : Replaced k user poolId pool pool' s s') (d : String) :
    s'.reserves d = s.reserves d + Coins.amountOf (pool.gain pool') d := by
  rw [State.reserves, h.pools, KVStore.sum_set_old h.get, amountOf_gain h.denomA.2 h.denomB.2,
    State.reserves]
  ring

-- The records of an id that has no pool yet add up to nothing.
theorem shareSum_fresh (hw : s.WellFormed) {id : ℕ} (h : s.pools.get id = none) :
    s.shareSum id = 0 := by
  refine KVStore.sum_zero fun key c hk => ?_
  split_ifs with hid
  · have hr : s.record id (ofLex key).2 ≠ none := by
      have hkey : liquidityKey id (ofLex key).2 = key := by simp [liquidityKey, ← hid]
      simp [State.record, hkey, hk]
    exact absurd h (hw.records hr)
  · rfl

theorem Created.solvent (h : Created k creator pool s s') (hc : creator ≠ k.moduleAddr)
    (hw : s.WellFormed) (hs : s.Solvent k) : s'.Solvent k where
  reserves d := by
    have hb := hs.reserves d
    rw [h.reserves hw, h.bank.balances]
    simp only [Pi.add_apply, Pi.sub_apply, Bank.held, hc.symm, if_true, if_false]
    omega
  shares id p hg := by
    have hn : s.pools.get pool.id = none := hw.fresh h.id.ge
    have hr : s.record pool.id creator = none := by
      by_contra hr
      exact hw.records hr hn
    have hsum : s'.shareSum id = s.shareSum id + if pool.id = id then pool.totalLiquidity.amount else 0 := by
      have hsum := shareSum_set s pool.id creator pool.totalLiquidity id
      simpa [State.shareSum, h.records, hr] using hsum
    rw [hsum, h.bank.supply, amountOf_shares h.denomL]
    by_cases hid : id = pool.id
    case pos =>
      rw [h.pools, hid, KVStore.get_set_self] at hg
      cases hg
      simp [hid, shareSum_fresh hw hn, hw.supply h.id.ge]
    case neg =>
      rw [h.pools, KVStore.get_set_ne hid] at hg
      simpa [Ne.symm hid] using hs.shares id p hg

theorem Replaced.solvent (h : Replaced k user poolId pool pool' s s') (hc : user ≠ k.moduleAddr)
    (hw : s.WellFormed) (hs : s.Solvent k) : s'.Solvent k where
  reserves d := by
    have hb := hs.reserves d
    rw [h.reserves, h.bank.balances]
    simp only [Pi.add_apply, Pi.sub_apply, Bank.held, hc.symm, if_true, if_false]
    omega
  shares id p hg := by
    rw [h.shareSum, h.bank.supply, amountOf_minted (hw.pools h.get)]
    by_cases hid : id = poolId
    case pos =>
      rw [h.pools, hid, KVStore.get_set_self] at hg
      cases hg
      obtain ⟨h₁, h₂⟩ := hs.shares poolId pool h.get
      simp only [hid, if_true]
      omega
    case neg =>
      rw [h.pools, KVStore.get_set_ne hid] at hg
      simpa [Ne.symm hid] using hs.shares id p hg

theorem Effect.solvent {u : Option AccAddress} (h : Effect k s s' u) (hu : u ≠ some k.moduleAddr)
    (hw : s.WellFormed) (hs : s.Solvent k) : s'.Solvent k := by
  cases h with
  | created h => exact h.solvent (fun he => hu (he ▸ rfl)) hw hs
  | replaced h => exact h.solvent (fun he => hu (he ▸ rfl)) hw hs
  | params _ h =>
    subst h
    exact ⟨hs.reserves, hs.shares⟩
  | bank h balances supply =>
    subst h
    refine ⟨fun d => (hs.reserves d).trans (balances hu d), fun id p hg => ?_⟩
    obtain ⟨h₁, h₂⟩ := hs.shares id p hg
    exact ⟨h₁, h₂.trans (supply id).symm⟩

theorem State.Empty.solvent (h : s.Empty k) : s.Solvent k where
  reserves d   := by simpa [State.reserves, h.pools] using h.balance d
  shares _ _ g := by simp [h.pools] at g

theorem solvent_invariant :
    (system k).Invariant k.Foreign fun s => s.WellFormed ∧ s.Solvent k :=
  wellFormed_invariant.strengthen (fun h => h.solvent) fun hw hs hu ht =>
    (of_step ht).elim (·.solvent hu hw hs) (· ▸ hs)

-- In every state of every run the module account covers the reserves of all pools, and the records
-- of a pool, its total and the supply of its shares are the same number.
theorem reachable_solvent (k : Keeper) {s : State} (h : (system k).Run k.Foreign s) :
    (∀ d, s.reserves d ≤ s.bank.balances k.moduleAddr d) ∧
    ∀ id pool, s.pools.get id = some pool →
      s.shareSum id = pool.totalLiquidity.amount ∧
      pool.totalLiquidity.amount = s.bank.supply (liquidityDenom id) :=
  have ⟨_, hs⟩ := solvent_invariant.holds h
  ⟨hs.reserves, hs.shares⟩

theorem traded_solvent :
    (∀ d, Sample.traded.reserves d ≤ Sample.traded.bank.balances Sample.keeper.moduleAddr d) ∧
    ∀ id pool, Sample.traded.pools.get id = some pool →
      Sample.traded.shareSum id = pool.totalLiquidity.amount ∧
      pool.totalLiquidity.amount = Sample.traded.bank.supply (liquidityDenom id) :=
  reachable_solvent Sample.keeper Sample.traded_run

end Dex
