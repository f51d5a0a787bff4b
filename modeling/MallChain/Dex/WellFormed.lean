import MallChain.Lib.Decimal
import MallChain.Dex.System

namespace Dex

open Sdk

structure Pool.WellFormed (poolId : ℕ) (pool : Pool) : Prop where
  denomA : pool.tokenAReserve.denom = pool.tokenADenom
  denomB : pool.tokenBReserve.denom = pool.tokenBDenom
  denomL : pool.totalLiquidity.denom = liquidityDenom poolId
  amtA   : 0 ≤ pool.tokenAReserve.amount
  amtB   : 0 ≤ pool.tokenBReserve.amount
  amtL   : 0 ≤ pool.totalLiquidity.amount
  fee    : 0 ≤ (parseFeeDec pool.fee).i ∧ (parseFeeDec pool.fee).i < LegacyDec.precisionReuse

-- The pools, records and supplies that exist belong to ids that were given out.
structure State.WellFormed (s : State) : Prop where
  params  : ∀ {params}, s.params = some params → params.Valid
  pools   : ∀ {id pool}, s.pools.get id = some pool → pool.WellFormed id
  fresh   : ∀ {id}, s.getNextPoolId ≤ id → s.pools.get id = none
  supply  : ∀ {id}, s.getNextPoolId ≤ id → s.bank.supply (liquidityDenom id) = 0
  records : ∀ {id provider}, s.record id provider ≠ none → s.pools.get id ≠ none

variable {k : Keeper} {s s' : State} {pool pool' : Pool} {creator user : AccAddress} {poolId : ℕ}

theorem liquidityDenom_inj {id id' : ℕ} (h : liquidityDenom id = liquidityDenom id') : id = id' := by
  apply Decimal.toString_injective
  simpa [liquidityDenom] using h

theorem fromStr_empty : LegacyDec.fromStr "" = none := by
  decide

-- A fee that passes the check of the parameters is at least zero and less than one.
theorem validateFee_range {fee : String} {params : Params} {u : Unit}
    (h : validateFee fee params = .ok u) (hp : params.Valid) :
    0 ≤ (parseFeeDec fee).i ∧ (parseFeeDec fee).i < LegacyDec.precisionReuse := by
  obtain ⟨minFee, maxFee, _, hmin, hmax, _, h₀, _, _, h₁⟩ := hp.fees
  simp only [validateFee, mustDecFromStr, Result.bind_eq_ok, orFail_eq_ok, failIf_eq_ok] at h
  obtain ⟨minFee', hmin', maxFee', hmax', dec, hdec, hr⟩ := h
  rw [hmin] at hmin'
  rw [hmax] at hmax'
  cases hmin'
  cases hmax'
  have hne : fee ≠ "" := fun he => by simp [he, fromStr_empty] at hdec
  have he : parseFeeDec fee = dec := by simp [parseFeeDec, hne, hdec]
  rw [he]
  constructor <;> omega

theorem Created.wellFormed (h : Created k creator pool s s') (hw : s.WellFormed) :
    pool.WellFormed pool.id where
  denomA := h.denomA
  denomB := h.denomB
  denomL := h.denomL
  amtA   := h.nonneg.1
  amtB   := h.nonneg.2.1
  amtL   := h.nonneg.2.2
  fee    :=
    have ⟨_, hp, hv⟩ := h.fee
    validateFee_range hv (hw.params hp)

theorem Replaced.wellFormed (h : Replaced k user poolId pool pool' s s')
    (hc : (∃ a b, Deposited pool pool' a b) ∨ (∃ l, Withdrawn pool pool' l) ∨
      ∃ params a, s.params = some params ∧ Traded pool pool' params.maxPoolDrainPercent a)
    (hw : s.WellFormed) : pool'.WellFormed poolId := by
  have hp := hw.pools h.get
  have hn : 0 ≤ pool'.tokenAReserve.amount ∧ 0 ≤ pool'.tokenBReserve.amount ∧
      0 ≤ pool'.totalLiquidity.amount := by
    rcases hc with ⟨a, b, hd⟩ | ⟨l, hl⟩ | ⟨_, _, _, ht⟩
    · have ⟨ha, hb⟩ := hd.nonneg
      exact ⟨hd.amountA ▸ add_nonneg hp.amtA ha, hd.amountB ▸ add_nonneg hp.amtB hb,
        hp.amtL.trans hd.grows⟩
    · exact hl.left
    · refine ⟨?_, ?_, ht.shares ▸ hp.amtL⟩
      all_goals rcases ht.sides with hs | hs
      · exact hs.amtIn ▸ add_nonneg hp.amtA hs.nonneg.1
      · exact hs.left
      · exact hs.left
      · exact hs.amtIn ▸ add_nonneg hp.amtB hs.nonneg.1
  exact {
    denomA := h.denomA.2.trans <| hp.denomA.trans h.denomA.1.symm
    denomB := h.denomB.2.trans <| hp.denomB.trans h.denomB.1.symm
    denomL := h.denomL.trans hp.denomL
    amtA   := hn.1
    amtB   := hn.2.1
    amtL   := hn.2.2
    fee    := h.fee ▸ hp.fee
  }

-- Shares of one pool are no coins of another.
theorem amountOf_shares {c : Coin} {id id' : ℕ} (hc : c.denom = liquidityDenom id) :
    Coins.amountOf [c] (liquidityDenom id') = if id = id' then c.amount else 0 := by
  by_cases hid : id = id'
  case pos => simp [hc, hid]
  case neg =>
    have hne : liquidityDenom id ≠ liquidityDenom id' := fun h => hid (liquidityDenom_inj h)
    simp [hc, hid, hne]

theorem amountOf_minted {id : ℕ} (h : pool.WellFormed poolId) :
    Coins.amountOf (pool.minted pool') (liquidityDenom id) =
      if poolId = id then pool'.totalLiquidity.amount - pool.totalLiquidity.amount else 0 :=
  amountOf_shares h.denomL

theorem Created.state_wellFormed (h : Created k creator pool s s') (hw : s.WellFormed) :
    s'.WellFormed := by
  have hid := h.id
  have hnext : s'.getNextPoolId = s.getNextPoolId + 1 := by
    simp [State.getNextPoolId, h.next, h.id]
  constructor
  case params => exact h.params ▸ hw.params
  case pools =>
    intro id p hg
    by_cases heq : id = pool.id
    case pos =>
      rw [h.pools, heq, KVStore.get_set_self] at hg
      cases hg
      exact heq ▸ h.wellFormed hw
    case neg => exact hw.pools (by rwa [h.pools, KVStore.get_set_ne heq] at hg)
  case fresh =>
    intro id hle
    rw [h.pools, KVStore.get_set_ne (by omega)]
    exact hw.fresh (by omega)
  case supply =>
    intro id hle
    have hne : pool.id ≠ id := by omega
    rw [h.bank.supply, amountOf_shares h.denomL, if_neg hne, add_zero]
    exact hw.supply (by omega)
  case records =>
    intro id provider hr
    by_cases heq : id = pool.id
    case pos => simp [h.pools, heq]
    case neg =>
      have hk : liquidityKey id provider ≠ liquidityKey pool.id creator :=
        fun hk => heq (key_eq_iff.mp hk).1
      rw [State.record, h.records, KVStore.get_set_ne hk] at hr
      rw [h.pools, KVStore.get_set_ne heq]
      exact hw.records hr

theorem Replaced.state_wellFormed (h : Replaced k user poolId pool pool' s s')
    (hc : (∃ a b, Deposited pool pool' a b) ∨ (∃ l, Withdrawn pool pool' l) ∨
      ∃ params a, s.params = some params ∧ Traded pool pool' params.maxPoolDrainPercent a)
    (hw : s.WellFormed) : s'.WellFormed := by
  have hnext : s'.getNextPoolId = s.getNextPoolId := by
    simp [State.getNextPoolId, h.next]
  have hlt : poolId < s.getNextPoolId := by
    by_contra hle
    have hn := hw.fresh (not_lt.mp hle)
    simp [h.get] at hn
  constructor
  case params => exact h.params ▸ hw.params
  case pools =>
    intro id p hg
    by_cases heq : id = poolId
    case pos =>
      rw [h.pools, heq, KVStore.get_set_self] at hg
      cases hg
      exact heq ▸ h.wellFormed hc hw
    case neg => exact hw.pools (by rwa [h.pools, KVStore.get_set_ne heq] at hg)
  case fresh =>
    intro id hle
    rw [h.pools, KVStore.get_set_ne (by omega)]
    exact hw.fresh (by omega)
  case supply =>
    intro id hle
    have hne : poolId ≠ id := by omega
    rw [h.bank.supply, amountOf_minted (hw.pools h.get), if_neg hne, add_zero]
    exact hw.supply (by omega)
  case records =>
    intro id provider hr
    by_cases heq : id = poolId
    case pos => simp [h.pools, heq]
    case neg =>
      rw [h.pools, KVStore.get_set_ne heq]
      exact hw.records <| (h.records id provider hr).resolve_left heq

theorem Effect.wellFormed {u : Option AccAddress} (h : Effect k s s' u) (hw : s.WellFormed) :
    s'.WellFormed := by
  cases h with
  | created h => exact h.state_wellFormed hw
  | replaced h hc => exact h.state_wellFormed hc hw
  | params valid h =>
    subst h
    exact ⟨fun he => by cases he; exact Params.of_validate valid, hw.pools, hw.fresh, hw.supply,
      hw.records⟩
  | bank h _ supply =>
    subst h
    exact ⟨hw.params, hw.pools, hw.fresh, fun hid => (supply _).trans (hw.supply hid), hw.records⟩

theorem State.Empty.wellFormed (h : s.Empty k) : s.WellFormed where
  params hp  := Params.of_validate (h.params _ hp)
  pools hg   := by simp [h.pools] at hg
  fresh _    := by simp [h.pools]
  supply _   := h.supply _
  records hr := by simp [State.record, h.records] at hr

theorem wellFormed_invariant {guard : State → Action → Prop} :
    (system k).Invariant guard State.WellFormed where
  init h     := h.wellFormed
  step h _ t := (of_step t).elim (·.wellFormed h) (· ▸ h)

theorem wellFormed (h : (system k).Reachable s) : s.WellFormed :=
  wellFormed_invariant.holds h

end Dex
