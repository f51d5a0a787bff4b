import MallChain.Mallpoints.Keeper

namespace Mallpoints

open Sdk

-- The event of a conversion. The ratio is the one that was read before anything else.
structure ConvertPoints where
  user       : String
  points     : UInt64
  amount     : UInt64
  ratioFixed : UInt64
  ratioScale : UInt64
  deriving DecidableEq, Repr

namespace State

def mallpointsOf (s : State) (user : String) : ℕ :=
  (s.userPoints.get user).elim 0 fun u => u.points.toNat

def mallcoinsOf (s : State) (user : String) : ℕ :=
  (s.mlcoin.wallet user).balance.toNat

-- What a number of points is worth, as an integer that is rounded down.
def worth (s : State) (amount : UInt64) : ℕ :=
  amount.toNat * s.getConversionRatio.1.toNat / s.getConversionRatio.2.toNat

-- Nothing of what the points are worth is burned: the product with the burn rate, as a 64-bit number,
-- is less than one base unit.
def BurnFree (s : State) (amount : UInt64) : Prop :=
  ∀ e, s.mlcoin.emissionState = some e →
    s.worth amount * e.burnRateBps.toNat % 2 ^ 64 < 10000

end State

namespace Keeper

-- The message server with the event that it emits.
def convertAndAnnounce (k : Keeper) (ctx : Mlcoin.Context) (creator : String) (amount : UInt64)
    (s : State) : Result (State × ConvertPoints) := do
  let minted ← Mlcoin.wrapErr "conversion ratio math" (mintedAmount amount s)
  let s' ← k.convertToMallcoin ctx creator amount s
  return (s', {
    user       := creator
    points     := amount
    amount     := minted
    ratioFixed := s.getConversionRatio.1
    ratioScale := s.getConversionRatio.2
  })

-- The state after the message. A message that fails is reverted.
def afterConvert (k : Keeper) (ctx : Mlcoin.Context) (creator : String) (amount : UInt64)
    (s : State) : State :=
  ((k.convertAndAnnounce ctx creator amount s).toOption.map (·.1)).getD s

end Keeper

-- The points become the coins that they are worth, as announced.
structure Settled (creator : String) (amount : UInt64) (event : ConvertPoints) (s s' : State) : Prop where
  points    : s'.mallpointsOf creator + amount.toNat = s.mallpointsOf creator
  coins     : s'.mallcoinsOf creator = s.mallcoinsOf creator + s.worth amount
  announced : event.amount.toNat = s.worth amount

-- What a conversion does, whether a part is burned or not.
structure Announced (creator : String) (amount : UInt64) (event : ConvertPoints) (s s' : State) : Prop where
  points    : s'.mallpointsOf creator + amount.toNat = s.mallpointsOf creator
  announced : event.amount.toNat = s.worth amount
  coins     : ∃ e, s.mlcoin.emissionState = some e ∧
    s'.mallcoinsOf creator = s.mallcoinsOf creator + (e.netAmount event.amount).toNat

variable {k : Keeper} {ctx : Mlcoin.Context} {creator : String} {amount : UInt64} {s s' : State}
variable {event : ConvertPoints}

theorem of_convertAndAnnounce (h : k.convertAndAnnounce ctx creator amount s = .ok (s', event)) :
    Announced creator amount event s s' := by
  simp only [Keeper.convertAndAnnounce, Keeper.convertToMallcoin, Keeper.mintToUser,
    Result.bind_eq_ok, failIf_eq_ok, orFail_eq_ok, Mlcoin.wrapErr_eq_ok, Result.pure_eq_ok,
    Prod.mk.injEq, not_lt] at h
  obtain ⟨minted, hm, _, ⟨_, _, minted', hm', _, _, _, _, old, hget, _, hle, mlcoin, hmint, rfl⟩,
    rfl, rfl⟩ := h
  cases hm.symm.trans hm'
  obtain ⟨e, hmint⟩ := Mlcoin.of_mintToWallet hmint
  refine ⟨?points, of_safeMulDiv hm, e, hmint.emission, ?coins⟩
  case points =>
    have hsub := UInt64.toNat_sub_of_le old.points amount hle
    have hnat := UInt64.le_iff_toNat_le.mp hle
    simp only [State.mallpointsOf, KVStore.get_set_self, hget, Option.elim_some, hsub]
    omega
  case coins =>
    have hwallet : (mlcoin.wallet creator).balance =
        (s.mlcoin.wallet creator).balance + e.netAmount minted := by
      rw [Mlcoin.State.wallet, hmint.state, KVStore.get_set_self]
      rfl
    have hfits := hmint.balance
    simp only [State.mallcoinsOf, hwallet, UInt64.toNat_add]
    exact Nat.mod_eq_of_lt hfits

-- The net amount is the whole one exactly if nothing is burned.
theorem netAmount_eq_iff {e : Mlcoin.EmissionState} {minted : UInt64} :
    (e.netAmount minted).toNat = minted.toNat ↔
      minted.toNat * e.burnRateBps.toNat % 2 ^ 64 < 10000 := by
  have hburn : (e.burnAmount minted).toNat = minted.toNat * e.burnRateBps.toNat % 2 ^ 64 / 10000 := by
    rw [Mlcoin.EmissionState.burnAmount, UInt64.toNat_div, UInt64.toNat_mul]
    rfl
  have hm := minted.toNat_lt
  have hb := (e.burnAmount minted).toNat_lt
  rw [Mlcoin.EmissionState.netAmount, UInt64.toNat_sub]
  omega

theorem Announced.settled_iff (h : Announced creator amount event s s') :
    Settled creator amount event s s' ↔ s.BurnFree amount := by
  obtain ⟨hpoints, hannounced, e, he, hcoins⟩ := h
  have hnet : (e.netAmount event.amount).toNat = event.amount.toNat ↔ _ := netAmount_eq_iff
  rw [hannounced] at hnet
  constructor
  · rintro ⟨_, hsettled, _⟩ e' he'
    cases he.symm.trans he'
    exact hnet.mp (by omega)
  · intro hfree
    exact ⟨hpoints, by rw [hcoins, hnet.mpr (hfree e he)], hannounced⟩

-- A conversion that succeeds settles what it announces exactly if nothing is burned, and one that
-- fails changes nothing.
theorem conversion_settles_iff (k : Keeper) (ctx : Mlcoin.Context) (creator : String)
    (amount : UInt64) (s : State) :
    (∀ s' event, k.convertAndAnnounce ctx creator amount s = .ok (s', event) →
      (Settled creator amount event s s' ↔ s.BurnFree amount)) ∧
    ∀ e, k.convertAndAnnounce ctx creator amount s = .error e →
      k.afterConvert ctx creator amount s = s := by
  refine ⟨fun s' event h => (of_convertAndAnnounce h).settled_iff, fun e h => ?_⟩
  rw [Keeper.afterConvert, h]
  rfl

namespace Sample

-- Everybody converts on December 27.
def anyone : Keeper where
  addressCodec text := if text = "" then none else some (.ofBytes (text.toList.map Char.toNat))
  hasUserBadge _    := false

def december27 : Mlcoin.Context where
  blockTime   := 1798329600
  blockHeight := 10

-- A part of 1/100 is burned, or nothing.
def earner (burnRateBps : UInt64) : State where
  userPoints := KVStore.empty.set "alice" { address := "alice", points := 10000 }
  mlcoin     := {
    emissionState := some {
      totalSupply := 670000000
      circulating := 160000000
      dailyLimit  := 96774
      burnRateBps := burnRateBps
    }
  }

end Sample

-- 10000 points are announced as 32000 and arrive as 31680.
theorem burn_not_announced : ¬∀ (k : Keeper) (ctx : Mlcoin.Context) (creator : String)
    (amount : UInt64) (s s' : State) (event : ConvertPoints),
    k.convertAndAnnounce ctx creator amount s = .ok (s', event) →
      Settled creator amount event s s' := by
  intro h
  obtain ⟨⟨s', event⟩, hs⟩ := Result.isOk_iff.mp (by decide +kernel :
    (Sample.anyone.convertAndAnnounce Sample.december27 "alice" 10000 (Sample.earner 100)).isOk = true)
  have hfree := (of_convertAndAnnounce hs).settled_iff.mp (h _ _ _ _ _ s' event hs)
  have hlt := hfree _ rfl
  revert hlt
  decide +kernel

theorem sample_conversion_settles : ∃ s' event,
    Sample.anyone.convertAndAnnounce Sample.december27 "alice" 10000 (Sample.earner 0) =
      .ok (s', event) ∧ event.amount = 32000 ∧
    Settled "alice" 10000 event (Sample.earner 0) s' := by
  obtain ⟨⟨s', event⟩, hs⟩ := Result.isOk_iff.mp (by decide +kernel :
    (Sample.anyone.convertAndAnnounce Sample.december27 "alice" 10000 (Sample.earner 0)).isOk = true)
  have hevent : (Sample.anyone.convertAndAnnounce Sample.december27 "alice" 10000
      (Sample.earner 0)).map (·.2.amount) = .ok 32000 := by
    decide +kernel
  rw [hs] at hevent
  refine ⟨s', event, hs, Except.ok.inj hevent, ?_⟩
  refine ((conversion_settles_iff _ _ _ _ _).1 s' event hs).mpr fun e he => ?_
  cases he
  decide +kernel

end Mallpoints
