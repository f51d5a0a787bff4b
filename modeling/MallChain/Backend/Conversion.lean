import MallChain.Backend.Number
import MallChain.Mallpoints.Keeper

namespace Backend

open Sdk

-- The result of an operation on numbers, unless it is infinite. What follows an infinite number is
-- infinite too and is refused in the end.
def number (x : ℚ) : Option ℚ :=
  if Binary64.isFinite x then some (Binary64.round x) else none

def mlcnsDecimals : ℕ := 6
def defaultMlptsPerMlcnsFixed : ℚ := 3200000
def mlptsPerMlcnsScale : ℚ := 1000000

def toBaseUnits (amount : ℚ) : Option ℤ := do
  let units ← number (amount * 10 ^ mlcnsDecimals)
  return ⌊units⌋

-- `getChainParams`. The parameter is decoded into a number.
def mlptsPerMlcns (param : UInt64) : ℚ :=
  let mlptsFixed := Binary64.round param.toNat
  if mlptsFixed > 0 then mlptsFixed else defaultMlptsPerMlcnsFixed

-- The amount of `/convert`, in MLCNS.
def mlcoins (pointsToConvert ratio : ℚ) : Option ℚ := do
  let product ← number (pointsToConvert * ratio)
  let mlcoinsRaw ← number (product / mlptsPerMlcnsScale)
  let scaled ← number (mlcoinsRaw * mlptsPerMlcnsScale)
  number (mathRound scaled / mlptsPerMlcnsScale)

-- `/convert` as far as the amount of the transfer, in base units. The balance is that of the account.
def convert (maxPerRequest : ℚ) (param : UInt64) (balance : ℚ) : Option ℤ := do
  let pointsToConvert : ℤ := ⌊balance⌋
  if pointsToConvert ≤ 0 then none else
    let amount ← mlcoins pointsToConvert (mlptsPerMlcns param)
    if amount ≤ 0 ∨ amount > maxPerRequest then none else toBaseUnits amount

variable {x y ratio balance maxPerRequest : ℚ} {param : UInt64} {points units : ℤ}

theorem of_number (h : number x = some y) : y = Binary64.round x := by
  rw [number] at h
  split_ifs at h
  exact (Option.some_inj.mp h).symm

-- Rounding keeps most of a number of at least one half.
theorem le_round (hx : 1 / 2 ≤ x) : 9 / 10 * x ≤ Binary64.round x := by
  have hn : Binary64.minNormal ≤ x := by
    have hz : Binary64.minNormal ≤ (2 : ℚ) ^ (-1 : ℤ) := zpow_le_zpow_right₀ one_le_two (by norm_num)
    norm_num at hz hx
    linarith
  calc 9 / 10 * x ≤ x * (1 - 1 / 2 ^ 53) := by
        rw [mul_comm]
        exact mul_le_mul_of_nonneg_left (by norm_num) (by linarith)
    _ ≤ Binary64.round x := Binary64.le_round hn

theorem le_number (hx : 1 / 2 ≤ x) (h : number x = some y) : 9 / 10 * x ≤ y := by
  rw [of_number h]
  exact le_round hx

theorem le_mlcoins {amount : ℚ} (hx : 900000 ≤ x * ratio) (h : mlcoins x ratio = some amount) :
    3 / 5 * (x * ratio) ≤ amount * 1000000 := by
  simp only [mlcoins, mlptsPerMlcnsScale, Option.bind_eq_bind, Option.bind_eq_some_iff] at h
  obtain ⟨product, hproduct, mlcoinsRaw, hraw, scaled, hscaled, h⟩ := h
  have h₁ := le_number (by linarith) hproduct
  have h₂ := le_number (by linarith) hraw
  have h₃ := le_number (by linarith) hscaled
  have hround : scaled - 1 / 2 ≤ mathRound scaled := by
    have hlt := Int.lt_floor_add_one (scaled + 1 / 2)
    rw [mathRound]
    linarith
  have h₄ := le_number (by linarith) h
  linarith

theorem le_toBaseUnits (hx : 1 ≤ x * 1000000) (h : toBaseUnits x = some units) :
    9 / 10 * (x * 1000000) - 1 ≤ units := by
  simp only [toBaseUnits, mlcnsDecimals, Option.bind_eq_bind, Option.bind_eq_some_iff, Option.pure_def,
    Option.some_inj] at h
  obtain ⟨scaled, hscaled, h⟩ := h
  subst h
  norm_num at hscaled
  have h₁ := le_number (by linarith) hscaled
  have hlt := Int.lt_floor_add_one scaled
  linarith

theorem pos_of_convert (h : convert maxPerRequest param balance = some units) : 0 < ⌊balance⌋ := by
  rw [convert] at h
  split_ifs at h with hz
  exact not_le.mp hz

-- The backend credits about the points times the parameter, without the division by the scale.
theorem le_convert (hx : 900000 ≤ ⌊balance⌋ * mlptsPerMlcns param)
    (h : convert maxPerRequest param balance = some units) :
    1 / 2 * (⌊balance⌋ * mlptsPerMlcns param) ≤ units := by
  rw [convert] at h
  simp only [Option.bind_eq_bind] at h
  split_ifs at h
  obtain ⟨amount, hamount, h⟩ := Option.bind_eq_some_iff.mp h
  split_ifs at h
  have h₁ := le_mlcoins hx hamount
  have h₂ := le_toBaseUnits (by linarith) h
  linarith

end Backend

namespace Mallpoints

open Sdk

variable {s : State}

def State.mlptsPerMlcns (s : State) : UInt64 :=
  (s.mlcoin.params.map (·.mlptsPerMlcns)).getD 0

theorem State.getConversionRatio_eq : s.getConversionRatio =
    (if s.mlptsPerMlcns = 0 then defaultMlptsPerMlcns else s.mlptsPerMlcns, mlptsPerMlcnsScale) := by
  rw [State.getConversionRatio, State.mlptsPerMlcns]
  cases s.mlcoin.params with
  | none => rfl
  | some p =>
    dsimp only [Option.map_some, Option.getD_some]
    split_ifs <;> rfl

-- The number that the backend decodes is most of the ratio of the chain.
theorem le_backend_ratio :
    9 / 10 * (s.getConversionRatio.1.toNat : ℚ) ≤ Backend.mlptsPerMlcns s.mlptsPerMlcns := by
  rw [State.getConversionRatio_eq, Backend.mlptsPerMlcns]
  by_cases hz : s.mlptsPerMlcns = 0
  case pos =>
    have hr : Binary64.round ((0 : ℕ) : ℚ) = 0 := by
      simpa using Binary64.round_intCast (n := 0) (by norm_num)
    rw [if_pos hz, hz, UInt64.toNat_zero, hr, if_neg (lt_irrefl _), Backend.defaultMlptsPerMlcnsFixed]
    have hd : defaultMlptsPerMlcns.toNat = 3200000 := rfl
    rw [hd]
    norm_num
  case neg =>
    have hpos : 1 ≤ s.mlptsPerMlcns.toNat :=
      Nat.pos_of_ne_zero fun h => hz (UInt64.toNat_inj.mp h)
    have hq : (1 : ℚ) ≤ s.mlptsPerMlcns.toNat := by exact_mod_cast hpos
    have hr := Backend.le_round (x := s.mlptsPerMlcns.toNat) (by linarith)
    rw [if_neg hz, if_pos (by linarith)]
    exact hr

namespace Sample

def keeper : Keeper where
  addressCodec _ := some (.ofBytes [1])
  hasUserBadge _ := true

-- 2023-11-15
def ctx : Mlcoin.Context where
  blockTime   := 1700049600
  blockHeight := 1

def emissionState : Mlcoin.EmissionState where
  totalSupply := 1000000000
  circulating := 0
  dailyLimit  := 100000

def state : State where
  userPoints := KVStore.empty.set "alice" { address := "alice", points := 1000 }
  mlcoin     := { emissionState := some emissionState }

def units : ℤ := 3200000000

theorem convertToMallcoin_isOk : (keeper.convertToMallcoin ctx "alice" 1000 state).isOk = true := by
  decide +kernel

theorem convert_eq : Backend.convert 10000 state.mlptsPerMlcns 1000 = some units := by
  decide +kernel

theorem floor_eq : ⌊(1000 : ℚ)⌋ = (1000 : UInt64).toNat := by
  decide +kernel

end Sample

-- A conversion of the same points with the same parameter credits more than the chain mints.
theorem backend_credits_more (k : Keeper) (ctx : Mlcoin.Context) (creator : String) (amount : UInt64)
    (s s' : State) (maxPerRequest balance : ℚ) (units : ℤ)
    (h : k.convertToMallcoin ctx creator amount s = .ok s') (hp : ⌊balance⌋ = amount.toNat)
    (hb : Backend.convert maxPerRequest s.mlptsPerMlcns balance = some units) :
    ∃ minted, mintedAmount amount s = .ok minted ∧
      Mlcoin.Keeper.mintToWallet true ctx creator minted s.mlcoin = .ok s'.mlcoin ∧
      minted.toNat < units := by
  obtain ⟨minted, hm, hz, hw⟩ := of_convertToMallcoin h
  refine ⟨minted, hm, hw, ?_⟩
  have hq := of_safeMulDiv hm
  have hscale : s.getConversionRatio.2.toNat = 1000000 := by
    rw [State.getConversionRatio_eq]
    rfl
  rw [hscale] at hq
  have hle := Nat.div_mul_le_self (amount.toNat * s.getConversionRatio.1.toNat) 1000000
  rw [← hq] at hle
  -- points were converted, so that at least one coin is minted
  have hpoints := Backend.pos_of_convert hb
  have hamount : amount > 0 := by
    rw [gt_iff_lt, UInt64.lt_iff_toNat_lt, UInt64.toNat_zero]
    omega
  have hminted : 1 ≤ minted.toNat :=
    Nat.pos_of_ne_zero fun hm => hz ⟨UInt64.toNat_inj.mp hm, hamount⟩
  have hleq : (minted.toNat : ℚ) * 1000000 ≤ amount.toNat * s.getConversionRatio.1.toNat := by
    exact_mod_cast hle
  have hmintedq : (1 : ℚ) ≤ minted.toNat := by exact_mod_cast hminted
  have hratio := mul_le_mul_of_nonneg_left (le_backend_ratio (s := s)) (Nat.cast_nonneg (α := ℚ) amount.toNat)
  have hcredit := Backend.le_convert (by rw [hp, Int.cast_natCast]; linarith) hb
  rw [hp, Int.cast_natCast] at hcredit
  have hlt : (minted.toNat : ℚ) < units := by linarith
  exact_mod_cast hlt

theorem sample_credits_more : ∃ s' minted,
    mintedAmount 1000 Sample.state = .ok minted ∧
      Mlcoin.Keeper.mintToWallet true Sample.ctx "alice" minted Sample.state.mlcoin = .ok s' ∧
      minted.toNat < Sample.units := by
  obtain ⟨s', h⟩ := Result.isOk_iff.mp Sample.convertToMallcoin_isOk
  exact ⟨s'.mlcoin, backend_credits_more _ _ _ _ _ s' _ _ _ h Sample.floor_eq Sample.convert_eq⟩

-- 1000 points are 3,200 base units on the chain, and 3,200 MLCNS in the backend.
theorem conversions_differ :
    ¬∀ (k : Keeper) (ctx : Mlcoin.Context) (creator : String) (amount : UInt64) (s s' : State)
      (maxPerRequest balance : ℚ) (units : ℤ) (minted : UInt64),
      k.convertToMallcoin ctx creator amount s = .ok s' → ⌊balance⌋ = amount.toNat →
      Backend.convert maxPerRequest s.mlptsPerMlcns balance = some units →
      mintedAmount amount s = .ok minted → units = minted.toNat := by
  intro h
  obtain ⟨s', hs⟩ := Result.isOk_iff.mp Sample.convertToMallcoin_isOk
  have hm : mintedAmount 1000 Sample.state = .ok 3200 := rfl
  have hu := h _ _ _ _ _ s' _ _ _ _ hs Sample.floor_eq Sample.convert_eq hm
  exact absurd hu (by decide)

end Mallpoints
