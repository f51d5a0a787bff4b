import MallChain.Lib.KVStore
import MallChain.Sdk.Bank

namespace Dex

open Sdk

structure Params where
  defaultFee          : String
  minLiquidity        : UInt64
  maxFee              : String
  minFee              : String
  maxPoolDrainPercent : UInt32
  deriving DecidableEq, Repr

structure Pool where
  id             : ℕ
  tokenADenom    : String
  tokenBDenom    : String
  tokenAReserve  : Coin
  tokenBReserve  : Coin
  totalLiquidity : Coin
  fee            : String
  creator        : AccAddress
  deriving DecidableEq, Repr

def defaultParams : Params where
  defaultFee          := "0.003"
  minLiquidity        := 1000
  maxFee              := "0.01"
  minFee              := "0.001"
  maxPoolDrainPercent := 20

namespace Params

-- The `parseFeeDec` of the types package. The text of the decimal parser's own error is left out.
def parseFeeDec (label value : String) : Result LegacyDec := do
  failIf (value = "") (.error s!"{label} cannot be empty")
  orFail (LegacyDec.fromStr value) (.error s!"{label} \"{value}\" is not a valid decimal")

def validate (p : Params) : Result Unit := do
  failIf (p.minLiquidity = 0) (.error "min liquidity cannot be zero")
  failIf (p.maxPoolDrainPercent = 0) (.error "max pool drain percent cannot be zero")
  failIf (p.maxPoolDrainPercent > 30)
    (.error "max pool drain percent cannot exceed 30 percent for security")
  let minFee ← parseFeeDec "min fee" p.minFee
  let maxFee ← parseFeeDec "max fee" p.maxFee
  let defaultFee ← parseFeeDec "default fee" p.defaultFee
  failIf (minFee.i < 0 ∨ maxFee.i < 0 ∨ defaultFee.i < 0) (.error "fee values cannot be negative")
  failIf (minFee.i > maxFee.i)
    (.error s!"min fee {p.minFee} cannot exceed max fee {p.maxFee}")
  failIf (defaultFee.i < minFee.i ∨ defaultFee.i > maxFee.i)
    (.error s!"default fee {p.defaultFee} must be within [min fee {p.minFee}, max fee {p.maxFee}]")
  failIf (maxFee.i ≥ (LegacyDec.ofInt 1).i)
    (.error s!"max fee {p.maxFee} must be less than 1 (100%)")

-- What the validation of the parameters promises to the keeper.
structure Valid (p : Params) : Prop where
  drain : 1 ≤ p.maxPoolDrainPercent.toNat ∧ p.maxPoolDrainPercent.toNat ≤ 30
  fees  : ∃ minFee maxFee defaultFee,
    LegacyDec.fromStr p.minFee = some minFee ∧ LegacyDec.fromStr p.maxFee = some maxFee ∧
    LegacyDec.fromStr p.defaultFee = some defaultFee ∧
    0 ≤ minFee.i ∧ minFee.i ≤ defaultFee.i ∧ defaultFee.i ≤ maxFee.i ∧
    maxFee.i < LegacyDec.precisionReuse

theorem of_parseFeeDec {label value : String} {dec : LegacyDec}
    (h : parseFeeDec label value = .ok dec) : LegacyDec.fromStr value = some dec := by
  simp only [parseFeeDec, Result.bind_eq_ok, orFail_eq_ok] at h
  exact h.choose_spec.2

theorem of_validate {p : Params} {u : Unit} (h : p.validate = .ok u) : p.Valid := by
  simp only [validate, Result.bind_eq_ok, failIf_eq_ok, not_or, not_lt, not_le, gt_iff_lt,
    ge_iff_le] at h
  obtain ⟨_, _, _, hd₀, _, hd, minFee, hmin, maxFee, hmax, defaultFee, hdef, _, hneg, _, _, _, hle, hlt⟩ := h
  refine ⟨⟨?_, ?_⟩, minFee, maxFee, defaultFee, of_parseFeeDec hmin, of_parseFeeDec hmax,
    of_parseFeeDec hdef, hneg.1, hle.1, hle.2, ?_⟩
  · exact Nat.one_le_iff_ne_zero.mpr fun hz => hd₀ (UInt32.toNat_inj.mp hz)
  · exact UInt32.le_iff_toNat_le.mp (UInt32.not_lt.mp hd)
  · simpa [LegacyDec.ofInt] using hlt

-- The parameters of the default genesis pass their own check.
theorem defaultParams_validate : defaultParams.validate = .ok () := by
  decide +kernel

end Params

end Dex
