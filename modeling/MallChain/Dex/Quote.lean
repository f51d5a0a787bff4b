import MallChain.Dex.Drain
import MallChain.Dex.ShareValue

namespace Dex

open Sdk
open LegacyDec (precisionReuse precisionReuse_pos maxDecBitLen)

-- The quote over the rationals, and what is paid of it.
section

variable (a rIn rOut : ℤ) (fee : ℚ)

def exactQuote : ℚ :=
  a * (1 - fee) * rOut / (rIn + a * (1 - fee))

def exactSwap (percent : UInt32) : ℤ :=
  min ⌊exactQuote a rIn rOut fee⌋ ⌊(rOut * percent.toNat / 100 : ℚ)⌋

-- The quote is no integer, and at most half a unit of the last decimal below the next one.
def CarriedOver : Prop :=
  1 - Int.fract (exactQuote a rIn rOut fee) ≤ 1 / (2 * 10 ^ 18)

end

def feeRate (fee : LegacyDec) : ℚ :=
  fee.i / precisionReuse

-- The product and the sum that the quote divides fit into a `LegacyDec`.
structure Representable (a rIn rOut fee : ℤ) : Prop where
  numerator   : (afterFee a fee * rOut).natAbs < 2 ^ maxDecBitLen
  denominator : (rIn * precisionReuse + afterFee a fee).natAbs < 2 ^ maxDecBitLen

section Numbers

variable {a rIn rOut fee : ℤ} {percent : UInt32}

theorem exactQuote_eq (a rIn rOut fee : ℤ) :
    exactQuote a rIn rOut (fee / precisionReuse) =
      (afterFee a fee * rOut : ℤ) / (rIn * precisionReuse + afterFee a fee : ℤ) := by
  have hP : (precisionReuse : ℚ) ≠ 0 := by
    exact_mod_cast precisionReuse_pos.ne'
  have hA : (a : ℚ) * (1 - fee / precisionReuse) = (afterFee a fee : ℤ) / precisionReuse := by
    rw [afterFee]
    push_cast
    field_simp
  rw [exactQuote, hA]
  push_cast
  field_simp

theorem floor_div_intCast {n d : ℤ} (hd : 0 < d) : ⌊(n / d : ℚ)⌋ = n / d := by
  obtain ⟨m, rfl⟩ := Int.eq_ofNat_of_zero_le hd.le
  exact_mod_cast Rat.floor_intCast_div_natCast n m

-- The quote is the product over the sum, in units of the last decimal.
section Positive

variable (hA : 0 ≤ afterFee a fee) (hIn : 0 < rIn)

include hA hIn

theorem denominator_pos : 0 < rIn * precisionReuse + afterFee a fee :=
  add_pos_of_pos_of_nonneg (mul_pos hIn precisionReuse_pos) hA

theorem floor_exactQuote :
    ⌊exactQuote a rIn rOut (fee / precisionReuse)⌋ =
      afterFee a fee * rOut / (rIn * precisionReuse + afterFee a fee) := by
  rw [exactQuote_eq, floor_div_intCast (denominator_pos hA hIn)]

theorem carriedOver_iff :
    CarriedOver a rIn rOut (fee / precisionReuse) ↔
      2 * precisionReuse * (rIn * precisionReuse + afterFee a fee -
          afterFee a fee * rOut % (rIn * precisionReuse + afterFee a fee)) ≤
        rIn * precisionReuse + afterFee a fee := by
  have hD := denominator_pos hA hIn
  have hfloor : ⌊exactQuote a rIn rOut (fee / precisionReuse)⌋ = _ := floor_exactQuote hA hIn
  rw [CarriedOver, ← Int.self_sub_floor, hfloor, exactQuote_eq]
  generalize rIn * precisionReuse + afterFee a fee = d at hD ⊢
  generalize afterFee a fee * rOut = n
  have hn : (n : ℚ) = d * (n / d : ℤ) + (n % d : ℤ) := by
    exact_mod_cast (Int.mul_ediv_add_emod n d).symm
  have hd : (0 : ℚ) < d := by exact_mod_cast hD
  have hfract : (n / d : ℚ) - (n / d : ℤ) = (n % d : ℤ) / d := by
    rw [div_sub' hd.ne', hn]
    ring
  rw [hfract, one_sub_div hd.ne', div_le_div_iff₀ hd (by norm_num)]
  have hP : precisionReuse = 10 ^ 18 := rfl
  rw [hP]
  constructor
  · intro h
    have h' : ((2 * 10 ^ 18 * (d - n % d) : ℤ) : ℚ) ≤ (d : ℤ) := by
      push_cast at h ⊢
      linarith
    exact_mod_cast h'
  · intro h
    have h' : ((2 * 10 ^ 18 * (d - n % d) : ℤ) : ℚ) ≤ (d : ℤ) := by
      exact_mod_cast h
    push_cast at h' ⊢
    linarith

theorem quoted_ediv (hOut : 0 ≤ rOut) [Decidable (CarriedOver a rIn rOut (fee / precisionReuse))] :
    quoted a rIn rOut fee / precisionReuse =
      if CarriedOver a rIn rOut (fee / precisionReuse) then
        ⌊exactQuote a rIn rOut (fee / precisionReuse)⌋ + 1
      else ⌊exactQuote a rIn rOut (fee / precisionReuse)⌋ := by
  have hD := denominator_pos hA hIn
  have hnum : 0 ≤ afterFee a fee * rOut := mul_nonneg hA hOut
  have hx : 0 ≤ afterFee a fee * rOut * precisionReuse * precisionReuse :=
    mul_nonneg (mul_nonneg hnum precisionReuse_pos.le) precisionReuse_pos.le
  rw [quoted, LegacyDec.chopPrecisionAndRound, Int.tdiv_eq_ediv_of_nonneg hx,
    Rounding.halfEven_quotient precisionReuse_pos (by decide) hnum hD]
  simp only [carriedOver_iff hA hIn, floor_exactQuote hA hIn]

theorem quoted_le (hOut : 0 ≤ rOut) : quoted a rIn rOut fee ≤ afterFee a fee * rOut := by
  have hnum : 0 ≤ afterFee a fee * rOut := mul_nonneg hA hOut
  have hD : precisionReuse ≤ rIn * precisionReuse + afterFee a fee := by
    have h := mul_le_mul_of_nonneg_right (show 1 ≤ rIn from hIn) precisionReuse_pos.le
    linarith
  have hle := mul_le_mul_of_nonneg_left hD hnum
  by_contra hlt
  have hgt := mul_le_mul_of_nonneg_right (show _ + 1 ≤ quoted a rIn rOut fee from not_le.mp hlt)
    (precisionReuse_pos.le.trans hD)
  linarith [(quoted_bound hA hIn.le hOut).2, precisionReuse_pos]

theorem swapOut_eq_min (hOut : 0 ≤ rOut) :
    swapOut a rIn rOut fee percent =
      min (quoted a rIn rOut fee / precisionReuse) (drainLimit rOut percent) := by
  have hm : 0 ≤ maxDrain rOut percent := by
    rw [maxDrain]
    positivity
  have hmono : Monotone fun x : ℤ => x / precisionReuse :=
    fun x y h => Int.ediv_le_ediv precisionReuse_pos h
  rw [swapOut, Int.tdiv_eq_ediv_of_nonneg (le_min (quoted_bound hA hIn.le hOut).1 hm),
    hmono.map_min, ← Int.tdiv_eq_ediv_of_nonneg hm, maxDrain_tdiv]

end Positive

theorem floor_drainLimit (hOut : 0 ≤ rOut) :
    ⌊(rOut * percent.toNat / 100 : ℚ)⌋ = drainLimit rOut percent := by
  rw [drainLimit, Int.tdiv_eq_ediv_of_nonneg (by positivity), ← floor_div_intCast (by decide)]
  push_cast
  rfl

end Numbers

section Computation

variable {tokenIn reserveIn reserveOut out : Coin} {fee : String} {feeDec : LegacyDec}
variable {params : Params} {percent : UInt32}

-- A quote that is computed has fit.
theorem representable_of_quote {q : LegacyDec}
    (h : constantProductQuote tokenIn reserveIn reserveOut fee = .ok q) :
    Representable tokenIn.amount reserveIn.amount reserveOut.amount (parseFeeDec fee).i where
  numerator   := (of_constantProductQuote h).2.1
  denominator := (of_constantProductQuote h).2.2

theorem quote_of_representable (h₀ : 0 ≤ (parseFeeDec fee).i)
    (h₁ : (parseFeeDec fee).i < precisionReuse) (ha : 0 < tokenIn.amount)
    (hIn : 0 < reserveIn.amount) (hOut : 0 < reserveOut.amount)
    (h : Representable tokenIn.amount reserveIn.amount reserveOut.amount (parseFeeDec fee).i) :
    constantProductQuote tokenIn reserveIn reserveOut fee =
      .ok ⟨quoted tokenIn.amount reserveIn.amount reserveOut.amount (parseFeeDec fee).i⟩ := by
  have hA : 0 ≤ afterFee tokenIn.amount (parseFeeDec fee).i := mul_nonneg ha.le (by omega)
  have hD := denominator_pos hA hIn
  have hnum : 0 ≤ afterFee tokenIn.amount (parseFeeDec fee).i * reserveOut.amount :=
    mul_nonneg hA hOut.le
  have hfactor : (LegacyDec.ofInt 1).sub (parseFeeDec fee) =
      .ok ⟨precisionReuse - (parseFeeDec fee).i⟩ := by
    have hP : precisionReuse.natAbs < 2 ^ maxDecBitLen :=
      lt_of_lt_of_le (by decide : precisionReuse.natAbs < 2 ^ 60)
        (Nat.pow_le_pow_right (by decide) (by decide))
    rw [LegacyDec.sub, LegacyDec.ofInt, one_mul]
    change LegacyDec.assertInValidRange (precisionReuse - (parseFeeDec fee).i) = _
    exact LegacyDec.assertInValidRange_ok (lt_of_le_of_lt (by omega) hP)
  have hless : (LegacyDec.ofInt tokenIn.amount).mul ⟨precisionReuse - (parseFeeDec fee).i⟩ =
      .ok ⟨afterFee tokenIn.amount (parseFeeDec fee).i⟩ := by
    rw [LegacyDec.ofInt_mul]
    change LegacyDec.assertInValidRange (afterFee tokenIn.amount (parseFeeDec fee).i) = _
    refine LegacyDec.assertInValidRange_ok (lt_of_le_of_lt ?_ h.numerator)
    rw [Int.natAbs_mul]
    exact Nat.le_mul_of_pos_right _ (Int.natAbs_pos.mpr hOut.ne')
  have hnumerator : LegacyDec.mul ⟨afterFee tokenIn.amount (parseFeeDec fee).i⟩
      (LegacyDec.ofInt reserveOut.amount) =
        .ok ⟨afterFee tokenIn.amount (parseFeeDec fee).i * reserveOut.amount⟩ := by
    rw [LegacyDec.mul_ofInt]
    exact LegacyDec.assertInValidRange_ok h.numerator
  have hdenominator : (LegacyDec.ofInt reserveIn.amount).add
      ⟨afterFee tokenIn.amount (parseFeeDec fee).i⟩ = .ok ⟨reserveIn.amount * precisionReuse +
        afterFee tokenIn.amount (parseFeeDec fee).i⟩ :=
    LegacyDec.assertInValidRange_ok h.denominator
  have hquoted : LegacyDec.quo
      ⟨afterFee tokenIn.amount (parseFeeDec fee).i * reserveOut.amount⟩
      ⟨reserveIn.amount * precisionReuse + afterFee tokenIn.amount (parseFeeDec fee).i⟩ =
        .ok ⟨quoted tokenIn.amount reserveIn.amount reserveOut.amount (parseFeeDec fee).i⟩ := by
    have hq₀ := (quoted_bound hA hIn.le hOut.le).1
    have hq := quoted_le hA hIn hOut.le
    rw [LegacyDec.quo, if_neg hD.ne']
    change LegacyDec.assertInValidRange
      (quoted tokenIn.amount reserveIn.amount reserveOut.amount (parseFeeDec fee).i) = _
    exact LegacyDec.assertInValidRange_ok (lt_of_le_of_lt (by omega) h.numerator)
  simp only [constantProductQuote, hfactor, hless, hnumerator, hdenominator, hquoted,
    Result.ok_bind]

-- The percentage of a reserve always fits.
theorem maxDrainDec_ok (hmax : reserveOut.amount.natAbs < 2 ^ MathInt.maxBitLen)
    (hp : percent.toNat ≤ 30) :
    maxDrainDec reserveOut percent = .ok ⟨maxDrain reserveOut.amount percent⟩ := by
  have hone : 30 * 10 ^ 16 < 2 ^ 60 := by decide
  have hpercent : ((percent.toNat : ℤ) * 10 ^ 16).natAbs < 2 ^ 60 := by omega
  have hle : 2 ^ 60 ≤ 2 ^ maxDecBitLen := Nat.pow_le_pow_right (by decide) (by decide)
  have hprod : (reserveOut.amount * (percent.toNat * 10 ^ 16)).natAbs < 2 ^ maxDecBitLen := by
    rw [Int.natAbs_mul, maxDecBitLen, pow_add]
    exact Nat.mul_lt_mul'' hmax hpercent
  rw [maxDrainDec, percent_eq, LegacyDec.assertInValidRange_ok (hpercent.trans_le hle), Result.ok_bind,
    LegacyDec.ofInt_mul]
  exact LegacyDec.assertInValidRange_ok hprod

theorem newCoin_ok {denom : String} {amount : ℤ} (hd : validDenom denom = true)
    (h : 0 ≤ amount) : Coin.new denom amount = .ok ⟨denom, amount⟩ := by
  simp only [Coin.new, failIf, hd, Bool.true_eq_false, if_false, not_lt.mpr h, Result.ok_bind]
  rfl

theorem calculateSwap_ok_iff (h₀ : 0 ≤ (parseFeeDec fee).i)
    (h₁ : (parseFeeDec fee).i < precisionReuse) (hp : percent.toNat ≤ 30)
    (hdenom : validDenom reserveOut.denom = true)
    (hmax : reserveOut.amount.natAbs < 2 ^ MathInt.maxBitLen) (ha : 0 < tokenIn.amount)
    (hIn : 0 < reserveIn.amount) (hOut : 0 < reserveOut.amount) :
    calculateSwap tokenIn reserveIn reserveOut fee percent = .ok out ↔
      Representable tokenIn.amount reserveIn.amount reserveOut.amount (parseFeeDec fee).i ∧
      out = ⟨reserveOut.denom, swapOut tokenIn.amount reserveIn.amount reserveOut.amount
        (parseFeeDec fee).i percent⟩ := by
  constructor
  case mp =>
    intro h
    obtain ⟨_, _, hd, hamount⟩ := of_calculateSwap h
    rw [calculateSwap_eq] at h
    obtain ⟨q, hq, -⟩ := Result.bind_eq_ok.mp h
    exact ⟨representable_of_quote hq, by cases out; simp_all⟩
  case mpr =>
    rintro ⟨hr, rfl⟩
    have hA : 0 ≤ afterFee tokenIn.amount (parseFeeDec fee).i := mul_nonneg ha.le (by omega)
    have hq₀ := (quoted_bound hA hIn.le hOut.le).1
    have hm₀ : 0 ≤ maxDrain reserveOut.amount percent := by
      rw [maxDrain]
      positivity
    have hamount : 0 ≤ swapOut tokenIn.amount reserveIn.amount reserveOut.amount
        (parseFeeDec fee).i percent := Int.tdiv_nonneg (le_min hq₀ hm₀) precisionReuse_pos.le
    have hle : swapOut tokenIn.amount reserveIn.amount reserveOut.amount
        (parseFeeDec fee).i percent ≤ reserveOut.amount := by
      have hdrain := (swapOut_mul_le percent hq₀ hOut.le).2
      have hpercent : (percent.toNat : ℤ) * 10 ^ 16 ≤ precisionReuse := by
        rw [LegacyDec.precisionReuse, LegacyDec.precision]
        omega
      have hpart := mul_le_mul_of_nonneg_left hpercent hOut.le
      rw [maxDrain] at hdrain
      exact le_of_mul_le_mul_left (by linarith) precisionReuse_pos
    have hcut : (if quoted tokenIn.amount reserveIn.amount reserveOut.amount (parseFeeDec fee).i >
          maxDrain reserveOut.amount percent then
        (⟨maxDrain reserveOut.amount percent⟩ : LegacyDec)
        else ⟨quoted tokenIn.amount reserveIn.amount reserveOut.amount (parseFeeDec fee).i⟩).i =
          min (quoted tokenIn.amount reserveIn.amount reserveOut.amount (parseFeeDec fee).i)
            (maxDrain reserveOut.amount percent) := by
      split_ifs with h
      case pos => exact (min_eq_right (le_of_lt h)).symm
      case neg => exact (min_eq_left (not_lt.mp h)).symm
    have hrange : MathInt.inRange (swapOut tokenIn.amount reserveIn.amount reserveOut.amount
        (parseFeeDec fee).i percent) = .ok _ := inRange_ok (lt_of_le_of_lt (by omega) hmax)
    simp only [calculateSwap_eq, quote_of_representable h₀ h₁ ha hIn hOut hr,
      maxDrainDec_ok hmax hp, Result.ok_bind, LegacyDec.truncateInt, hcut]
    rw [← swapOut, hrange, Result.ok_bind, newCoin_ok hdenom hamount]

-- The output is exact if and only if the numbers fit, and a quote that is carried over is cut down.
theorem calculateSwap_exact_iff (params : Params) (fee : String) (feeDec : LegacyDec)
    (tokenIn reserveIn reserveOut : Coin) (hparams : params.validate = .ok ())
    (hfee : validateFee fee params = .ok ()) (hdec : LegacyDec.fromStr fee = some feeDec)
    (hdenom : validDenom reserveOut.denom = true)
    (hmax : reserveOut.amount.natAbs < 2 ^ MathInt.maxBitLen) (ha : 0 < tokenIn.amount)
    (hIn : 0 < reserveIn.amount) (hOut : 0 < reserveOut.amount) :
    calculateSwap tokenIn reserveIn reserveOut fee params.maxPoolDrainPercent =
        .ok ⟨reserveOut.denom, exactSwap tokenIn.amount reserveIn.amount reserveOut.amount
          (feeRate feeDec) params.maxPoolDrainPercent⟩ ↔
      Representable tokenIn.amount reserveIn.amount reserveOut.amount feeDec.i ∧
      (CarriedOver tokenIn.amount reserveIn.amount reserveOut.amount (feeRate feeDec) →
        ⌊(reserveOut.amount * params.maxPoolDrainPercent.toNat / 100 : ℚ)⌋ ≤
          ⌊exactQuote tokenIn.amount reserveIn.amount reserveOut.amount (feeRate feeDec)⌋) := by
  have hvalid := Params.of_validate hparams
  obtain ⟨h₀, h₁⟩ := validateFee_range hfee hvalid
  have hne : fee ≠ "" := by
    rintro rfl
    cases hdec.symm.trans fromStr_empty
  have hparse : parseFeeDec fee = feeDec := by
    simp [parseFeeDec, hne, hdec]
  rw [calculateSwap_ok_iff h₀ h₁ hvalid.drain.2 hdenom hmax ha hIn hOut, hparse]
  rw [hparse] at h₀ h₁
  have hA : 0 ≤ afterFee tokenIn.amount feeDec.i := mul_nonneg ha.le (by omega)
  refine and_congr_right fun _ => ?_
  classical
  rw [Coin.mk.injEq, exactSwap, swapOut_eq_min hA hIn hOut.le, quoted_ediv hA hIn hOut.le,
    floor_drainLimit hOut.le, feeRate]
  split_ifs with hc
  case pos => simp [hc]; omega
  case neg => simp [hc]

end Computation

namespace Sample

-- Pools may be free of charge.
def freeParams : Params :=
  { defaultParams with minFee := "0" }

-- One coin for a deep pool, whose quote is just below one.
def deep : Coin :=
  ⟨"umlcn", 2 * 10 ^ 18 - 1⟩

end Sample

theorem sample_calculateSwap_exact_iff :
    calculateSwap ⟨"uatom", 1⟩ Sample.deep Sample.deep "0" Sample.freeParams.maxPoolDrainPercent =
        .ok ⟨"umlcn", exactSwap 1 Sample.deep.amount Sample.deep.amount (feeRate ⟨0⟩)
          Sample.freeParams.maxPoolDrainPercent⟩ ↔
      Representable 1 Sample.deep.amount Sample.deep.amount 0 ∧
      (CarriedOver 1 Sample.deep.amount Sample.deep.amount (feeRate ⟨0⟩) →
        ⌊(Sample.deep.amount * Sample.freeParams.maxPoolDrainPercent.toNat / 100 : ℚ)⌋ ≤
          ⌊exactQuote 1 Sample.deep.amount Sample.deep.amount (feeRate ⟨0⟩)⌋) :=
  calculateSwap_exact_iff Sample.freeParams "0" ⟨0⟩ ⟨"uatom", 1⟩ Sample.deep Sample.deep
    (by decide +kernel) (by decide +kernel) (by decide +kernel) (by decide +kernel)
    (by decide +kernel) (by decide) (by decide) (by decide)

-- The coin is exchanged for a whole one.
theorem quote_rounded_up :
    ¬∀ (params : Params) (fee : String) (feeDec : LegacyDec) (tokenIn reserveIn reserveOut : Coin),
      params.validate = .ok () → validateFee fee params = .ok () →
      LegacyDec.fromStr fee = some feeDec → validDenom reserveOut.denom = true →
      reserveOut.amount.natAbs < 2 ^ MathInt.maxBitLen → 0 < tokenIn.amount →
      0 < reserveIn.amount → 0 < reserveOut.amount →
      calculateSwap tokenIn reserveIn reserveOut fee params.maxPoolDrainPercent =
        .ok ⟨reserveOut.denom, exactSwap tokenIn.amount reserveIn.amount reserveOut.amount
          (feeRate feeDec) params.maxPoolDrainPercent⟩ := by
  intro h
  have hexact := h Sample.freeParams "0" ⟨0⟩ ⟨"uatom", 1⟩ Sample.deep Sample.deep
    (by decide +kernel) (by decide +kernel) (by decide +kernel) (by decide +kernel)
    (by decide +kernel) (by decide) (by decide) (by decide)
  have hone : calculateSwap ⟨"uatom", 1⟩ Sample.deep Sample.deep "0"
      Sample.freeParams.maxPoolDrainPercent = .ok ⟨"umlcn", 1⟩ := by
    decide +kernel
  have hzero : exactSwap 1 Sample.deep.amount Sample.deep.amount (feeRate ⟨0⟩)
      Sample.freeParams.maxPoolDrainPercent = 0 := by
    decide +kernel
  have hout := congrArg Coin.amount (Except.ok.inj (hone.symm.trans hexact))
  exact absurd (hout.trans hzero) (by decide)

end Dex
