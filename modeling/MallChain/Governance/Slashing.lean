import MallChain.Sdk.Ratio
import MallChain.Governance.System

namespace Governance

open Sdk

-- What the staking module knows of a validator.
structure Validator where
  tokens   : ℤ
  unbonded : Bool

-- The validators by their operators, and the operators by the addresses of their consensus keys.
structure Validators where
  get        : List UInt8 → Option Validator
  byConsAddr : List UInt8 → Option (List UInt8)
  range      : ∀ operator v, get operator = some v → 0 ≤ v.tokens ∧ v.tokens < 2 ^ MathInt.maxBitLen
  indexed    : ∀ addr operator, byConsAddr addr = some operator → ∃ v, get operator = some v

variable {μ σ : Type} {k : Keeper μ σ} {ctx : Context} {s s' : State σ} {bondDenom : String}
variable {stakingKeeper : StakingKeeper σ} {validators : σ → Validators} {bank bank' : Bank}
variable {rest rest' : σ} {operator validatorAddr : List UInt8} {v : Validator} {amount : ℤ}

def Validators.tokens (vs : Validators) (operator : List UInt8) : Option ℤ :=
  (vs.get operator).map (·.tokens)

-- The stake of one validator is burned, and nothing else of the stakes changes.
structure Burned (bondDenom : String) (vs vs' : Validators) (bank bank' : Bank)
    (operator : List UInt8) (amount : ℤ) : Prop where
  tokens : ∀ o, vs'.tokens o =
    if o = operator then (vs.tokens o).map (· - amount) else vs.tokens o
  supply : bank'.supply bondDenom = bank.supply bondDenom - amount

def powerReduction : ℤ := 1000000

-- What is slashed of a validator for a power: a fraction of the power in tokens, and not more than
-- the validator has.
def slashedTokens (power : ℤ) (fraction : LegacyDec) (tokens : ℤ) : ℤ :=
  min (power * powerReduction * fraction.i / LegacyDec.precisionReuse) tokens

-- The staking module takes a validator by its operator, and slashes one by the address of its
-- consensus key. An address that it does not know is none that it has to slash.
structure StakingKeeper.Slashes (stakingKeeper : StakingKeeper σ) (validators : σ → Validators)
    (bondDenom : String) (ctx : Context) : Prop where
  tokens   : ∀ {rest operator v}, (validators rest).get operator = some v →
    stakingKeeper.validatorTokens rest operator = .ok v.tokens
  unknown  : ∀ {bank rest addr power fraction}, (validators rest).byConsAddr addr = none →
    stakingKeeper.slash bank rest addr ctx.blockHeight power fraction = .ok (bank, rest)
  unbonded : ∀ {bank rest addr operator v power fraction},
    (validators rest).byConsAddr addr = some operator → (validators rest).get operator = some v →
    v.unbonded = true →
    ∃ text, stakingKeeper.slash bank rest addr ctx.blockHeight power fraction = .error (.error text)
  bonded   : ∀ {bank rest addr operator v power} {fraction : LegacyDec},
    (validators rest).byConsAddr addr = some operator → (validators rest).get operator = some v →
    v.unbonded = false → 0 ≤ power → power < 2 ^ 63 → 0 ≤ fraction.i →
    fraction.i ≤ LegacyDec.precisionReuse →
    ∃ bank' rest',
      stakingKeeper.slash bank rest addr ctx.blockHeight power fraction = .ok (bank', rest') ∧
      Burned bondDenom (validators rest) (validators rest') bank bank' operator
        (slashedTokens power fraction v.tokens)

-- The share that a proposal asks for.
def share (tokens : ℤ) (slashPercentage : UInt64) : ℤ :=
  tokens * slashPercentage.toNat / 100

namespace Burned

variable {vs vs' : Validators} {o o' : List UInt8} {amount' : ℤ}

theorem zero : Burned bondDenom vs vs bank bank operator 0 where
  tokens o := by
    split_ifs
    · simp
    · rfl
  supply := (sub_zero _).symm

theorem amount_zero (h : Burned bondDenom vs vs bank bank' operator amount)
    (hg : vs.get operator = some v) : amount = 0 := by
  have ht := h.tokens operator
  simp only [Validators.tokens, hg, if_true, Option.map_some, Option.some.injEq] at ht
  omega

-- What was burned, and of whom, can be told from the stakes before and after.
theorem unique (h : Burned bondDenom vs vs' bank bank' operator amount)
    (h' : Burned bondDenom vs vs' bank bank' o amount') (hg : vs.get operator = some v)
    (ha : amount ≠ 0) : o = operator ∧ amount' = amount := by
  have ht := h.tokens operator
  have ht' := h'.tokens operator
  rw [ht, if_pos rfl, Validators.tokens, hg] at ht'
  split_ifs at ht' with he
  · simp only [Option.map_some, Option.some.injEq] at ht'
    exact ⟨he.symm, by omega⟩
  · simp only [Option.map_some, Option.some.injEq] at ht'
    omega

end Burned

section Share

variable {tokens : ℤ} {slashPercentage : UInt64}

theorem share_nonneg (h : 0 ≤ tokens) : 0 ≤ share tokens slashPercentage :=
  Int.ediv_nonneg (mul_nonneg h (Int.natCast_nonneg _)) (by decide)

theorem share_le (h : 0 ≤ tokens) (hp : slashPercentage.toNat ≤ 100) :
    share tokens slashPercentage ≤ tokens := by
  have hle : tokens * slashPercentage.toNat ≤ tokens * 100 :=
    mul_le_mul_of_nonneg_left (by exact_mod_cast hp) h
  simp only [share]
  omega

-- Only the whole stake is a share of 100 percent.
theorem share_eq_iff (h : 0 < tokens) (hp : slashPercentage.toNat ≤ 100) :
    share tokens slashPercentage = tokens ↔ slashPercentage.toNat = 100 := by
  constructor
  · intro he
    by_contra hne
    have hlt : tokens * slashPercentage.toNat < tokens * 100 :=
      mul_lt_mul_of_pos_left (by exact_mod_cast lt_of_le_of_ne hp hne) h
    simp only [share] at he
    omega
  · intro he
    rw [share, he]
    omega

-- The tokens count as a power, which is a million times as many tokens: all of them are slashed.
theorem slashedTokens_eq (h : 0 < share tokens slashPercentage) (ht : 0 ≤ tokens) :
    slashedTokens tokens ⟨slashPercentage.toNat * 10 ^ 16⟩ tokens = tokens := by
  have hpos : 1 ≤ (slashPercentage.toNat : ℤ) := by
    by_contra hz
    have hz : (slashPercentage.toNat : ℤ) = 0 := by omega
    simp [share, hz] at h
  refine min_eq_right <| (Int.le_ediv_iff_mul_le LegacyDec.precisionReuse_pos).mpr ?_
  have hprec : powerReduction * 10 ^ 16 = 10 ^ 4 * LegacyDec.precisionReuse := by decide
  calc
    tokens * LegacyDec.precisionReuse
      ≤ tokens * LegacyDec.precisionReuse * (10 ^ 4 * slashPercentage.toNat) :=
        le_mul_of_one_le_right (mul_nonneg ht LegacyDec.precisionReuse_pos.le) (by omega)
    _ = tokens * powerReduction * (slashPercentage.toNat * 10 ^ 16) := by
        linear_combination -(tokens * slashPercentage.toNat) * hprec

theorem percent_le (hp : slashPercentage.toNat ≤ 100) :
    (slashPercentage.toNat : ℤ) * 10 ^ 16 ≤ LegacyDec.precisionReuse := by
  have hprec : LegacyDec.precisionReuse = 100 * 10 ^ 16 := by decide
  rw [hprec]
  exact mul_le_mul_of_nonneg_right (by exact_mod_cast hp) (by norm_num)

theorem mul_percent (ht : 0 ≤ tokens) (hlt : tokens < 2 ^ MathInt.maxBitLen)
    (hp : slashPercentage.toNat ≤ 100) :
    (LegacyDec.ofInt tokens).mul ⟨slashPercentage.toNat * 10 ^ 16⟩ =
      .ok ⟨tokens * (slashPercentage.toNat * 10 ^ 16)⟩ := by
  have hfit : (slashPercentage.toNat : ℤ) * 10 ^ 16 ≤ 2 ^ 60 :=
    (percent_le hp).trans (by decide)
  rw [LegacyDec.ofInt_mul]
  refine LegacyDec.assertInValidRange_nonneg (mul_nonneg ht (by positivity)) ?_
  calc
    tokens * (slashPercentage.toNat * 10 ^ 16) ≤ tokens * 2 ^ 60 :=
      mul_le_mul_of_nonneg_left hfit ht
    _ < 2 ^ MathInt.maxBitLen * 2 ^ 60 := mul_lt_mul_of_pos_right hlt (by norm_num)
    _ = 2 ^ LegacyDec.maxDecBitLen := by rw [← pow_add]; rfl

theorem truncate_percent (ht : 0 ≤ tokens) (hlt : tokens < 2 ^ MathInt.maxBitLen)
    (hp : slashPercentage.toNat ≤ 100) :
    LegacyDec.truncateInt ⟨tokens * (slashPercentage.toNat * 10 ^ 16)⟩ =
      .ok (share tokens slashPercentage) := by
  have hpos : (0 : ℤ) ≤ slashPercentage.toNat * 10 ^ 16 := by positivity
  have hprec : LegacyDec.precisionReuse = 100 * 10 ^ 16 := by decide
  have hshare : (tokens * (slashPercentage.toNat * 10 ^ 16)).tdiv LegacyDec.precisionReuse =
      share tokens slashPercentage := by
    rw [Int.tdiv_eq_ediv_of_nonneg (mul_nonneg ht hpos), hprec, ← mul_assoc,
      Int.mul_ediv_mul_of_pos_left _ _ (by norm_num)]
    rfl
  rw [LegacyDec.truncateInt, hshare, MathInt.inRange_nonneg (share_nonneg ht),
    if_pos ((share_le ht hp).trans_lt hlt)]

end Share

variable {address : String} {slashPercentage : UInt64}

-- The handler slashes nothing when the share is cut down to nothing. Otherwise it gives all the
-- tokens as the power, under the address of the operator.
theorem slashValidatorProposal_eq (hk : k.stakingKeeper = some stakingKeeper)
    (hs : stakingKeeper.Slashes validators bondDenom ctx)
    (ha : k.valAddressFromBech32 address = some operator)
    (hg : (validators s.rest).get operator = some v) (hp : slashPercentage.toNat ≤ 100) :
    k.slashValidatorProposal ctx s address slashPercentage =
      if 0 < share v.tokens slashPercentage then
        if 2 ^ 63 ≤ v.tokens then .error (.panic "Int64() out of bound")
        else (stakingKeeper.slash s.bank s.rest operator ctx.blockHeight v.tokens
          ⟨slashPercentage.toNat * 10 ^ 16⟩).map fun (bank, rest) => { s with bank, rest }
      else .ok s := by
  obtain ⟨ht, hlt⟩ := (validators s.rest).range operator v hg
  have hle : ¬ 100 < slashPercentage := by
    rw [not_lt, UInt64.le_iff_toNat_le]
    exact hp
  have hneg : ¬ v.tokens < -2 ^ 63 := by omega
  simp only [Keeper.slashValidatorProposal, hk, ha, orFail, Option.elim_some, failIf, if_neg hle,
    Result.ok_bind, hs.tokens hg, LegacyDec.percent_ok (Int.natCast_nonneg _)
      (by exact_mod_cast hp : (slashPercentage.toNat : ℤ) ≤ 100), mul_percent ht hlt hp,
    truncate_percent ht hlt hp, hneg, false_or]
  split_ifs
  · rfl
  · cases stakingKeeper.slash s.bank s.rest operator ctx.blockHeight v.tokens
      ⟨slashPercentage.toNat * 10 ^ 16⟩ <;> rfl
  · rfl

-- The share of the stake is burned.
def Keeper.Slashed (k : Keeper μ σ) (validators : σ → Validators) (bondDenom : String)
    (ctx : Context) (s : State σ) (address : String) (slashPercentage : UInt64)
    (operator : List UInt8) (v : Validator) : Prop :=
  ∃ s', k.slashValidatorProposal ctx s address slashPercentage = .ok s' ∧
    Burned bondDenom (validators s.rest) (validators s'.rest) s.bank s'.bank operator
      (share v.tokens slashPercentage)

-- There is nothing to slash, or everything, of a bonded validator that is known under the address
-- of its operator and whose tokens fit.
def Validators.Slashable (vs : Validators) (operator : List UInt8) (v : Validator)
    (slashPercentage : UInt64) : Prop :=
  share v.tokens slashPercentage = 0 ∨ slashPercentage.toNat = 100 ∧ v.tokens < 2 ^ 63 ∧
    v.unbonded = false ∧ vs.byConsAddr operator = some operator

theorem slashes_share_iff (k : Keeper μ σ) (hk : k.stakingKeeper = some stakingKeeper)
    (hs : stakingKeeper.Slashes validators bondDenom ctx) (s : State σ) (address : String)
    (slashPercentage : UInt64) (hp : slashPercentage.toNat ≤ 100) (operator : List UInt8)
    (ha : k.valAddressFromBech32 address = some operator) (v : Validator)
    (hg : (validators s.rest).get operator = some v) :
    k.Slashed validators bondDenom ctx s address slashPercentage operator v ↔
      (validators s.rest).Slashable operator v slashPercentage := by
  obtain ⟨ht, hlt⟩ := (validators s.rest).range operator v hg
  have hnonneg : 0 ≤ share v.tokens slashPercentage := share_nonneg ht
  rw [Keeper.Slashed, slashValidatorProposal_eq hk hs ha hg hp]
  rcases hnonneg.eq_or_lt with hzero | hpos
  · rw [if_neg (by omega), ← hzero]
    exact iff_of_true ⟨s, rfl, .zero⟩ (.inl hzero.symm)
  rw [if_pos hpos, Validators.Slashable, or_iff_right hpos.ne']
  have hsome : 0 < v.tokens := hpos.trans_le (share_le ht hp)
  split_ifs with hbig
  · simp only [false_and, exists_false, false_iff]
    omega
  cases hc : (validators s.rest).byConsAddr operator with
  | none =>
    rw [hs.unknown hc]
    simp only [Except.map, Except.ok.injEq, exists_eq_left', reduceCtorEq, and_false, iff_false]
    exact fun hb => hpos.ne' (hb.amount_zero hg)
  | some operator' =>
    obtain ⟨v', hg'⟩ := (validators s.rest).indexed operator operator' hc
    simp only [Option.some.injEq]
    -- the validator that is found is another one, unless the two addresses are the same bytes
    have hsame : operator' = operator → v' = v := by
      rintro rfl
      rw [hg] at hg'
      exact (Option.some.inj hg').symm
    cases hu : v'.unbonded with
    | true =>
      obtain ⟨text, he⟩ : ∃ text, stakingKeeper.slash s.bank s.rest operator ctx.blockHeight
          v.tokens ⟨slashPercentage.toNat * 10 ^ 16⟩ = .error (.error text) :=
        hs.unbonded hc hg' hu
      rw [he]
      simp only [Except.map, reduceCtorEq, false_and, exists_false, false_iff]
      rintro ⟨-, -, hb, ho⟩
      rw [hsame ho, hb] at hu
      cases hu
    | false =>
      obtain ⟨bank', rest', hslash, hburned⟩ : ∃ bank' rest',
          stakingKeeper.slash s.bank s.rest operator ctx.blockHeight v.tokens
            ⟨slashPercentage.toNat * 10 ^ 16⟩ = .ok (bank', rest') ∧
          Burned bondDenom (validators s.rest) (validators rest') s.bank bank' operator'
            (slashedTokens v.tokens ⟨slashPercentage.toNat * 10 ^ 16⟩ v'.tokens) :=
        hs.bonded hc hg' hu ht (not_le.mp hbig) (by positivity) (percent_le hp)
      rw [hslash]
      simp only [Except.map, Except.ok.injEq, exists_eq_left']
      constructor
      · intro hb
        obtain ⟨ho, ha⟩ := hb.unique hburned hg hpos.ne'
        rw [hsame ho, slashedTokens_eq hpos ht] at ha
        exact ⟨(share_eq_iff hsome hp).mp ha.symm, by omega, hsame ho ▸ hu, ho⟩
      · rintro ⟨h100, -, -, rfl⟩
        cases hsame rfl
        have hall : share v.tokens slashPercentage = v.tokens := (share_eq_iff hsome hp).mpr h100
        rwa [slashedTokens_eq hpos ht, ← hall] at hburned

namespace Sample

-- The stake of the only validator.
structure Stake where
  tokens : ℕ
  range  : tokens < 2 ^ 63

def Stake.burn (stake : Stake) (amount : ℕ) : Stake where
  tokens := stake.tokens - amount
  range  := (Nat.sub_le ..).trans_lt stake.range

def bondedPool : AccAddress := .ofBytes [8]

def burnBonded (bank : Bank) (amount : ℕ) : Bank :=
  (bank.setBalance bondedPool "stake" (bank.balances bondedPool "stake" - amount)).setSupply
    "stake" (bank.supply "stake" - amount)

-- The consensus key of the validator has the address that is given.
def staking (consAddr : List UInt8) : StakingKeeper Stake where
  getDelegatorDelegations _ _ := .ok []
  totalBondedTokens stake     := .ok stake.tokens
  validatorTokens stake operator :=
    if operator = [7] then .ok stake.tokens else .error (.error "validator does not exist")
  slash bank stake addr _ power fraction :=
    if addr = consAddr then
      let amount := (slashedTokens power fraction stake.tokens).toNat
      .ok (burnBonded bank amount, stake.burn amount)
    else .ok (bank, stake)

def stakes (consAddr : List UInt8) (stake : Stake) : Validators where
  get operator    := if operator = [7] then some ⟨stake.tokens, false⟩ else none
  byConsAddr addr := if addr = consAddr then some [7] else none
  range operator v hg := by
    split_ifs at hg
    cases hg
    have hlt : (stake.tokens : ℤ) < 2 ^ 63 := by exact_mod_cast stake.range
    exact ⟨Int.natCast_nonneg _, hlt.trans (by norm_num [MathInt.maxBitLen])⟩
  indexed addr operator hc := by
    split_ifs at hc
    cases hc
    exact ⟨_, rfl⟩

def slasher (consAddr : List UInt8) : Keeper MsgSend Stake :=
  { keeper with
    msgRouter := none
    valAddressFromBech32 := fun address => if address = "validator" then some [7] else none
    stakingKeeper := some (staking consAddr) }

def bonded (stake : Stake) : State Stake :=
  { genesis with
    bank := { genesis.bank with
      balances := fun a d => if a = bondedPool ∧ d = "stake" then stake.tokens else 0
      supply := fun d => if d = "stake" then stake.tokens else 0 }
    rest := stake }

end Sample

theorem sample_slashes (consAddr : List UInt8) (ctx : Context) :
    (Sample.staking consAddr).Slashes (Sample.stakes consAddr) "stake" ctx where
  tokens {stake operator v} hg := by
    simp only [Sample.stakes] at hg
    split_ifs at hg with ho
    cases hg
    simp [Sample.staking, ho]
  unknown hc := by
    simp only [Sample.stakes] at hc
    split_ifs at hc with ha
    simp [Sample.staking, ha]
  unbonded hc hg hu := by
    simp only [Sample.stakes] at hg
    split_ifs at hg
    cases hg
    cases hu
  bonded {bank stake addr operator v power fraction} hc hg hu hpower _ hfraction _ := by
    simp only [Sample.stakes] at hc hg
    split_ifs at hc hg with ha ho
    cases hc
    cases hg
    have hnonneg : 0 ≤ slashedTokens power fraction stake.tokens := by
      refine le_min (Int.ediv_nonneg ?_ LegacyDec.precisionReuse_pos.le) (Int.natCast_nonneg _)
      exact mul_nonneg (mul_nonneg hpower (by decide)) hfraction
    have hle : slashedTokens power fraction stake.tokens ≤ stake.tokens := min_le_right ..
    refine ⟨_, _, if_pos ha, ?_, ?_⟩
    · intro o
      simp only [Validators.tokens, Sample.stakes, Sample.Stake.burn]
      split_ifs
      · simp only [Option.map_some, Option.some.injEq]
        omega
      · rfl
    · simp only [Sample.burnBonded, Bank.setSupply, if_true]
      omega

-- A tenth of 1000 tokens is asked for. Nothing is burned of a validator whose consensus key has an
-- address of its own, and everything of one whose addresses are the same bytes.
theorem tenth_not_slashed :
    (¬ (Sample.slasher [8]).Slashed (Sample.stakes [8]) "stake" (Sample.block 5)
        (Sample.bonded ⟨1000, by decide⟩) "validator" 10 [7] ⟨1000, false⟩ ∧
      ((Sample.slasher [8]).slashValidatorProposal (Sample.block 5)
        (Sample.bonded ⟨1000, by decide⟩) "validator" 10).map (·.rest.tokens) = .ok 1000) ∧
    (¬ (Sample.slasher [7]).Slashed (Sample.stakes [7]) "stake" (Sample.block 5)
        (Sample.bonded ⟨1000, by decide⟩) "validator" 10 [7] ⟨1000, false⟩ ∧
      ((Sample.slasher [7]).slashValidatorProposal (Sample.block 5)
        (Sample.bonded ⟨1000, by decide⟩) "validator" 10).map (·.rest.tokens) = .ok 0) := by
  have hleft : ∀ {consAddr tokens}, tokens ≠ 900 →
      ((Sample.slasher consAddr).slashValidatorProposal (Sample.block 5)
        (Sample.bonded ⟨1000, by decide⟩) "validator" 10).map (·.rest.tokens) = .ok tokens →
      ¬ (Sample.slasher consAddr).Slashed (Sample.stakes consAddr) "stake" (Sample.block 5)
        (Sample.bonded ⟨1000, by decide⟩) "validator" 10 [7] ⟨1000, false⟩ := by
    rintro consAddr tokens hne ht ⟨s', hs, hb⟩
    rw [hs] at ht
    simp only [Except.map, Except.ok.injEq] at ht
    have hstake := hb.tokens [7]
    simp only [Validators.tokens, Sample.stakes, Sample.bonded, ht, if_true, Option.map_some,
      Option.some.injEq, share] at hstake
    have hshare : (1000 : ℤ) * (10 : UInt64).toNat / 100 = 100 := by decide
    omega
  have hnothing : ((Sample.slasher [8]).slashValidatorProposal (Sample.block 5)
      (Sample.bonded ⟨1000, by decide⟩) "validator" 10).map (·.rest.tokens) = .ok 1000 := by
    decide +kernel
  have hall : ((Sample.slasher [7]).slashValidatorProposal (Sample.block 5)
      (Sample.bonded ⟨1000, by decide⟩) "validator" 10).map (·.rest.tokens) = .ok 0 := by
    decide +kernel
  exact ⟨⟨hleft (by decide) hnothing, hnothing⟩, ⟨hleft (by decide) hall, hall⟩⟩

-- The whole stake is burned of a validator whose addresses are the same bytes, and of no other one.
theorem sample_slashes_share :
    (Sample.slasher [7]).Slashed (Sample.stakes [7]) "stake" (Sample.block 5)
      (Sample.bonded ⟨1000, by decide⟩) "validator" 100 [7] ⟨1000, false⟩ ∧
    ¬ (Sample.slasher [8]).Slashed (Sample.stakes [8]) "stake" (Sample.block 5)
      (Sample.bonded ⟨1000, by decide⟩) "validator" 100 [7] ⟨1000, false⟩ := by
  have h := fun consAddr => slashes_share_iff (Sample.slasher consAddr) rfl
    (sample_slashes consAddr (Sample.block 5)) (Sample.bonded ⟨1000, by decide⟩) "validator" 100
    (by decide) [7] rfl ⟨1000, false⟩ rfl
  refine ⟨(h [7]).mpr (.inr ⟨rfl, by decide, rfl, rfl⟩), fun hs => ?_⟩
  rcases (h [8]).mp hs with hz | ⟨-, -, -, hc⟩
  · revert hz
    decide
  · revert hc
    decide

end Governance
