import MallChain.Sdk.Ratio
import MallChain.Governance.Tally

namespace Governance

open Sdk Rounding

variable {μ σ : Type} {k : Keeper μ σ} {s s' : State σ} {tally : TallyResult} {params : Params}
variable {id : UInt64} {stakingKeeper : StakingKeeper σ}
variable {ctx : Context} {c : Call σ} {vote : Vote} {tally' : TallyResult}
variable {delegations : σ → AccAddress → List LegacyDec} {outcome : ProposalStatus} {quorum : Bool}

structure TallyResult.Nonneg (tally : TallyResult) : Prop where
  yes        : 0 ≤ tally.yesCount
  no         : 0 ≤ tally.noCount
  noWithVeto : 0 ≤ tally.noWithVetoCount
  abstain    : 0 ≤ tally.abstainCount

-- The sum of the counts, without a bound on its size.
def TallyResult.total (tally : TallyResult) : ℤ :=
  tally.yesCount + tally.noCount + tally.noWithVetoCount + tally.abstainCount

-- The same tally with another number of Yes votes.
def TallyResult.withYes (tally : TallyResult) (yesCount : ℤ) : TallyResult :=
  { tally with yesCount }

-- The stake that the staking module reports is not negative.
def StakingKeeper.Bonds (stakingKeeper : StakingKeeper σ) : Prop :=
  ∀ rest totalBonded, stakingKeeper.totalBondedTokens rest = .ok totalBonded → 0 ≤ totalBonded

def Keeper.Bonds (k : Keeper μ σ) : Prop :=
  ∀ stakingKeeper, k.stakingKeeper = some stakingKeeper → stakingKeeper.Bonds

-- A quorum of the reported stake has voted.
def Keeper.Quorate (k : Keeper μ σ) (rest : σ) (tally : TallyResult) (params : Params) : Prop :=
  ∃ stakingKeeper totalBonded, k.stakingKeeper = some stakingKeeper ∧
    stakingKeeper.totalBondedTokens rest = .ok totalBonded ∧ (totalBonded ≠ 0 →
      params.quorum.i ≤ ratio LegacyDec.precisionReuse tally.total totalBonded)

-- What a proposal needs to pass: votes, not too many vetoes, a quorum and enough Yes votes.
structure Keeper.Passes (k : Keeper μ σ) (rest : σ) (tally : TallyResult) (params : Params) :
    Prop where
  voted  : tally.total ≠ 0
  veto   : ratio LegacyDec.precisionReuse tally.noWithVetoCount tally.total ≤
    params.vetoThreshold.i
  quorum : k.Quorate rest tally params
  yes    : params.threshold.i < ratio LegacyDec.precisionReuse tally.yesCount tally.total

namespace TallyResult

theorem of_totalVotes {votes : ℤ} (h : tally.totalVotes = .ok votes) : votes = tally.total := by
  simp only [totalVotes, Result.bind_eq_ok] at h
  obtain ⟨votes₁, h₁, votes₂, h₂, h₃⟩ := h
  rw [total, MathInt.of_add h₃, MathInt.of_add h₂, MathInt.of_add h₁]

variable {yesCount : ℤ}

theorem Nonneg.yes_le (h : tally.Nonneg) : tally.yesCount ≤ tally.total := by
  have := h.no
  have := h.noWithVeto
  have := h.abstain
  simp only [TallyResult.total]
  omega

theorem Nonneg.noWithVeto_le (h : tally.Nonneg) : tally.noWithVetoCount ≤ tally.total := by
  have := h.yes
  have := h.no
  have := h.abstain
  simp only [TallyResult.total]
  omega

theorem Nonneg.total (h : tally.Nonneg) : 0 ≤ tally.total :=
  add_nonneg (add_nonneg (add_nonneg h.yes h.no) h.noWithVeto) h.abstain

theorem Nonneg.withYes (h : tally.Nonneg) (hy : tally.yesCount ≤ yesCount) :
    (tally.withYes yesCount).Nonneg where
  yes        := h.yes.trans hy
  no         := h.no
  noWithVeto := h.noWithVeto
  abstain    := h.abstain

theorem total_withYes : (tally.withYes yesCount).total = tally.total - tally.yesCount + yesCount := by
  simp only [total, withYes]
  ring

theorem total_le_withYes (hy : tally.yesCount ≤ yesCount) :
    tally.total ≤ (tally.withYes yesCount).total := by
  rw [total_withYes]
  omega

end TallyResult

namespace Keeper

theorem hasQuorum_iff (ht : tally.Nonneg) (hz : tally.total ≠ 0)
    (h : k.hasQuorum s tally params = .ok quorum) :
    quorum = true ↔ k.Quorate s.rest tally params := by
  simp only [hasQuorum, Result.bind_eq_ok] at h
  obtain ⟨votes, hv, h⟩ := h
  rw [TallyResult.of_totalVotes hv, if_neg hz] at h
  cases hk : k.stakingKeeper with
  | none =>
    simp only [hk, Result.pure_eq_ok] at h
    simp [Quorate, hk, ← h]
  | some stakingKeeper =>
    cases hb : stakingKeeper.totalBondedTokens s.rest with
    | error e =>
      cases e with
      | error text =>
        simp only [hk, hb, Result.pure_eq_ok] at h
        simp [Quorate, hk, hb, ← h]
      | panic text => simp [hk, hb] at h
    | ok totalBonded =>
      simp only [hk, hb] at h
      have hquorate : k.Quorate s.rest tally params ↔ (totalBonded ≠ 0 →
          params.quorum.i ≤ ratio LegacyDec.precisionReuse tally.total totalBonded) := by
        simp [Quorate, hk, hb]
      rw [hquorate]
      split_ifs at h with hz
      · cases h
        simp [hz]
      · simp only [Result.bind_eq_ok, Result.pure_eq_ok] at h
        obtain ⟨quorumRatio, hq, rfl⟩ := h
        rw [LegacyDec.of_ofInt_quo hq ht.total, decide_eq_true_iff]
        simp [hz]

-- The outcome is decided by the rounded ratios.
theorem determineProposalOutcome_iff (ht : tally.Nonneg)
    (h : k.determineProposalOutcome s tally params = .ok outcome) :
    outcome = .passed ↔ k.Passes s.rest tally params := by
  simp only [determineProposalOutcome, Result.bind_eq_ok] at h
  obtain ⟨votes, hv, h⟩ := h
  cases TallyResult.of_totalVotes hv
  split_ifs at h with hz
  · cases h
    simpa using fun hp : k.Passes s.rest tally params => hp.voted hz
  simp only [Result.bind_eq_ok] at h
  obtain ⟨vetoRatio, hveto, h⟩ := h
  have hvetoRatio := LegacyDec.of_ofInt_quo hveto ht.noWithVeto
  split_ifs at h with hlt
  · cases h
    have hno : ¬ k.Passes s.rest tally params := fun hp => by
      have := hp.veto
      omega
    simpa using hno
  simp only [Result.bind_eq_ok] at h
  obtain ⟨quorum, hquorum, h⟩ := h
  have hquorate := hasQuorum_iff ht hz hquorum
  split_ifs at h with hq
  · cases h
    have hno : ¬ k.Passes s.rest tally params := fun hp => by
      simp [hquorate.mpr hp.quorum] at hq
    simpa using hno
  simp only [Result.bind_eq_ok, Result.pure_eq_ok] at h
  obtain ⟨yesRatio, hyes, rfl⟩ := h
  have hyesRatio := LegacyDec.of_ofInt_quo hyes ht.yes
  have hq : quorum = true := by simpa using hq
  constructor
  · intro hpass
    split_ifs at hpass with hlt
    exact ⟨hz, by omega, hquorate.mp hq, by omega⟩
  · intro hp
    rw [if_pos (hyesRatio ▸ hp.yes)]

end Keeper

section Yes

variable {yesCount : ℤ}

-- A larger share of the votes is for Yes, and a smaller one is a veto.
theorem ratio_yes_le (ht : tally.Nonneg) (hpos : 0 < tally.total) (hy : tally.yesCount ≤ yesCount) :
    ratio LegacyDec.precisionReuse tally.yesCount tally.total ≤
      ratio LegacyDec.precisionReuse yesCount (tally.withYes yesCount).total := by
  have hle := TallyResult.total_le_withYes hy
  refine ratio_mono LegacyDec.precisionReuse_pos hpos (by omega) ?_
  have hothers : 0 ≤ tally.total - tally.yesCount := sub_nonneg.mpr ht.yes_le
  have hgrow : tally.yesCount * (tally.total - tally.yesCount) ≤
      yesCount * (tally.total - tally.yesCount) := mul_le_mul_of_nonneg_right hy hothers
  rw [TallyResult.total_withYes]
  linarith

theorem ratio_veto_le (ht : tally.Nonneg) (hpos : 0 < tally.total) (hy : tally.yesCount ≤ yesCount) :
    ratio LegacyDec.precisionReuse tally.noWithVetoCount (tally.withYes yesCount).total ≤
      ratio LegacyDec.precisionReuse tally.noWithVetoCount tally.total := by
  have hle := TallyResult.total_le_withYes hy
  exact ratio_mono LegacyDec.precisionReuse_pos (by omega) hpos
    (mul_le_mul_of_nonneg_left hle ht.noWithVeto)

theorem Keeper.Quorate.withYes {rest : σ} (hk : k.Bonds) (h : k.Quorate rest tally params)
    (hy : tally.yesCount ≤ yesCount) : k.Quorate rest (tally.withYes yesCount) params := by
  obtain ⟨stakingKeeper, totalBonded, hs, hb, hq⟩ := h
  refine ⟨stakingKeeper, totalBonded, hs, hb, fun hz => (hq hz).trans ?_⟩
  have hpos : 0 < totalBonded := lt_of_le_of_ne (hk stakingKeeper hs rest totalBonded hb) hz.symm
  exact ratio_mono LegacyDec.precisionReuse_pos hpos hpos
    (mul_le_mul_of_nonneg_right (TallyResult.total_le_withYes hy) hpos.le)

theorem Keeper.Passes.withYes {rest : σ} (hk : k.Bonds) (ht : tally.Nonneg)
    (h : k.Passes rest tally params) (hy : tally.yesCount ≤ yesCount) :
    k.Passes rest (tally.withYes yesCount) params := by
  have hpos : 0 < tally.total := lt_of_le_of_ne ht.total h.voted.symm
  have hle := TallyResult.total_le_withYes hy
  exact {
    voted  := by omega
    veto   := (ratio_veto_le ht hpos hy).trans h.veto
    quorum := h.quorum.withYes hk hy
    yes    := h.yes.trans_le (ratio_yes_le ht hpos hy) }

end Yes

-- The votes that are stored have weights that are not negative.
def Weighted (votes : KVStore (UInt64 ×ₗ String) Vote) : Prop :=
  ∀ {key vote}, votes.get key = some vote → ∀ wo ∈ vote.options, 0 ≤ wo.weight.i

theorem Weighted.call (h : Weighted s.votes) (hc : k.call ctx s c = .ok s') :
    Weighted s'.votes := by
  cases Keeper.call_changed hc with
  | voted hv hd hg hst ht hw hp hs =>
    intro key stored hget
    rw [hs, KVStore.get_set] at hget
    split_ifs at hget
    · cases hget
      exact (of_checkWeights hw).1
    · exact h hget
  | deposited _ _ _ _ _ _ _ hs => exact hs ▸ h
  | submitted _ _ _ _ _ _ hs => exact hs ▸ h
  | kept _ _ _ hs => exact hs ▸ h

namespace TallyResult.Nonneg

theorem countOf_iff : tally.Nonneg ↔ ∀ option, option.Known → 0 ≤ tally.countOf option := by
  constructor
  · rintro h option (rfl | rfl | rfl | rfl)
    · exact h.yes
    · exact h.no
    · exact h.noWithVeto
    · exact h.abstain
  · intro h
    exact {
      yes        := h .yes (.inl rfl)
      no         := h .no (.inr (.inl rfl))
      noWithVeto := h .noWithVeto (.inr (.inr (.inl rfl)))
      abstain    := h .abstain (.inr (.inr (.inr rfl))) }

end TallyResult.Nonneg

-- A vote never takes anything away from a count.
theorem tallyVote_nonneg (hk : k.stakingKeeper = some stakingKeeper)
    (hd : stakingKeeper.Delegates delegations) (hw : ∀ wo ∈ vote.options, 0 ≤ wo.weight.i)
    (ht : tally.Nonneg) (h : k.tallyVote s tally vote = .ok tally') : tally'.Nonneg := by
  rw [TallyResult.Nonneg.countOf_iff] at ht ⊢
  intro option ho
  rw [Keeper.tallyVote_power hk hd hw ho h]
  refine add_nonneg (ht option ho) (List.sum_nonneg fun share hm => ?_)
  obtain ⟨wo, hwo, rfl⟩ := List.mem_map.mp hm
  exact Int.ediv_nonneg
    (mul_nonneg (Keeper.countedStake_nonneg hd) (hw wo (List.mem_of_mem_filter hwo)))
    LegacyDec.precisionReuse_pos.le

theorem tallyVotes_nonneg (hk : k.stakingKeeper = some stakingKeeper)
    (hd : stakingKeeper.Delegates delegations) (hw : Weighted s.votes)
    (h : k.tallyVotes s id = .ok (s', tally)) : tally.Nonneg := by
  simp only [Keeper.tallyVotes, Result.bind_eq_ok, Result.pure_eq_ok, Prod.mk.injEq] at h
  obtain ⟨_, _, tally, hf, _, rfl⟩ := h
  have hweights : Fold.Along (k.tallyVote s) (fun _ vote => ∀ wo ∈ vote.options, 0 ≤ wo.weight.i)
      (s.getVotes id) {} := .of_forall fun vote hm _ => by
    obtain ⟨voter, hg⟩ := mem_getVotes_iff.mp hm
    exact hw hg
  exact hweights.holds (I := fun _ tally => tally.Nonneg)
    (fun ht hw hstep => tallyVote_nonneg hk hd hw ht hstep) ⟨le_rfl, le_rfl, le_rfl, le_rfl⟩ hf

-- The votes are never counted to a negative number, at no moment of any run.
theorem counted_nonneg (hk : k.stakingKeeper = some stakingKeeper)
    (hd : stakingKeeper.Delegates delegations) {p : State σ × List (Report σ)}
    (h : (journal k).Reachable p) : ∀ later m past id s' tally,
      pastOf p.2 = later ++ m :: past → k.tallyVotes m.state id = .ok (s', tally) →
      tally.Nonneg := by
  have hseen := journal_votes_seen (k := k) (P := fun _ _ _ => True)
    (I := fun votes _ => Weighted votes) (by simp [Weighted]) (fun hw hc _ => hw.call hc)
    fun hw => hw
  have hrun : (journal k).Run (k.Done fun _ _ _ => True) p :=
    h.mono fun _ _ _ m _ => by cases m <;> trivial
  intro later m past id s' tally he ht
  exact tallyVotes_nonneg hk hd ((hseen.holds hrun).2 later m past he) ht

theorem TallyResult.Nonneg.totalVotes (h : tally.Nonneg) :
    tally.totalVotes = MathInt.inRange tally.total := by
  have hyn := add_nonneg h.yes h.no
  calc
    tally.totalVotes = ((MathInt.inRange (tally.yesCount + tally.noCount) >>= fun votes =>
        MathInt.inRange (votes + tally.noWithVetoCount)) >>= fun votes =>
          MathInt.inRange (votes + tally.abstainCount)) := by
      rw [bind_assoc]
      rfl
    _ = MathInt.inRange tally.total := by
      rw [MathInt.inRange_add hyn h.noWithVeto, MathInt.inRange_add (add_nonneg hyn h.noWithVeto) h.abstain]
      rfl

namespace Keeper

theorem hasQuorum_ok (hk : k.Bonds) (ht : tally.Nonneg) (hlt : tally.total < 2 ^ MathInt.maxBitLen)
    (h : k.Quorate s.rest tally params) : ∃ quorum, k.hasQuorum s tally params = .ok quorum := by
  obtain ⟨stakingKeeper, totalBonded, hs, hb, -⟩ := h
  simp only [hasQuorum, ht.totalVotes, MathInt.inRange_nonneg ht.total, if_pos hlt, Result.ok_bind, hs, hb]
  split_ifs with hz hzero
  · exact ⟨_, rfl⟩
  · exact ⟨_, rfl⟩
  · have hpos : 0 < totalBonded := lt_of_le_of_ne (hk stakingKeeper hs s.rest totalBonded hb)
      (Ne.symm hzero)
    rw [LegacyDec.ofInt_quo_ok ht.total hlt hpos]
    exact ⟨_, rfl⟩

-- Nothing on the way to a passing outcome overflows once the counts add up.
theorem determineProposalOutcome_ok (hk : k.Bonds) (ht : tally.Nonneg)
    (hlt : tally.total < 2 ^ MathInt.maxBitLen) (h : k.Passes s.rest tally params) :
    k.determineProposalOutcome s tally params = .ok .passed := by
  have hpos : 0 < tally.total := lt_of_le_of_ne ht.total h.voted.symm
  obtain ⟨quorum, hquorum⟩ := hasQuorum_ok hk ht hlt h.quorum
  have htrue := (hasQuorum_iff ht h.voted hquorum).mpr h.quorum
  have hveto := LegacyDec.ofInt_quo_ok ht.noWithVeto (b := tally.total) (ht.noWithVeto_le.trans_lt hlt) hpos
  have hyes := LegacyDec.ofInt_quo_ok ht.yes (b := tally.total) (ht.yes_le.trans_lt hlt) hpos
  have hveto' := h.veto
  simp only [determineProposalOutcome, ht.totalVotes, MathInt.inRange_nonneg ht.total, if_pos hlt,
    Result.ok_bind, if_neg h.voted, hveto, hquorum, htrue, hyes, if_neg (not_lt.mpr hveto'),
    if_pos h.yes]
  rfl

theorem determineProposalOutcome_overflow (ht : tally.Nonneg)
    (hge : 2 ^ MathInt.maxBitLen ≤ tally.total) :
    k.determineProposalOutcome s tally params = .error (.panic "Int overflow") := by
  simp only [determineProposalOutcome, ht.totalVotes, MathInt.inRange_nonneg ht.total,
    if_neg (not_lt.mpr hge)]
  rfl

end Keeper

-- A proposal that passes still passes with more Yes votes, unless the numbers no longer fit.
theorem outcome_mono (k : Keeper μ σ) (hk : k.Bonds) (s : State σ) (params : Params)
    (tally : TallyResult) (ht : tally.Nonneg) (yesCount : ℤ) (hy : tally.yesCount ≤ yesCount)
    (h : k.determineProposalOutcome s tally params = .ok .passed) :
    k.determineProposalOutcome s (tally.withYes yesCount) params =
      if (tally.withYes yesCount).total < 2 ^ 256 then .ok .passed
      else .error (.panic "Int overflow") := by
  have hpasses := ((Keeper.determineProposalOutcome_iff ht h).mp rfl).withYes hk ht hy
  split_ifs with hlt
  · exact Keeper.determineProposalOutcome_ok hk (ht.withYes hy) hlt hpasses
  · exact Keeper.determineProposalOutcome_overflow (ht.withYes hy) (not_lt.mp hlt)

-- 60 of 90 votes pass a proposal, and 70 of 100 do, but not as many as no longer fit.
theorem sample_outcome_mono : ∃ params : Params, Sample.genesis.params = some params ∧
    (Sample.electorate []).determineProposalOutcome Sample.genesis
      { yesCount := 60, noCount := 30 } params = .ok .passed ∧
    (Sample.electorate []).determineProposalOutcome Sample.genesis
      { yesCount := 70, noCount := 30 } params = .ok .passed ∧
    (Sample.electorate []).determineProposalOutcome Sample.genesis
      { yesCount := 2 ^ 256, noCount := 30 } params = .error (.panic "Int overflow") := by
  have hk : (Sample.electorate []).Bonds := by
    rintro stakingKeeper ⟨⟩ rest totalBonded ⟨⟩
    decide
  have ht : TallyResult.Nonneg { yesCount := 60, noCount := 30 } := by
    constructor <;> decide
  obtain ⟨params, hp, h⟩ : ∃ params : Params, Sample.genesis.params = some params ∧
      (Sample.electorate []).determineProposalOutcome Sample.genesis
      { yesCount := 60, noCount := 30 } params = .ok .passed :=
    ⟨_, rfl, by decide +kernel⟩
  refine ⟨params, hp, h, ?_, ?_⟩
  · exact (outcome_mono (Sample.electorate []) hk Sample.genesis params _ ht 70 (by decide) h).trans
      (if_pos (by decide))
  · exact (outcome_mono (Sample.electorate []) hk Sample.genesis params _ ht (2 ^ 256) (by decide)
      h).trans (if_neg (by decide))

end Governance
