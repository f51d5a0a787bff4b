import MallChain.Governance.Lifecycle

namespace Governance

open Sdk

variable {μ σ : Type} {k : Keeper μ σ} {ctx : Context} {s s' : State σ} {c : Call σ}
variable {id : UInt64} {voter : String} {vote : Vote} {option : VoteOption} {addr : AccAddress}
variable {past : List (Moment σ)} {tally tally' : TallyResult} {stakingKeeper : StakingKeeper σ}
variable {delegations : σ → AccAddress → List LegacyDec} {stake : ℤ}

-- The options that are counted.
def VoteOption.Known (option : VoteOption) : Prop :=
  option = .yes ∨ option = .no ∨ option = .noWithVeto ∨ option = .abstain

-- What is counted for an option.
def TallyResult.countOf (tally : TallyResult) : VoteOption → ℤ
  | .yes => tally.yesCount
  | .no => tally.noCount
  | .noWithVeto => tally.noWithVetoCount
  | .abstain => tally.abstainCount
  | _ => 0

-- The shares of delegations, each truncated.
def sharesOf (delegations : List LegacyDec) : ℤ :=
  (delegations.map fun shares => shares.i / LegacyDec.precisionReuse).sum

-- The staking module answers with the first 200 delegations of an account.
structure StakingKeeper.Delegates (stakingKeeper : StakingKeeper σ)
    (delegations : σ → AccAddress → List LegacyDec) : Prop where
  answer : ∀ rest addr answer, stakingKeeper.getDelegatorDelegations rest addr = .ok answer →
    answer = (delegations rest addr).take 200
  nonneg : ∀ rest addr, ∀ shares ∈ delegations rest addr, 0 ≤ shares.i

-- What a vote contributes to an option, and to all of them.
def Vote.power (vote : Vote) (stake : ℤ) (option : VoteOption) : ℤ :=
  ((vote.options.filter (·.option = option)).map fun wo =>
    stake * wo.weight.i / LegacyDec.precisionReuse).sum

def Vote.totalPower (vote : Vote) (stake : ℤ) : ℤ :=
  vote.power stake .yes + vote.power stake .no + vote.power stake .noWithVeto +
    vote.power stake .abstain

-- The stake that a vote is counted with.
def Keeper.countedStake (k : Keeper μ σ) (delegations : σ → AccAddress → List LegacyDec) (rest : σ)
    (voter : String) : ℤ :=
  (k.accAddressFromBech32 voter).elim 0 fun addr => sharesOf ((delegations rest addr).take 200)

-- The votes of a proposal are the last ones of their voters, one for an account, and each of them
-- adds the stake of its account once, up to the rounding.
structure Counted (k : Keeper μ σ) (delegations : σ → AccAddress → List LegacyDec) (s : State σ)
    (id : UInt64) (past : List (Moment σ)) (tally : TallyResult) : Prop where
  votes   : ∀ vote, vote ∈ s.getVotes id ↔ lastVote id vote.voter past = some vote
  nodup   : (s.getVotes id).Nodup
  account : ∀ vote ∈ s.getVotes id, ∀ vote' ∈ s.getVotes id,
    k.accAddressFromBech32 vote.voter = k.accAddressFromBech32 vote'.voter → vote = vote'
  total   : ∀ option, option.Known → tally.countOf option = ((s.getVotes id).map fun vote =>
    vote.power (k.countedStake delegations s.rest vote.voter) option).sum
  stake   : ∀ vote ∈ s.getVotes id, ∃ addr, k.accAddressFromBech32 vote.voter = some addr ∧
    vote.totalPower (k.countedStake delegations s.rest vote.voter) ≤
      sharesOf (delegations s.rest addr) ∧
    ((delegations s.rest addr).length ≤ 200 → sharesOf (delegations s.rest addr) <
      vote.totalPower (k.countedStake delegations s.rest vote.voter) + vote.options.length) ∧
    (sharesOf (delegations s.rest addr) = 0 → ∀ option,
      vote.power (k.countedStake delegations s.rest vote.voter) option = 0)

-- A vote is for options that are counted, and its account has not voted on the proposal under
-- another spelling of its address.
def Keeper.Canonical (k : Keeper μ σ) (_ : Context) (s : State σ) (c : Call σ) : Prop :=
  ∀ vote, c.vote = some vote → (∀ wo ∈ vote.options, wo.option.Known) ∧
    ∀ voter stored, s.votes.get (join vote.proposalId voter) = some stored →
      k.accAddressFromBech32 voter = k.accAddressFromBech32 vote.voter → voter = vote.voter

-- What is known of the votes that are stored.
structure Ballots (k : Keeper μ σ) (votes : KVStore (UInt64 ×ₗ String) Vote) : Prop where
  keyed   : ∀ {id voter vote}, votes.get (join id voter) = some vote →
    vote.proposalId = id ∧ vote.voter = voter
  weights : ∀ {id voter vote}, votes.get (join id voter) = some vote →
    checkWeights [] (LegacyDec.ofInt 0) vote.options = .ok ()
  known   : ∀ {id voter vote}, votes.get (join id voter) = some vote →
    ∀ wo ∈ vote.options, wo.option.Known
  account : ∀ {id voter voter' vote vote'}, votes.get (join id voter) = some vote →
    votes.get (join id voter') = some vote' →
    k.accAddressFromBech32 voter = k.accAddressFromBech32 voter' → voter = voter'

theorem join_eq_iff {id' : UInt64} {voter' : String} :
    join id voter = join id' voter' ↔ id = id' ∧ voter = voter' := by
  simp only [join, toLex_inj, Prod.mk.injEq]

theorem Ballots.call (h : Ballots k s.votes) (hc : k.call ctx s c = .ok s')
    (hq : k.Canonical ctx s c) : Ballots k s'.votes := by
  cases Keeper.call_changed hc with
  | voted hv hd hg hst ht hw hp hs =>
    rename_i vote _
    obtain ⟨hknown, haccount⟩ := hq vote hv
    -- A vote that is found is the new one or an old one.
    have hfound : ∀ {id voter vote'}, s'.votes.get (join id voter) = some vote' →
        (id = vote.proposalId ∧ voter = vote.voter ∧ vote' = vote) ∨
          s.votes.get (join id voter) = some vote' := by
      intro id voter vote' hg
      rw [hs, KVStore.get_set] at hg
      split_ifs at hg with hkey
      · cases hg
        exact .inl ⟨(join_eq_iff.mp hkey).1, (join_eq_iff.mp hkey).2, rfl⟩
      · exact .inr hg
    refine ⟨?keyed, ?weights, ?known, ?account⟩
    case keyed =>
      intro id voter vote' hg
      rcases hfound hg with ⟨rfl, rfl, rfl⟩ | hg
      · exact ⟨rfl, rfl⟩
      · exact h.keyed hg
    case weights =>
      intro id voter vote' hg
      rcases hfound hg with ⟨_, _, rfl⟩ | hg
      · exact hw
      · exact h.weights hg
    case known =>
      intro id voter vote' hg
      rcases hfound hg with ⟨_, _, rfl⟩ | hg
      · exact hknown
      · exact h.known hg
    case account =>
      intro id voter voter' vote₁ vote₂ hg hg' he
      rcases hfound hg with ⟨rfl, rfl, _⟩ | hg <;> rcases hfound hg' with ⟨hi, rfl, _⟩ | hg'
      · rfl
      · exact (haccount voter' vote₂ hg' he.symm).symm
      · exact haccount voter vote₁ (hi ▸ hg) he
      · exact h.account hg hg' he
  | deposited _ _ _ _ _ _ _ hs => exact hs ▸ h
  | submitted _ _ _ _ _ _ hs => exact hs ▸ h
  | kept _ _ _ hs => exact hs ▸ h

theorem Ballots.empty : Ballots k .empty where
  keyed hg   := by simp at hg
  weights hg := by simp at hg
  known hg   := by simp at hg
  account hg := by simp at hg

-- What is kept of the votes and of what has happened was known at every moment before.
theorem journal_votes_seen {P : Context → State σ → Call σ → Prop}
    {I : KVStore (UInt64 ×ₗ String) Vote → List (Moment σ) → Prop} (hinit : I .empty [])
    (hcall : ∀ {ctx s c s' past}, I s.votes past → k.call ctx s c = .ok s' → P ctx s c →
      I s'.votes (.called ctx s c :: past))
    (hswept : ∀ {ctx s proposal past}, I s.votes past → I s.votes (.swept ctx s proposal :: past)) :
    (journal k).Invariant (k.Done P) fun p => I p.1.votes (pastOf p.2) ∧
      ∀ later m past, pastOf p.2 = later ++ m :: past → I m.state.votes past := by
  refine journal_votes (J := fun votes past => I votes past ∧ ∀ later m earlier,
    past = later ++ m :: earlier → I m.state.votes earlier) ⟨hinit, by simp⟩ ?call ?swept
  case call =>
    rintro ctx s c s' past ⟨hI, hseen⟩ hc hq
    refine ⟨hcall hI hc hq, ?_⟩
    intro later m earlier he
    rcases List.cons_eq_append_iff.mp he with ⟨_, hm⟩ | ⟨later', _, he⟩
    · cases hm
      exact hI
    · exact hseen later' m earlier he
  case swept =>
    rintro ctx s proposal past ⟨hI, hseen⟩
    refine ⟨hswept hI, ?_⟩
    intro later m earlier he
    rcases List.cons_eq_append_iff.mp he with ⟨_, hm⟩ | ⟨later', _, he⟩
    · cases hm
      exact hI
    · exact hseen later' m earlier he

-- Every vote is known when it is read.
theorem ballots_seen (k : Keeper μ σ) :
    (journal k).Invariant (k.Done k.Canonical) fun p =>
      (Kept p.1.votes (pastOf p.2) ∧ Ballots k p.1.votes) ∧
        ∀ later m past, pastOf p.2 = later ++ m :: past →
          Kept m.state.votes past ∧ Ballots k m.state.votes :=
  journal_votes_seen (I := fun votes past => Kept votes past ∧ Ballots k votes)
    ⟨fun _ _ => rfl, .empty⟩ (fun h hc hq => ⟨h.1.call hc, h.2.call hc hq⟩)
    fun h => ⟨h.1.swept, h.2⟩

-- The weights of an accepted vote are positive and add up to 1.
theorem of_checkWeights {options : List WeightedVoteOption} {seen : List VoteOption}
    {totalWeight : LegacyDec} {u : Unit} (h : checkWeights seen totalWeight options = .ok u) :
    (∀ wo ∈ options, 0 ≤ wo.weight.i) ∧
      totalWeight.i + (options.map (·.weight.i)).sum = LegacyDec.precisionReuse := by
  induction options generalizing seen totalWeight with
  | nil =>
    simp only [checkWeights, failIf_eq_ok, not_not] at h
    simp [h, LegacyDec.ofInt]
  | cons wo options ih =>
    simp only [checkWeights, Result.bind_eq_ok, failIf_eq_ok, not_or, not_le] at h
    obtain ⟨_, _, _, ⟨hpos, _⟩, total, ht, h⟩ := h
    obtain ⟨hrest, hsum⟩ := ih h
    rw [LegacyDec.of_add ht] at hsum
    constructor
    · intro wo' hm
      rcases List.mem_cons.mp hm with rfl | hm
      · exact hpos.le
      · exact hrest wo' hm
    · rw [List.map_cons, List.sum_cons, ← hsum]
      ring

section Options

variable {options : List WeightedVoteOption} {f : WeightedVoteOption → ℤ}

-- Each entry belongs to one of the options that are counted.
theorem sum_options (h : ∀ wo ∈ options, wo.option.Known) :
    ((options.filter (·.option = .yes)).map f).sum + ((options.filter (·.option = .no)).map f).sum +
      ((options.filter (·.option = .noWithVeto)).map f).sum +
      ((options.filter (·.option = .abstain)).map f).sum = (options.map f).sum := by
  induction options with
  | nil => rfl
  | cons wo options ih =>
    have ih := ih fun wo hm => h wo (List.mem_cons_of_mem _ hm)
    rcases h wo (List.mem_cons_self ..) with ho | ho | ho | ho <;>
      simp only [List.filter_cons, ho, reduceCtorEq, decide_true, decide_false, if_true,
        List.map_cons, List.sum_cons, ← ih] <;> simp <;> ring

end Options

namespace Vote

theorem totalPower_eq (h : ∀ wo ∈ vote.options, wo.option.Known) : vote.totalPower stake =
    ((vote.options.map fun wo => stake * wo.weight.i).map (· / LegacyDec.precisionReuse)).sum := by
  rw [totalPower, power, power, power, power, sum_options h, List.map_map]
  rfl

theorem power_zero : vote.power 0 option = 0 := by
  simp [power]

variable {u : Unit}

theorem sum_weights (hw : checkWeights [] (LegacyDec.ofInt 0) vote.options = .ok u) :
    (vote.options.map fun wo => stake * wo.weight.i).sum = stake * LegacyDec.precisionReuse := by
  have hsum := (of_checkWeights hw).2
  rw [List.sum_map_mul_left, ← hsum]
  simp [LegacyDec.ofInt]

theorem totalPower_le (h : ∀ wo ∈ vote.options, wo.option.Known)
    (hw : checkWeights [] (LegacyDec.ofInt 0) vote.options = .ok u) :
    vote.totalPower stake ≤ stake := by
  have hle := Rounding.sum_ediv_le (l := vote.options.map fun wo => stake * wo.weight.i)
    LegacyDec.precisionReuse_pos
  rw [sum_weights hw, ← totalPower_eq h] at hle
  exact le_of_mul_le_mul_right hle LegacyDec.precisionReuse_pos

theorem lt_totalPower_add_length (h : ∀ wo ∈ vote.options, wo.option.Known)
    (hw : checkWeights [] (LegacyDec.ofInt 0) vote.options = .ok u) :
    stake < vote.totalPower stake + vote.options.length := by
  have hne : (vote.options.map fun wo => stake * wo.weight.i) ≠ [] := by
    intro he
    rw [List.map_eq_nil_iff] at he
    have hsum := (of_checkWeights hw).2
    rw [he, LegacyDec.ofInt, zero_mul, List.map_nil, List.sum_nil, add_zero] at hsum
    exact LegacyDec.precisionReuse_pos.ne hsum
  have hlt := Rounding.sum_lt_ediv_add_length LegacyDec.precisionReuse_pos hne
  rw [sum_weights hw, ← totalPower_eq h, List.length_map] at hlt
  exact lt_of_mul_lt_mul_right hlt LegacyDec.precisionReuse_pos.le

end Vote

theorem TallyResult.of_count {votes : ℤ} {option' : VoteOption} (hk : option'.Known)
    (h : tally.count votes option = .ok tally') :
    tally'.countOf option' = tally.countOf option' + if option = option' then votes else 0 := by
  cases option <;> simp only [TallyResult.count, Result.bind_eq_ok, Result.pure_eq_ok,
    Except.ok.injEq] at h
  case unspecified =>
    subst h
    rcases hk with rfl | rfl | rfl | rfl <;> simp
  case unknown =>
    subst h
    rcases hk with rfl | rfl | rfl | rfl <;> simp
  all_goals
    obtain ⟨count, hc, rfl⟩ := h
    have hsum := MathInt.of_add hc
    rcases hk with rfl | rfl | rfl | rfl <;> simp [TallyResult.countOf, hsum]

theorem sum_filter_map {α : Type} {p : α → Prop} [DecidablePred p] {f : α → ℤ} (l : List α) :
    ((l.filter (p ·)).map f).sum = (l.map fun a => if p a then f a else 0).sum := by
  induction l with
  | nil => rfl
  | cons a l ih => by_cases ha : p a <;> simp [ha, ih]

theorem sharesOf_nonneg {l : List LegacyDec} (h : ∀ shares ∈ l, 0 ≤ shares.i) : 0 ≤ sharesOf l := by
  refine List.sum_nonneg ?_
  simp only [List.mem_map]
  rintro x ⟨shares, hm, rfl⟩
  exact Int.ediv_nonneg (h shares hm) LegacyDec.precisionReuse_pos.le

-- Shares beyond the first 200 are not counted.
theorem sharesOf_take_le {l : List LegacyDec} (h : ∀ shares ∈ l, 0 ≤ shares.i) (n : ℕ) :
    sharesOf (l.take n) ≤ sharesOf l := by
  have hsplit : sharesOf l = sharesOf (l.take n) + sharesOf (l.drop n) := by
    rw [sharesOf, sharesOf, sharesOf, ← List.sum_append, ← List.map_append, List.take_append_drop]
  have hrest : 0 ≤ sharesOf (l.drop n) :=
    sharesOf_nonneg fun shares hm => h shares (List.mem_of_mem_drop hm)
  omega

namespace Keeper

theorem countedStake_of (ha : k.accAddressFromBech32 voter = some addr) {rest : σ} :
    k.countedStake delegations rest voter = sharesOf ((delegations rest addr).take 200) := by
  rw [countedStake, ha, Option.elim_some]

theorem countedStake_nonneg (hd : stakingKeeper.Delegates delegations) {rest : σ} :
    0 ≤ k.countedStake delegations rest voter := by
  rw [countedStake]
  cases k.accAddressFromBech32 voter with
  | none => exact le_rfl
  | some addr =>
    exact sharesOf_nonneg fun shares hm => hd.nonneg rest addr shares (List.mem_of_mem_take hm)

-- A vote adds its power to every option.
theorem tallyVote_power (hk : k.stakingKeeper = some stakingKeeper)
    (hd : stakingKeeper.Delegates delegations) (hw : ∀ wo ∈ vote.options, 0 ≤ wo.weight.i)
    (ho : option.Known) (h : k.tallyVote s tally vote = .ok tally') :
    tally'.countOf option = tally.countOf option +
      vote.power (k.countedStake delegations s.rest vote.voter) option := by
  simp only [tallyVote, hk, Result.bind_eq_ok, orFail_eq_ok] at h
  obtain ⟨addr, ha, answer, hans, stake, hs, h⟩ := h
  have hnonneg : ∀ shares ∈ answer, 0 ≤ shares.i := by
    rw [hd.answer _ _ _ hans]
    exact fun shares hm => hd.nonneg s.rest addr shares (List.mem_of_mem_take hm)
  have hstake : stake = k.countedStake delegations s.rest vote.voter := by
    have hstep : ∀ shares ∈ answer, ∀ total total' : ℤ,
        (do MathInt.add total (← shares.truncateInt) : Result ℤ) = .ok total' →
        total' = total + shares.i / LegacyDec.precisionReuse := by
      intro shares hm total total' hadd
      obtain ⟨x, hx, hadd⟩ := Result.bind_eq_ok.mp hadd
      rw [MathInt.of_add hadd, LegacyDec.of_truncateInt_nonneg hx (hnonneg shares hm)]
    have hsum : stake = 0 + (answer.map fun shares => shares.i / LegacyDec.precisionReuse).sum :=
      Fold.foldlM_sum hstep hs
    rw [hsum, zero_add, countedStake, ha, Option.elim_some, sharesOf, ← hd.answer _ _ _ hans]
  have hpos : 0 ≤ stake := by
    rw [hstake]
    exact countedStake_nonneg hd
  split_ifs at h with hz
  · cases h
    rw [← hstake, hz, Vote.power_zero, add_zero]
  · have hstep : ∀ wo ∈ vote.options, ∀ tally tally' : TallyResult,
        (do
          let votePower ← (← (LegacyDec.ofInt stake).mul wo.weight).truncateInt
          tally.count votePower wo.option : Result TallyResult) = .ok tally' →
        tally'.countOf option = tally.countOf option + if wo.option = option then
          stake * wo.weight.i / LegacyDec.precisionReuse else 0 := by
      intro wo hm tally tally' hc
      simp only [Result.bind_eq_ok] at hc
      obtain ⟨product, hmul, votePower, ht, hc⟩ := hc
      have hprod := LegacyDec.of_ofInt_mul hmul
      have hpower : votePower = stake * wo.weight.i / LegacyDec.precisionReuse := by
        rw [LegacyDec.of_truncateInt_nonneg ht (hprod ▸ mul_nonneg hpos (hw wo hm)), hprod]
      rw [TallyResult.of_count ho hc, hpower]
    have hsum := Fold.foldlM_sum hstep h
    rw [hsum, ← hstake, Vote.power]
    congr 1
    exact (sum_filter_map vote.options).symm

-- The voters of the votes that were counted are accounts.
theorem tallyVote_voter (hk : k.stakingKeeper = some stakingKeeper)
    (h : k.tallyVote s tally vote = .ok tally') :
    ∃ addr, k.accAddressFromBech32 vote.voter = some addr := by
  simp only [tallyVote, hk, Result.bind_eq_ok, orFail_eq_ok] at h
  obtain ⟨addr, ha, _⟩ := h
  exact ⟨addr, ha⟩

end Keeper

section Counting

variable {votes : List Vote} {step : TallyResult → Vote → Result TallyResult}

theorem foldlM_mem (h : votes.foldlM step tally = .ok tally') (hm : vote ∈ votes) :
    ∃ tally tally', step tally vote = .ok tally' := by
  induction votes generalizing tally with
  | nil => cases hm
  | cons vote' votes ih =>
    obtain ⟨tally₁, h₁, h⟩ := Fold.foldlM_cons_eq_ok.mp h
    rcases List.mem_cons.mp hm with rfl | hm
    · exact ⟨tally, tally₁, h₁⟩
    · exact ih h hm

end Counting

theorem mem_getVotes_iff : vote ∈ s.getVotes id ↔
    ∃ voter, s.votes.get (join id voter) = some vote := by
  simp only [State.getVotes, List.mem_map, List.mem_filter, decide_eq_true_eq]
  constructor
  · rintro ⟨⟨key, vote⟩, ⟨he, rfl⟩, rfl⟩
    exact ⟨key.2, KVStore.mem_entries_iff.mp he⟩
  · rintro ⟨voter, hg⟩
    exact ⟨(join id voter, vote), ⟨KVStore.mem_entries_iff.mpr hg, rfl⟩, rfl⟩

theorem Ballots.nodup (h : Ballots k s.votes) : (s.getVotes id).Nodup := by
  refine List.Nodup.of_map (fun vote => join vote.proposalId vote.voter) ?_
  have hkeys : (s.getVotes id).map (fun vote => join vote.proposalId vote.voter) =
      (s.votes.entries.filter (·.1.1 = id)).map (·.1) := by
    rw [State.getVotes, List.map_map]
    refine List.map_congr_left fun e he => ?_
    have hg : s.votes.get (join e.1.1 e.1.2) = some e.2 :=
      KVStore.mem_entries_iff.mp (List.mem_of_mem_filter he)
    obtain ⟨hi, hv⟩ := h.keyed hg
    simp only [Function.comp, hi, hv]
    rfl
  rw [hkeys, List.Nodup, List.pairwise_map]
  exact (s.votes.sorted.filter _).imp fun hlt => hlt.ne

theorem Ballots.counted (hb : Ballots k s.votes) (hkept : Kept s.votes past)
    (hk : k.stakingKeeper = some stakingKeeper) (hd : stakingKeeper.Delegates delegations)
    (h : k.tallyVotes s id = .ok (s', tally)) : Counted k delegations s id past tally := by
  simp only [Keeper.tallyVotes, Result.bind_eq_ok, orFail_eq_ok, Result.pure_eq_ok,
    Prod.mk.injEq] at h
  obtain ⟨_, _, tally, hf, _, rfl⟩ := h
  have hstored : ∀ {vote}, vote ∈ s.getVotes id →
      s.votes.get (join id vote.voter) = some vote := by
    intro vote hm
    obtain ⟨voter, hg⟩ := mem_getVotes_iff.mp hm
    rw [(hb.keyed hg).2]
    exact hg
  refine ⟨?votes, hb.nodup, ?account, ?total, ?stake⟩
  case votes =>
    intro vote
    rw [← hkept]
    exact ⟨hstored, fun hg => mem_getVotes_iff.mpr ⟨_, hg⟩⟩
  case account =>
    intro vote hm vote' hm' he
    have hv := hb.account (hstored hm) (hstored hm') he
    have hg := hstored hm
    rw [hv, hstored hm'] at hg
    cases hg
    rfl
  case total =>
    intro option ho
    have hstep : ∀ vote ∈ s.getVotes id, ∀ tally tally' : TallyResult,
        k.tallyVote s tally vote = .ok tally' → tally'.countOf option = tally.countOf option +
          vote.power (k.countedStake delegations s.rest vote.voter) option := by
      intro vote hm tally tally' ht
      have hw := (of_checkWeights (hb.weights (hstored hm))).1
      exact Keeper.tallyVote_power hk hd hw ho ht
    have hsum := Fold.foldlM_sum hstep hf
    have hzero : ({} : TallyResult).countOf option = 0 := by
      rcases ho with rfl | rfl | rfl | rfl <;> rfl
    rw [hsum, hzero, zero_add]
  case stake =>
    intro vote hm
    obtain ⟨_, _, ht⟩ := foldlM_mem hf hm
    obtain ⟨addr, ha⟩ := Keeper.tallyVote_voter hk ht
    have hknown := hb.known (hstored hm)
    have hw := hb.weights (hstored hm)
    have htake := sharesOf_take_le (hd.nonneg s.rest addr) 200
    have hpos : 0 ≤ k.countedStake delegations s.rest vote.voter := Keeper.countedStake_nonneg hd
    rw [Keeper.countedStake_of ha] at hpos ⊢
    refine ⟨addr, ha, (Vote.totalPower_le hknown hw).trans htake, ?_, ?_⟩
    · intro hlen
      rw [List.take_of_length_le hlen]
      exact Vote.lt_totalPower_add_length hknown hw
    · intro hz option
      have hzero : sharesOf ((delegations s.rest addr).take 200) = 0 := by omega
      rw [hzero, Vote.power_zero]

-- In every run whose votes are canonical the tally counts each account once, at every moment.
theorem tally_counts_once (k : Keeper μ σ) (hk : k.stakingKeeper = some stakingKeeper)
    (hd : stakingKeeper.Delegates delegations) {p : State σ × List (Report σ)}
    (h : (journal k).Run (k.Done k.Canonical) p) :
    ∀ later m past id s' tally, pastOf p.2 = later ++ m :: past →
      k.tallyVotes m.state id = .ok (s', tally) →
      Counted k delegations m.state id past tally := by
  intro later m past id s' tally he ht
  obtain ⟨hkept, hb⟩ := ((ballots_seen k).holds h).2 later m past he
  exact hb.counted hkept hk hd ht

instance knownDecidable (option : VoteOption) : Decidable option.Known :=
  inferInstanceAs (Decidable (_ ∨ _))

instance canonicalDecidable (k : Keeper μ σ) (ctx : Context) (s : State σ) (c : Call σ) :
    Decidable (k.Canonical ctx s c) :=
  decidable_of_iff (∀ vote ∈ c.vote, (∀ wo ∈ vote.options, wo.option.Known) ∧
      ∀ e ∈ s.votes.entries, e.1.1 = vote.proposalId →
        k.accAddressFromBech32 e.1.2 = k.accAddressFromBech32 vote.voter → e.1.2 = vote.voter) <| by
    refine forall_congr' fun vote => forall_congr' fun _ => and_congr_right fun _ => ?_
    constructor
    · intro h voter stored hg
      exact h (join vote.proposalId voter, stored) (KVStore.mem_entries_iff.mpr hg) rfl
    · rintro h ⟨key, stored⟩ hm hid
      have hg : s.votes.get (join vote.proposalId key.2) = some stored := by
        rw [← hid]
        exact KVStore.mem_entries_iff.mp hm
      exact h key.2 stored hg

namespace Sample

-- The address of the voter may be written in capital letters.
def electorate (delegations : List LegacyDec) : Keeper MsgUpdateParams Unit :=
  { council with
    accAddressFromBech32 := fun address =>
      if address = "VOTER" then some Sample.voter else council.accAddressFromBech32 address
    stakingKeeper := some {
      getDelegatorDelegations := fun _ addr =>
        .ok (if addr = Sample.voter then delegations.take 200 else [])
      totalBondedTokens       := fun _ => .ok 100
      validatorTokens         := fun _ _ => .error (.error "validator does not exist")
      slash                   := fun bank rest _ _ _ _ => .ok (bank, rest)
    } }

def cast (address : String) (option : VoteOption) : Call Unit :=
  .own <| .vote ⟨1, address, option, ""⟩

def voting (votes : List (Call Unit)) : Block Unit :=
  ⟨block 0, [propose 1] :: [pay 1] :: votes.map ([·])⟩

-- A proposal is voted on, and the votes are counted.
def poll (delegations : List LegacyDec) (votes : List (Call Unit)) :
    State Unit × List (Report Unit) :=
  [voting votes, ⟨block 40, []⟩].foldl (electorate delegations).nextBlock (genesis, [])

def result (p : State Unit × List (Report Unit)) : Option TallyResult :=
  (p.1.proposals.get 1).map (·.finalTallyResult)

theorem poll_run {delegations : List LegacyDec} {votes : List (Call Unit)}
    {guard : State Unit × List (Report Unit) → Block Unit → Prop}
    (hg : guard (genesis, []) (voting votes))
    (hg' : guard ((electorate delegations).nextBlock (genesis, []) (voting votes)) ⟨block 40, []⟩)
    (h : (electorate delegations).goesThrough genesis (voting votes) = true)
    (h' : (electorate delegations).goesThrough
      ((electorate delegations).nextBlock (genesis, []) (voting votes)).1 ⟨block 40, []⟩ = true) :
    (journal (electorate delegations)).Run guard (poll delegations votes) := by
  have h₀ : (journal (electorate delegations)).Run guard (genesis, []) :=
    .traced_init ⟨genesis_empty, rfl⟩
  exact Keeper.nextBlock_run (Keeper.nextBlock_run h₀ hg h) hg' h'

end Sample

-- One account is counted twice under two spellings of its address, a vote for an option that is not
-- known counts for nothing, and so do the delegations beyond the first 200.
theorem polls_miscounted :
    ((journal (Sample.electorate [.ofInt 100])).Reachable
        (Sample.poll [.ofInt 100] [Sample.cast "voter" .yes, Sample.cast "VOTER" .no]) ∧
      Sample.result (Sample.poll [.ofInt 100] [Sample.cast "voter" .yes, Sample.cast "VOTER" .no]) =
        some { yesCount := 100, noCount := 100 } ∧
      sharesOf [.ofInt 100] = 100) ∧
    ((journal (Sample.electorate [.ofInt 100])).Reachable
        (Sample.poll [.ofInt 100] [Sample.cast "voter" (.unknown 5)]) ∧
      Sample.result (Sample.poll [.ofInt 100] [Sample.cast "voter" (.unknown 5)]) = some {}) ∧
    ((journal (Sample.electorate (List.replicate 201 (.ofInt 1)))).Reachable
        (Sample.poll (List.replicate 201 (.ofInt 1)) [Sample.cast "voter" .yes]) ∧
      Sample.result (Sample.poll (List.replicate 201 (.ofInt 1)) [Sample.cast "voter" .yes]) =
        some { yesCount := 200 } ∧
      sharesOf (List.replicate 201 (.ofInt 1)) = 201) := by
  refine ⟨⟨?_, ?_, ?_⟩, ⟨?_, ?_⟩, ⟨?_, ?_, ?_⟩⟩
  · exact Sample.poll_run trivial trivial (by decide +kernel) (by decide +kernel)
  · decide +kernel
  · decide +kernel
  · exact Sample.poll_run trivial trivial (by decide +kernel) (by decide +kernel)
  · decide +kernel
  · exact Sample.poll_run trivial trivial (by decide +kernel) (by decide +kernel)
  · decide +kernel
  · decide +kernel

theorem electorate_delegates (delegations : List LegacyDec)
    (h : ∀ shares ∈ delegations, 0 ≤ shares.i) :
    ∃ stakingKeeper, (Sample.electorate delegations).stakingKeeper = some stakingKeeper ∧
      stakingKeeper.Delegates fun _ addr => if addr = Sample.voter then delegations else [] := by
  refine ⟨_, rfl, ?_, ?_⟩
  · rintro rest addr answer ha
    cases ha
    split_ifs <;> rfl
  · intro rest addr shares hm
    split_ifs at hm
    · exact h shares hm
    · cases hm

-- The vote of a voter with a stake of 100.
theorem sample_tally_counts_once : ∃ later m past s' tally,
    pastOf (Sample.poll [.ofInt 100] [Sample.cast "voter" .yes]).2 = later ++ m :: past ∧
    (Sample.electorate [.ofInt 100]).tallyVotes m.state 1 = .ok (s', tally) ∧
    tally = { yesCount := 100 } ∧
    Counted (Sample.electorate [.ofInt 100])
      (fun _ addr => if addr = Sample.voter then [.ofInt 100] else []) m.state 1 past tally := by
  have hrun : (journal (Sample.electorate [.ofInt 100])).Run
      ((Sample.electorate [.ofInt 100]).Done (Sample.electorate [.ofInt 100]).Canonical)
      (Sample.poll [.ofInt 100] [Sample.cast "voter" .yes]) :=
    Sample.poll_run (by unfold Keeper.Done; decide +kernel) (by unfold Keeper.Done; decide +kernel)
      (by decide +kernel) (by decide +kernel)
  obtain ⟨stakingKeeper, hk, hd⟩ := electorate_delegates [.ofInt 100] (by decide +kernel)
  have htally : (pastOf (Sample.poll [.ofInt 100] [Sample.cast "voter" .yes]).2).head?.map
      (fun m => ((Sample.electorate [.ofInt 100]).tallyVotes m.state 1).map (·.2)) =
        some (.ok { yesCount := 100 }) := by
    decide +kernel
  cases he : pastOf (Sample.poll [.ofInt 100] [Sample.cast "voter" .yes]).2 with
  | nil => simp [he] at htally
  | cons m past =>
    cases ht : (Sample.electorate [.ofInt 100]).tallyVotes m.state 1 with
    | error e => simp [he, ht, Except.map] at htally
    | ok result =>
      simp only [he, List.head?_cons, Option.map_some, ht, Except.map, Option.some.injEq,
        Except.ok.injEq] at htally
      exact ⟨[], m, past, result.1, result.2, rfl, ht, htally,
        tally_counts_once (Sample.electorate [.ofInt 100]) hk hd hrun [] m past 1 result.1 result.2
          he ht⟩

end Governance
