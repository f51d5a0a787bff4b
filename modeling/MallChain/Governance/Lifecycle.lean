import MallChain.Governance.Journal

namespace Governance

open Sdk

variable {μ σ : Type} {k : Keeper μ σ} {ctx : Context} {s s₀ s₁ s' : State σ} {c : Call σ}
variable {proposal proposal' : Proposal} {id : UInt64} {voter : String} {vote : Vote}
variable {m : Moment σ} {past : List (Moment σ)} {b : Block σ} {status : ProposalStatus}

def State.statusOf (s : State σ) (id : UInt64) : Option ProposalStatus :=
  (s.proposals.get id).map (·.status)

-- How the status of a proposal may change from the end of one block to the end of the next.
inductive Moves : Option ProposalStatus → Option ProposalStatus → Prop
  | same {status : Option ProposalStatus} : Moves status status
  | submitted : Moves none (some .depositPeriod)
  | submittedPaid : Moves none (some .votingPeriod)
  | started : Moves (some .depositPeriod) (some .votingPeriod)
  | failed : Moves (some .depositPeriod) (some .failed)
  | passed : Moves (some .votingPeriod) (some .passed)
  | rejected : Moves (some .votingPeriod) (some .rejected)

-- How far a proposal has come: to its deposit period, its voting period, or its end.
def stage : Option ProposalStatus → ℕ
  | none => 0
  | some .depositPeriod => 1
  | some .votingPeriod => 2
  | some _ => 3

def State.stageOf (s : State σ) (id : UInt64) : ℕ :=
  stage (s.statusOf id)

-- The votes of the proposal are counted, because its voting period is over.
def Moment.Tallies (id : UInt64) : Moment σ → Prop
  | called .. => False
  | swept ctx _ proposal => proposal.id = id ∧ proposal.status = .votingPeriod ∧
    proposal.votingEndTime < ctx.blockTime

-- The lifecycle of the proposals, with all that has happened, the latest first.
structure Orderly (reports : List (Report σ)) : Prop where
  moves     : ∀ r ∈ reports, ∀ id, Moves (r.before.statusOf id) (r.after.statusOf id)
  counted   : ∀ later m past id, pastOf reports = later ++ m :: past → m.Tallies id →
    (∀ voter vote, lastVote id voter past = some vote → vote ∈ m.state.getVotes id) ∧
      ∀ m' ∈ later, ∀ vote, m'.vote = some vote → vote.proposalId ≠ id
  voted     : ∀ later ctx s c past vote, pastOf reports = later ++ .called ctx s c :: past →
    c.vote = some vote →
    (∃ proposal, s.proposals.get vote.proposalId = some proposal ∧
      proposal.status = .votingPeriod ∧ ctx.blockTime ≤ proposal.votingEndTime) ∧
    ∀ m ∈ past, m.state.stageOf vote.proposalId ≤ 2
  deposited : ∀ later ctx s c past id, pastOf reports = later ++ .called ctx s c :: past →
    c.depositsOn s = some id →
    (∀ proposal, s.proposals.get id = some proposal → proposal.status = .depositPeriod ∧
      ctx.blockTime ≤ proposal.depositEndTime) ∧
    ∀ m ∈ past, m.state.stageOf id ≤ 1
  fresh     : ∀ later ctx s proposal past, pastOf reports = later ++ .swept ctx s proposal :: past →
    proposal.Due ctx → s.proposals.get proposal.id = some proposal

-- The deposit that completes the minimal deposit does not find a negative voting period.
def State.Timely (s : State σ) (total amount : Coins) : Prop :=
  ∀ params total', s.params = some params → total.add amount = .ok total' →
    total'.isAllGTE params.minDeposit = true → 0 ≤ params.votingPeriod

-- A proposal is submitted under an id that is not in use, and its voting period is not over when it
-- starts.
def Regular (_ : Context) (s : State σ) : Call σ → Prop
  | .own (.submitProposal msg) => s.proposals.get s.proposalID = none ∧
    (msg.initialDeposit.isZero = false → s.Timely msg.initialDeposit msg.initialDeposit)
  | .own (.deposit msg) => ∀ proposal, s.proposals.get msg.proposalId = some proposal →
    s.Timely proposal.totalDeposit msg.amount
  | _ => True

-- What a call may do to the proposals: one that is not stored or still takes deposits is written,
-- and it is not due.
inductive Opens (ctx : Context) (s s' : State σ) : Prop
  | kept : s'.proposals = s.proposals → Opens ctx s s'
  | written {id : UInt64} {proposal : Proposal} :
    s'.proposals = s.proposals.set id proposal → proposal.id = id → ¬proposal.Due ctx →
    proposal.status = .depositPeriod ∨ proposal.status = .votingPeriod →
    (∀ stored, s.proposals.get id = some stored →
      stored.status = .depositPeriod ∧ ¬stored.Due ctx) → Opens ctx s s'

theorem stage_le_three {status : Option ProposalStatus} : stage status ≤ 3 := by
  rcases status with _ | status
  · simp [stage]
  · cases status <;> simp [stage]

namespace State

theorem statusOf_of_get (h : s.proposals.get id = some proposal) :
    s.statusOf id = some proposal.status := by
  rw [statusOf, h, Option.map_some]

theorem statusOf_set {id' : UInt64} (h : s'.proposals = s.proposals.set id proposal) :
    s'.statusOf id' = if id' = id then some proposal.status else s.statusOf id' := by
  rw [statusOf, h, KVStore.get_set]
  split_ifs <;> rfl

theorem statusOf_congr (h : s'.proposals = s.proposals) : s'.statusOf id = s.statusOf id := by
  rw [statusOf, h, statusOf]

theorem stageOf_le : s.stageOf id ≤ 3 :=
  stage_le_three

-- A proposal that is in its deposit or its voting period has not come to its end.
theorem stageOf_voting (h : s.proposals.get id = some proposal)
    (hs : proposal.status = .votingPeriod) : s.stageOf id = 2 := by
  rw [stageOf, statusOf_of_get h, hs, stage]

theorem stageOf_deposit (h : s.proposals.get id = some proposal)
    (hs : proposal.status = .depositPeriod) : s.stageOf id = 1 := by
  rw [stageOf, statusOf_of_get h, hs, stage]

theorem stageOf_none (h : s.proposals.get id = none) : s.stageOf id = 0 := by
  rw [stageOf, statusOf, h, Option.map_none, stage]

theorem mem_getVotes (h : s.votes.get (join id voter) = some vote) : vote ∈ s.getVotes id := by
  simp only [getVotes, List.mem_map, List.mem_filter, decide_eq_true_eq]
  exact ⟨(join id voter, vote), ⟨KVStore.mem_entries_iff.mpr h, rfl⟩, rfl⟩

end State

namespace Opens

theorem stage_le (h : Opens ctx s s') (id : UInt64) : s.stageOf id ≤ s'.stageOf id := by
  cases h with
  | kept hp => rw [State.stageOf, State.stageOf, State.statusOf_congr hp]
  | written hp _ _ hs hold =>
    rename_i id' proposal
    rw [State.stageOf, State.stageOf, State.statusOf_set hp]
    split_ifs with hid
    · subst hid
      -- The proposal was not stored, or in its deposit period.
      have hone : stage (s.statusOf id) ≤ 1 := by
        cases hg : s.proposals.get id with
        | none => exact (State.stageOf_none hg).le.trans (by omega)
        | some stored => exact (State.stageOf_deposit hg (hold stored hg).1).le
      rcases hs with hs | hs <;> rw [hs]
      · exact hone
      · exact hone.trans (by decide)
    · exact le_rfl

theorem keyed (h : Opens ctx s s')
    (hk : ∀ {id p}, s.proposals.get id = some p → p.id = id) {id : UInt64} {p : Proposal}
    (hg : s'.proposals.get id = some p) : p.id = id := by
  cases h with
  | kept hp => exact hk (hp ▸ hg)
  | written hp hi _ _ _ =>
    rw [hp, KVStore.get_set] at hg
    split_ifs at hg with hid
    · cases hg
      exact hi.trans hid.symm
    · exact hk hg

theorem moves (h : Opens ctx s s') {status : Option ProposalStatus}
    (hm : Moves status (s.statusOf id)) : Moves status (s'.statusOf id) := by
  cases h with
  | kept hp => exact (State.statusOf_congr hp).symm ▸ hm
  | written hp _ _ hs hold =>
    rw [State.statusOf_set hp]
    split_ifs with hid
    · subst hid
      have hold' : s.statusOf id = none ∨ s.statusOf id = some .depositPeriod := by
        cases hg : s.proposals.get id with
        | none => exact .inl (by rw [State.statusOf, hg, Option.map_none])
        | some stored => exact .inr (by rw [State.statusOf_of_get hg, (hold stored hg).1])
      rcases hold' with ho | ho <;> rw [ho] at hm <;> cases hm <;> rcases hs with hs | hs <;>
        rw [hs] <;> constructor
    · exact hm

-- A proposal that is due is left to the sweep.
theorem due (h : Opens ctx s s') (hd : proposal.Due ctx)
    (hg : s.proposals.get id = some proposal) : s'.proposals.get id = some proposal := by
  cases h with
  | kept hp => exact hp ▸ hg
  | written hp _ _ _ hold =>
    rw [hp, KVStore.get_set_ne, hg]
    rintro rfl
    exact (hold proposal hg).2 hd

theorem of_due (h : Opens ctx s s') (hd : proposal.Due ctx)
    (hg : s'.proposals.get id = some proposal) : s.proposals.get id = some proposal := by
  cases h with
  | kept hp => exact hp ▸ hg
  | written hp _ hn _ _ =>
    rw [hp, KVStore.get_set] at hg
    split_ifs at hg with hid
    · cases hg
      exact absurd hd hn
    · exact hg

end Opens

-- The voting period that starts in time is not over.
theorem startVoting_not_due {params : Params} (h : 0 ≤ params.votingPeriod) :
    ¬(proposal.startVoting ctx params).Due ctx := by
  rintro (⟨hs, _⟩ | ⟨_, ht⟩)
  · cases hs
  · simp only [Proposal.startVoting] at ht
    omega

theorem getDepositPeriod_pos (params : Params) : 0 < params.getDepositPeriod := by
  simp only [Params.getDepositPeriod, defaultDepositPeriod]
  split_ifs <;> omega

-- A deposit writes a proposal that is not due.
theorem deposit_not_due {params : Params} {total : Coins} (hs : proposal.status = .depositPeriod)
    (ht : ctx.blockTime ≤ proposal.depositEndTime)
    (hp : total.isAllGTE params.minDeposit = true → 0 ≤ params.votingPeriod)
    (he : proposal' = if total.isAllGTE params.minDeposit then
      { proposal with totalDeposit := total }.startVoting ctx params
      else { proposal with totalDeposit := total }) :
    proposal'.id = proposal.id ∧ ¬proposal'.Due ctx ∧
      (proposal'.status = .depositPeriod ∨ proposal'.status = .votingPeriod) := by
  split_ifs at he with hg
  · subst he
    exact ⟨rfl, startVoting_not_due (hp hg), .inr rfl⟩
  · subst he
    refine ⟨rfl, ?_, .inl hs⟩
    rintro (⟨_, hd⟩ | ⟨hv, _⟩)
    · exact absurd ht (not_le.mpr hd)
    · cases hs.symm.trans hv

theorem Changed.opens (h : Changed ctx s s' c)
    (hk : ∀ {id p}, s.proposals.get id = some p → p.id = id) (hr : Regular ctx s c) :
    Opens ctx s s' := by
  cases h with
  | voted _ _ _ _ _ _ hp _ => exact .kept hp
  | deposited hg hs ht hm htot he hp _ =>
    obtain ⟨hi, hn, hst⟩ := deposit_not_due hs ht (fun hge => hr _ hg _ _ hm htot hge) he
    refine .written hp hi hn hst ?_
    intro stored hg'
    rw [hk hg] at hg'
    cases hg.symm.trans hg'
    refine ⟨hs, ?_⟩
    rintro (⟨_, hd⟩ | ⟨hv, _⟩)
    · exact absurd ht (not_le.mpr hd)
    · cases hs.symm.trans hv
  | submitted hm hi hs ht hor hp hv =>
    rename_i msg proposal proposal' params
    have hin : ctx.blockTime ≤ proposal.depositEndTime := by
      have hpos := getDepositPeriod_pos params
      omega
    have hnew : proposal'.id = proposal.id ∧ ¬proposal'.Due ctx ∧
        (proposal'.status = .depositPeriod ∨ proposal'.status = .votingPeriod) := by
      rcases hor with ⟨_, rfl⟩ | ⟨total, hz, htot, he⟩
      · refine ⟨rfl, ?_, .inl hs⟩
        rintro (⟨_, hd⟩ | ⟨hv, _⟩)
        · exact absurd hin (not_le.mpr hd)
        · cases hs.symm.trans hv
      · exact deposit_not_due hs hin (fun hge => hr.2 hz _ _ hm htot hge) he
    refine .written hp (hnew.1.trans hi) hnew.2.1 hnew.2.2 ?_
    intro stored hg
    cases hr.1.symm.trans hg
  | kept _ _ hp _ => exact .kept hp

-- What holds at any time of a run. The messages of a busy proposal are being executed.
structure Course (busy : State σ → UInt64 → Prop) (s : State σ) (past : List (Moment σ)) : Prop where
  keyed     : ∀ {id p}, s.proposals.get id = some p → p.id = id
  kept      : Kept s.votes past
  seen      : ∀ m ∈ past, ∀ id, m.state.stageOf id ≤ s.stageOf id
  closed    : ∀ m ∈ past, ∀ id, m.Tallies id → s.stageOf id = 3 ∨ busy s id
  counted   : ∀ later m earlier id voter vote, past = later ++ m :: earlier → m.Tallies id →
    lastVote id voter earlier = some vote → vote ∈ m.state.getVotes id
  voted     : ∀ later ctx s c earlier vote, past = later ++ .called ctx s c :: earlier →
    c.vote = some vote →
    (∃ proposal, s.proposals.get vote.proposalId = some proposal ∧
      proposal.status = .votingPeriod ∧ ctx.blockTime ≤ proposal.votingEndTime) ∧
    ∀ m ∈ earlier, m.state.stageOf vote.proposalId ≤ 2 ∧ ¬m.Tallies vote.proposalId
  deposited : ∀ later ctx s c earlier id, past = later ++ .called ctx s c :: earlier →
    c.depositsOn s = some id →
    (∀ proposal, s.proposals.get id = some proposal → proposal.status = .depositPeriod ∧
      ctx.blockTime ≤ proposal.depositEndTime) ∧
    ∀ m ∈ earlier, m.state.stageOf id ≤ 1
  fresh     : ∀ later ctx s proposal earlier, past = later ++ .swept ctx s proposal :: earlier →
    proposal.Due ctx → s.proposals.get proposal.id = some proposal

-- What the sweep relies on since the end of the last block: the proposals that are left to it and
-- are due are stored as they were read.
structure Within (ctx : Context) (s₀ : State σ) (left : List Proposal) (s : State σ) : Prop where
  moves : ∀ id, Moves (s₀.statusOf id) (s.statusOf id)
  fresh : ∀ proposal ∈ left, proposal.Due ctx →
    s.proposals.get proposal.id = some proposal ∧ s₀.statusOf proposal.id = some proposal.status

theorem Within.call {left : List Proposal} (h : Within ctx s₀ left s) (ho : Opens ctx s s') :
    Within ctx s₀ left s' where
  moves id := ho.moves (h.moves id)
  fresh proposal hm hd := ⟨ho.due hd (h.fresh proposal hm hd).1, (h.fresh proposal hm hd).2⟩

-- The messages of the proposal are executed after its voting period.
def Busy (ctx : Context) (id : UInt64) (s : State σ) (id' : UInt64) : Prop :=
  id' = id ∧ ∃ proposal, s.proposals.get id = some proposal ∧ proposal.status = .votingPeriod ∧
    proposal.votingEndTime < ctx.blockTime

def Idle (_ : State σ) (_ : UInt64) : Prop :=
  False

-- Nobody can vote on a proposal that is busy, and calls leave it so.
structure Shut (ctx : Context) (busy : State σ → UInt64 → Prop) : Prop where
  closed : ∀ {s id proposal}, busy s id → s.proposals.get id = some proposal →
    proposal.votingEndTime < ctx.blockTime
  stays  : ∀ {s s' id}, busy s id → Opens ctx s s' → busy s' id

theorem Shut.idle : Shut ctx (Idle (σ := σ)) :=
  ⟨fun hb => hb.elim, fun hb => hb.elim⟩

theorem Shut.busy : Shut ctx (Busy (σ := σ) ctx id) where
  closed := by
    rintro s id' proposal ⟨rfl, stored, hg, _, ht⟩ hg'
    cases hg.symm.trans hg'
    exact ht
  stays := by
    rintro s s' id' ⟨rfl, stored, hg, hs, ht⟩ ho
    exact ⟨rfl, stored, ho.due (.inr ⟨hs, ht⟩) hg, hs, ht⟩

namespace Course

variable {busy : State σ → UInt64 → Prop}

theorem call (h : Course busy s past) (hb : Shut ctx busy) (hc : k.call ctx s c = .ok s')
    (hr : Regular ctx s c) : Course busy s' (.called ctx s c :: past) := by
  have hch := Keeper.call_changed hc
  have ho : Opens ctx s s' := hch.opens h.keyed hr
  refine ⟨ho.keyed h.keyed, h.kept.call hc, ?seen, ?closed, ?counted, ?voted, ?deposited, ?fresh⟩
  case seen =>
    intro m hm id
    rcases List.mem_cons.mp hm with rfl | hm
    · exact ho.stage_le id
    · exact (h.seen m hm id).trans (ho.stage_le id)
  case closed =>
    intro m hm id ht
    rcases List.mem_cons.mp hm with rfl | hm
    · exact ht.elim
    · rcases h.closed m hm id ht with h3 | hbusy
      · exact .inl (le_antisymm State.stageOf_le (h3 ▸ ho.stage_le id))
      · exact .inr (hb.stays hbusy ho)
  case counted =>
    intro later m earlier id voter vote he ht hl
    rcases List.cons_eq_append_iff.mp he with ⟨_, hm⟩ | ⟨later', _, he⟩
    · cases hm
      exact ht.elim
    · exact h.counted later' m earlier id voter vote he ht hl
  case voted =>
    intro later ctx' s₂ c' earlier vote he hv
    rcases List.cons_eq_append_iff.mp he with ⟨_, hm⟩ | ⟨later', _, he⟩
    · cases hm
      cases hch with
      | voted hv' _ hg hs ht _ _ _ =>
        cases hv.symm.trans hv'
        refine ⟨⟨_, hg, hs, ht⟩, fun m hm => ⟨?_, fun htal => ?_⟩⟩
        · exact (h.seen m hm _).trans (State.stageOf_voting hg hs).le
        · rcases h.closed m hm _ htal with h3 | hbusy
          · rw [State.stageOf_voting hg hs] at h3
            cases h3
          · exact absurd ht (not_le.mpr (hb.closed hbusy hg))
      | deposited => cases hv
      | submitted => cases hv
      | kept hv' => cases hv.symm.trans hv'
    · exact h.voted later' ctx' s₂ c' earlier vote he hv
  case deposited =>
    intro later ctx' s₂ c' earlier id he hd
    rcases List.cons_eq_append_iff.mp he with ⟨_, hm⟩ | ⟨later', _, he⟩
    · cases hm
      cases hch with
      | voted _ hd' => cases hd.symm.trans hd'
      | deposited hg hs ht =>
        cases hd
        refine ⟨fun p hp => ?_, fun m hm => ?_⟩
        · cases hg.symm.trans hp
          exact ⟨hs, ht⟩
        · exact (h.seen m hm _).trans (State.stageOf_deposit hg hs).le
      | submitted =>
        simp only [Call.depositsOn] at hd
        split_ifs at hd
        cases hd
        refine ⟨fun p hp => ?_, fun m hm => ?_⟩
        · cases hr.1.symm.trans hp
        · exact (h.seen m hm _).trans ((State.stageOf_none hr.1).le.trans (by omega))
      | kept _ hd' => cases hd.symm.trans hd'
    · exact h.deposited later' ctx' s₂ c' earlier id he hd
  case fresh =>
    intro later ctx' s₂ p earlier he hd
    rcases List.cons_eq_append_iff.mp he with ⟨_, hm⟩ | ⟨later', _, he⟩
    · cases hm
    · exact h.fresh later' ctx' s₂ p earlier he hd

-- The sweep comes to a proposal, and writes at most this one.
theorem swept (h : Course Idle s past) (hk : ∀ {id p}, s'.proposals.get id = some p → p.id = id)
    (hv : s'.votes = s.votes) (hst : ∀ id, s.stageOf id ≤ s'.stageOf id)
    (hcl : ∀ id, (Moment.swept ctx s proposal).Tallies id → s'.stageOf id = 3 ∨ busy s' id)
    (hf : proposal.Due ctx → s.proposals.get proposal.id = some proposal) :
    Course busy s' (.swept ctx s proposal :: past) := by
  refine ⟨hk, hv ▸ h.kept.swept, ?seen, ?closed, ?counted, ?voted, ?deposited, ?fresh⟩
  case seen =>
    intro m hm id
    rcases List.mem_cons.mp hm with rfl | hm
    · exact hst id
    · exact (h.seen m hm id).trans (hst id)
  case closed =>
    intro m hm id ht
    rcases List.mem_cons.mp hm with rfl | hm
    · exact hcl id ht
    · rcases h.closed m hm id ht with h3 | hbusy
      · exact .inl (le_antisymm State.stageOf_le (h3 ▸ hst id))
      · exact hbusy.elim
  case counted =>
    intro later m earlier id voter vote he ht hl
    rcases List.cons_eq_append_iff.mp he with ⟨_, hm⟩ | ⟨later', _, he⟩
    · cases hm
      exact State.mem_getVotes ((h.kept id voter).trans hl)
    · exact h.counted later' m earlier id voter vote he ht hl
  case voted =>
    intro later ctx' s₂ c earlier vote he hv
    rcases List.cons_eq_append_iff.mp he with ⟨_, hm⟩ | ⟨later', _, he⟩
    · cases hm
    · exact h.voted later' ctx' s₂ c earlier vote he hv
  case deposited =>
    intro later ctx' s₂ c earlier id he hd
    rcases List.cons_eq_append_iff.mp he with ⟨_, hm⟩ | ⟨later', _, he⟩
    · cases hm
    · exact h.deposited later' ctx' s₂ c earlier id he hd
  case fresh =>
    intro later ctx' s₂ p earlier he hd
    rcases List.cons_eq_append_iff.mp he with ⟨_, hm⟩ | ⟨later', _, he⟩
    · cases hm
      exact hf hd
    · exact h.fresh later' ctx' s₂ p earlier he hd

-- The proposal that is busy comes to its end.
theorem settle (h : Course (Busy ctx id) s past)
    (hk : ∀ {id p}, s'.proposals.get id = some p → p.id = id) (hv : s'.votes = s.votes)
    (hst : ∀ id, s.stageOf id ≤ s'.stageOf id) (h3 : s'.stageOf id = 3) : Course Idle s' past where
  keyed     := hk
  kept      := hv ▸ h.kept
  seen m hm id := (h.seen m hm id).trans (hst id)
  closed m hm id' ht := by
    rcases h.closed m hm id' ht with hc | ⟨rfl, _⟩
    · exact .inl (le_antisymm State.stageOf_le (hc ▸ hst id'))
    · exact .inl h3
  counted   := h.counted
  voted     := h.voted
  deposited := h.deposited
  fresh     := h.fresh

end Course

theorem keyed_set (hk : ∀ {id p}, s.proposals.get id = some p → p.id = id)
    (hp : s'.proposals = s.proposals.set id proposal) (hi : proposal.id = id) {id' : UInt64}
    {p : Proposal} (hg : s'.proposals.get id' = some p) : p.id = id' := by
  rw [hp, KVStore.get_set] at hg
  split_ifs at hg with hid
  · cases hg
    exact hi.trans hid.symm
  · exact hk hg

theorem stage_set (hp : s'.proposals = s.proposals.set id proposal)
    (hle : s.stageOf id ≤ stage (some proposal.status)) (id' : UInt64) :
    s.stageOf id' ≤ s'.stageOf id' := by
  rw [State.stageOf, State.stageOf, State.statusOf_set hp]
  split_ifs with hid
  · exact hid ▸ hle
  · exact le_rfl

namespace Within

variable {left : List Proposal}

theorem tail (h : Within ctx s₀ (proposal :: left) s) : Within ctx s₀ left s where
  moves := h.moves
  fresh q hq := h.fresh q (List.mem_cons_of_mem _ hq)

-- A proposal is written that is not left to the sweep any more.
theorem set (h : Within ctx s₀ left s) (hp : s'.proposals = s.proposals.set id proposal)
    (hm : Moves (s₀.statusOf id) (some proposal.status)) (hn : ∀ q ∈ left, q.id ≠ id) :
    Within ctx s₀ left s' where
  moves id' := by
    rw [State.statusOf_set hp]
    split_ifs with hid
    · exact hid ▸ hm
    · exact h.moves id'
  fresh q hq hd := by
    refine ⟨?_, (h.fresh q hq hd).2⟩
    rw [hp, KVStore.get_set_ne (hn q hq)]
    exact (h.fresh q hq hd).1

end Within

-- The sweep takes one proposal.
theorem Course.processed {left : List Proposal} (h : Course Idle s past)
    (hw : Within ctx s₀ (proposal :: left) s) (hn : ∀ q ∈ left, q.id ≠ proposal.id)
    (hp : k.processProposal ctx s proposal = .ok s')
    (hq : ∀ m ∈ k.sweepMoments ctx s proposal, m.Meets Regular) :
    Course Idle s' (k.sweepMoments ctx s proposal ++ past) ∧ Within ctx s₀ left s' := by
  have hsw := Keeper.processProposal_swept hp
  have hfresh := hw.fresh proposal (List.mem_cons_self ..)
  revert hq
  generalize k.sweepMoments ctx s proposal = happened at hsw
  intro hq
  cases hsw with
  | skipped hnd he =>
    subst he
    refine ⟨h.swept h.keyed rfl (fun _ => le_rfl) ?_ (fun hd => absurd hd hnd), hw.tail⟩
    rintro id ⟨_, hs, ht⟩
    exact absurd (.inr ⟨hs, ht⟩) hnd
  | deposited hs ht hi hs' hpr hv =>
    rename_i proposal'
    obtain ⟨hg, h₀⟩ := hfresh (.inl ⟨hs, ht⟩)
    have hle : s.stageOf proposal.id ≤ stage (some proposal'.status) := by
      rw [State.stageOf_deposit hg hs]
      rcases hs' with hs' | hs' <;> rw [hs'] <;> decide
    refine ⟨h.swept (keyed_set h.keyed hpr hi) hv (stage_set hpr hle) ?_ (fun _ => hg), ?_⟩
    · rintro id ⟨_, hs₂, _⟩
      cases hs.symm.trans hs₂
    · refine hw.tail.set hpr ?_ hn
      rw [h₀, hs]
      rcases hs' with hs' | hs' <;> rw [hs'] <;> constructor
  | voted hs ht hg hr hi hs' hpr hv =>
    obtain ⟨hg', h₀⟩ := hfresh (.inr ⟨hs, ht⟩)
    cases hg.symm.trans hg'
    rename_i proposal' tally calls s₂
    have hset : (s.setProposal { proposal with finalTallyResult := tally }).proposals =
        s.proposals.set proposal.id { proposal with finalTallyResult := tally } := rfl
    have hle : s.stageOf proposal.id ≤ stage (some proposal.status) := by
      rw [State.stageOf, State.statusOf_of_get hg]
    -- The votes are counted, and the messages are executed.
    have hc : Course (Busy ctx proposal.id)
        (s.setProposal { proposal with finalTallyResult := tally })
        (.swept ctx s proposal :: past) := by
      refine h.swept (keyed_set h.keyed hset rfl) rfl (stage_set hset hle) ?_ (fun _ => hg)
      rintro id ⟨rfl, _, _⟩
      exact .inr ⟨rfl, _, KVStore.get_set_self, hs, ht⟩
    have hw' : Within ctx s₀ left (s.setProposal { proposal with finalTallyResult := tally }) := by
      refine hw.tail.set hset ?_ hn
      rw [h₀]
      exact .same
    have hrun := calls_keep (P := Regular)
      (I := fun s past => Course (Busy ctx proposal.id) s past ∧ Within ctx s₀ left s)
      (fun hI hc hreg => ⟨hI.1.call .busy hc hreg,
        hI.2.call ((Keeper.call_changed hc).opens hI.1.keyed hreg)⟩)
      ⟨hc, hw'⟩ hr fun m hm => hq m (List.mem_append_left _ hm)
    obtain ⟨hc₂, hw₂⟩ := hrun
    have h3 : stage (some proposal'.status) = 3 := by
      rcases hs' with hs' | hs' <;> rw [hs'] <;> rfl
    rw [List.append_assoc]
    constructor
    · refine hc₂.settle (keyed_set hc₂.keyed hpr hi) hv ?_ ?_
      · exact stage_set hpr (h3 ▸ State.stageOf_le)
      · rw [State.stageOf, State.statusOf_set hpr, if_pos rfl, h3]
    · refine hw₂.set hpr ?_ hn
      rw [h₀, hs]
      rcases hs' with hs' | hs' <;> rw [hs'] <;> constructor

-- What holds from the end of the last block to the sweep.
structure Before (ctx : Context) (s₀ s : State σ) : Prop where
  moves : ∀ id, Moves (s₀.statusOf id) (s.statusOf id)
  due   : ∀ {id proposal}, s.proposals.get id = some proposal → proposal.Due ctx →
    s₀.statusOf id = some proposal.status

theorem Before.refl (ctx : Context) (s : State σ) : Before ctx s s :=
  ⟨fun _ => .same, fun hg _ => State.statusOf_of_get hg⟩

theorem Before.call (h : Before ctx s₀ s) (ho : Opens ctx s s') : Before ctx s₀ s' where
  moves id   := ho.moves (h.moves id)
  due hg hd  := h.due (ho.of_due hd hg) hd

-- The sweep starts with the proposals as they are stored.
theorem Before.within (h : Before ctx s₀ s)
    (hk : ∀ {id p}, s.proposals.get id = some p → p.id = id) :
    Within ctx s₀ s.getProposals s where
  moves := h.moves
  fresh proposal hm hd := by
    obtain ⟨id, hg⟩ := KVStore.mem_values_iff.mp hm
    cases hk hg
    exact ⟨hg, h.due hg hd⟩

theorem nodup_getProposals (hk : ∀ {id p}, s.proposals.get id = some p → p.id = id) :
    (s.getProposals.map (·.id)).Nodup :=
  KVStore.nodup_values_map fun _ _ hg => hk hg

theorem Course.block (h : Course Idle s past) (hb : k.runBlock s b = .ok s')
    (hq : ∀ m ∈ k.moments s b, m.Meets Regular) :
    Course Idle s' (k.moments s b ++ past) ∧ ∀ id, Moves (s.statusOf id) (s'.statusOf id) := by
  obtain ⟨s₁, htxs, hsweep⟩ := runBlock_eq_ok.mp hb
  simp only [moments_eq htxs, List.mem_append] at hq ⊢
  have hbefore := txs_keep (P := Regular)
    (I := fun s₁ past => Course Idle s₁ past ∧ Before b.ctx s s₁)
    (fun hI hc hreg => ⟨hI.1.call .idle hc hreg,
      hI.2.call ((Keeper.call_changed hc).opens hI.1.keyed hreg)⟩)
    ⟨h, .refl b.ctx s⟩ htxs fun m hm => hq m (.inr hm)
  obtain ⟨hc₁, hb₁⟩ := hbefore
  have hstep : ∀ {proposal : Proposal} {left : List Proposal} {s₁ s₂ : State σ}
      {past : List (Moment σ)},
      (Course Idle s₁ past ∧ Within b.ctx s (proposal :: left) s₁ ∧
        ((proposal :: left).map (·.id)).Nodup) →
      k.processProposal b.ctx s₁ proposal = .ok s₂ →
      (∀ m ∈ k.sweepMoments b.ctx s₁ proposal, m.Meets Regular) →
      Course Idle s₂ (k.sweepMoments b.ctx s₁ proposal ++ past) ∧ Within b.ctx s left s₂ ∧
        (left.map (·.id)).Nodup := by
    rintro proposal left s₁ s₂ past ⟨hc, hw, hn⟩ hp hq
    rw [List.map_cons, List.nodup_cons] at hn
    have hne : ∀ q ∈ left, q.id ≠ proposal.id := fun q hm he => hn.1 (he ▸ List.mem_map_of_mem hm)
    obtain ⟨hc₂, hw₂⟩ := hc.processed hw hne hp hq
    exact ⟨hc₂, hw₂, hn.2⟩
  have hend := Fold.trace_holds
    (I := fun left s₁ past => Course Idle s₁ past ∧ Within b.ctx s left s₁ ∧
      (left.map (·.id)).Nodup)
    hstep ⟨hc₁, hb₁.within hc₁.keyed, nodup_getProposals hc₁.keyed⟩ hsweep fun m hm => hq m (.inl hm)
  rw [List.append_assoc]
  exact ⟨hend.1, hend.2.1.moves⟩

theorem Course.init (h : s.Empty k.moduleAddr) (hv : s.votes = .empty) :
    Course Idle s ([] : List (Moment σ)) where
  keyed hg            := by simp [h.proposals] at hg
  kept id voter       := by rw [hv]; rfl
  seen _ hm           := absurd hm List.not_mem_nil
  closed _ hm         := absurd hm List.not_mem_nil
  counted later       := by simp
  voted later         := by simp
  deposited later     := by simp
  fresh later         := by simp

theorem Course.orderly {reports : List (Report σ)} (h : Course Idle s (pastOf reports))
    (hm : ∀ r ∈ reports, ∀ id, Moves (r.before.statusOf id) (r.after.statusOf id)) :
    Orderly reports where
  moves := hm
  counted later m past id he ht := by
    refine ⟨fun voter vote hl => h.counted later m past id voter vote he ht hl, ?_⟩
    rintro m' hm' vote hv rfl
    obtain ⟨l₁, l₂, rfl⟩ := List.append_of_mem hm'
    cases m' with
    | called ctx s c =>
      have he' : pastOf reports = l₁ ++ .called ctx s c :: (l₂ ++ m :: past) := by
        rw [he, List.append_assoc, List.cons_append]
      exact ((h.voted l₁ ctx s c _ vote he' hv).2 m (by simp)).2 ht
    | swept => cases hv
  voted later ctx s c past vote he hv :=
    ⟨(h.voted later ctx s c past vote he hv).1,
      fun m hm => ((h.voted later ctx s c past vote he hv).2 m hm).1⟩
  deposited := h.deposited
  fresh     := h.fresh

-- In every run whose calls are regular the proposals keep to their lifecycle.
theorem lifecycle (k : Keeper μ σ) {p : State σ × List (Report σ)}
    (h : (journal k).Run (k.Done Regular) p) : Orderly p.2 := by
  have hinv : (journal k).Invariant (k.Done Regular) fun p =>
      Course Idle p.1 (pastOf p.2) ∧
        ∀ r ∈ p.2, ∀ id, Moves (r.before.statusOf id) (r.after.statusOf id) := by
    refine TransitionSystem.traced_invariant (fun hi => ?_) fun hI hg hs => ?_
    · exact ⟨.init hi.1 hi.2, by simp⟩
    · obtain ⟨hc, hm⟩ := hI.1.block hs.2 hg
      refine ⟨by simpa only [pastOf, List.flatMap_cons] using hc, ?_⟩
      intro r hr
      rcases List.mem_cons.mp hr with rfl | hr
      · exact hm
      · exact hI.2 r hr
  obtain ⟨hc, hm⟩ := hinv.holds h
  exact hc.orderly hm

section Decidable

instance timelyDecidable (s : State σ) (total amount : Coins) : Decidable (s.Timely total amount) :=
  decidable_of_iff (∀ params ∈ s.params, ∀ total' ∈ (total.add amount).toOption,
      total'.isAllGTE params.minDeposit = true → 0 ≤ params.votingPeriod) <| by
    cases h : total.add amount with
    | error e => simp [State.Timely, Except.toOption, h]
    | ok total' => simp [State.Timely, Except.toOption, h, Option.mem_def]

instance regularDecidable (ctx : Context) (s : State σ) : (c : Call σ) → Decidable (Regular ctx s c)
  | .own (.submitProposal _) => inferInstanceAs (Decidable (_ ∧ (_ → _)))
  | .own (.deposit msg) =>
    decidable_of_iff (∀ proposal ∈ s.proposals.get msg.proposalId,
      s.Timely proposal.totalDeposit msg.amount) Iff.rfl
  | .own (.vote _) => isTrue trivial
  | .own (.voteWeighted _) => isTrue trivial
  | .own (.updateParams _) => isTrue trivial
  | .own (.slashValidator _) => isTrue trivial
  | .other _ => isTrue trivial

instance meetsDecidable (P : Context → State σ → Call σ → Prop)
    [∀ ctx s c, Decidable (P ctx s c)] : (m : Moment σ) → Decidable (m.Meets P)
  | .called ctx s c => inferInstanceAs (Decidable (P ctx s c))
  | .swept .. => isTrue trivial

end Decidable

namespace Sample

-- A chain on which proposals change the voting period.
def council : Keeper MsgUpdateParams Unit where
  unpackAny a := match a.value, genesis.params with
    | [period], some params => .ok ⟨"gov", { params with votingPeriod := period.toNat - 2 }⟩
    | _, _ => .error "unexpected EOF"
  getSigners msg := (keeper.accAddressFromBech32 msg.authority).toList
  typeName _ := "*types.MsgUpdateParams"
  msgRouter := some fun msg => some [.own (.updateParams msg)]
  authority := gov
  authorityString := "gov"
  moduleAddr := gov
  accAddressFromBech32 := keeper.accAddressFromBech32
  valAddressFromBech32 := keeper.valAddressFromBech32
  stakingKeeper := keeper.stakingKeeper

def propose (period : UInt8) : Call Unit :=
  .own <| .submitProposal {
    proposer       := "mallory"
    metadata       := ""
    title          := "period"
    summary        := "period"
    messages       := [⟨"/marketplace.governance.MsgUpdateParams", [period]⟩]
    initialDeposit := []
    expedited      := false
  }

def pay (id : UInt64) : Call Unit :=
  .own <| .deposit ⟨id, "mallory", [⟨"stake", 10⟩]⟩

def approve (id : UInt64) : Call Unit :=
  .own <| .vote ⟨id, "voter", .yes, ""⟩

-- The first proposal sets the voting period to -1, and the second one is over when it starts.
def firstBlock : Block Unit :=
  ⟨block 0, [[propose 1], [pay 1], [approve 1]]⟩

def reform : State Unit × List (Report Unit) :=
  [firstBlock, ⟨block 40, [[propose 9]]⟩, ⟨block 41, [[pay 2]]⟩].foldl council.nextBlock (genesis, [])

end Sample

-- The second proposal goes from the deposit period to its rejection in one block.
theorem reform_not_orderly :
    (journal Sample.council).Reachable Sample.reform ∧ ¬Orderly Sample.reform.2 := by
  constructor
  · have h₀ : (journal Sample.council).Reachable (Sample.genesis, []) :=
      .traced_init ⟨Sample.genesis_empty, rfl⟩
    have h₁ := Keeper.nextBlock_run h₀ trivial (b := Sample.firstBlock) (by decide +kernel)
    have h₂ := Keeper.nextBlock_run h₁ trivial (b := ⟨Sample.block 40, [[Sample.propose 9]]⟩)
      (by decide +kernel)
    exact Keeper.nextBlock_run h₂ trivial (by decide +kernel)
  · intro h
    have hjump : ∃ r ∈ Sample.reform.2, r.before.statusOf 2 = some .depositPeriod ∧
        r.after.statusOf 2 = some .rejected := by
      decide +kernel
    obtain ⟨r, hr, hb, ha⟩ := hjump
    have hm := h.moves r hr 2
    rw [hb, ha] at hm
    cases hm

-- A proposal that is voted on at once passes when its voting period is over.
theorem sample_lifecycle :
    Orderly ([Sample.firstBlock, ⟨Sample.block 40, []⟩].foldl Sample.council.nextBlock
      (Sample.genesis, [])).2 := by
  have h₀ : (journal Sample.council).Run (Sample.council.Done Regular) (Sample.genesis, []) :=
    .traced_init ⟨Sample.genesis_empty, rfl⟩
  have h₁ := Keeper.nextBlock_run h₀ (b := Sample.firstBlock)
    (by unfold Keeper.Done; decide +kernel) (by decide +kernel)
  have h₂ := Keeper.nextBlock_run h₁ (b := ⟨Sample.block 40, []⟩)
    (by unfold Keeper.Done; decide +kernel) (by decide +kernel)
  exact lifecycle Sample.council h₂

end Governance
