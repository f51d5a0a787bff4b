import MallChain.Governance.Atomicity
import MallChain.Governance.Genesis
import MallChain.Governance.Lifecycle

namespace Governance

open Sdk

variable {μ σ : Type}

-- A proposal is submitted under the id.
def Moment.Submits (id : UInt64) : Moment σ → Prop
  | called _ s (.own (.submitProposal _)) => s.proposalID = id
  | _ => False

-- What happens while the pass comes to some proposals.
def Keeper.passMoments (k : Keeper μ σ) (ctx : Context) (s : State σ) (proposals : List Proposal) :
    List (Moment σ) :=
  Fold.trace (k.processProposal ctx) (k.sweepMoments ctx) proposals s

-- The pass at the end of a block comes to a proposal that passes its vote, and goes on to its end.
structure Turn (k : Keeper μ σ) (ctx : Context) (s s' : State σ) where
  earlier  : List Proposal
  proposal : Proposal
  later    : List Proposal
  found    : State σ
  counted  : State σ
  left     : State σ
  tally    : TallyResult
  params   : Params
  order    : s.getProposals = earlier ++ proposal :: later
  reached  : earlier.foldlM (k.processProposal ctx) s = .ok found
  voting   : proposal.status = .votingPeriod
  ended    : proposal.votingEndTime < ctx.blockTime
  counts   : k.tallyVotes found proposal.id = .ok (counted, tally)
  settings : counted.params = some params
  passes   : k.determineProposalOutcome counted tally params = .ok .passed
  done     : k.processProposal ctx found proposal = .ok left
  finished : later.foldlM (k.processProposal ctx) left = .ok s'

namespace Turn

variable {k : Keeper μ σ} {ctx : Context} {s s' : State σ} (t : Turn k ctx s s')

-- At the end of the pass the status says how the execution went.
def Recorded : Prop :=
  ∀ s₁ err, k.executeProposal ctx t.counted (t.proposal.passedWith t.tally) = .ok (s₁, err) →
    s'.statusOf t.proposal.id = some (if err.isSome then .failed else .passed)

-- A router is configured, and every message is unpacked, has a handler and goes through.
def Executable : Prop :=
  ∃ router s₁, k.msgRouter = some router ∧
    Executes k ctx router t.counted t.proposal.messages s₁

-- No proposal that is executed later in the pass submits one under the same id.
def Unshadowed : Prop :=
  ∀ m ∈ k.passMoments ctx t.left t.later, ¬m.Submits t.proposal.id

end Turn

-- A status in which a proposal has not come to its end.
def Open (status : Option ProposalStatus) : Prop :=
  status = some .depositPeriod ∨ status = some .votingPeriod

-- The proposal is as it was left, or it was submitted once more.
def Left (id : UInt64) (s : State σ) (past : List (Moment σ)) : Prop :=
  (∀ m ∈ past, ¬m.Submits id) ∧ s.statusOf id = some .passed ∨
    (∃ m ∈ past, m.Submits id) ∧ Open (s.statusOf id)

variable {k : Keeper μ σ} {ctx : Context} {s s' : State σ} {c : Call σ} {id : UInt64}
variable {past : List (Moment σ)} {proposal proposal' : Proposal} {m : Moment σ}

theorem Left.cons (h : Left id s past) (hm : ¬m.Submits id) (hs : s'.statusOf id = s.statusOf id) :
    Left id s' (m :: past) := by
  rcases h with ⟨hno, hst⟩ | ⟨⟨m', hm', hsub⟩, hst⟩
  · refine .inl ⟨fun m' hm' => ?_, hs.trans hst⟩
    rcases List.mem_cons.mp hm' with rfl | hm'
    · exact hm
    · exact hno m' hm'
  · exact .inr ⟨⟨m', List.mem_cons_of_mem _ hm', hsub⟩, by rwa [hs]⟩

theorem Deposited.open_status {depositor : String} {amount : Coins} {record : Deposit} {s₁ : State σ}
    (h : Deposited k ctx s id depositor amount proposal proposal' record s₁ s') :
    Open (some proposal'.status) := by
  rcases h.entered with ⟨hst, _⟩ | ⟨hst, _⟩
  · exact .inl (congrArg some hst)
  · exact .inr (congrArg some hst)

-- A proposal that is submitted takes the next id, whatever was stored there.
theorem submitProposal_status {msg : MsgSubmitProposal}
    (h : k.call ctx s (.own (.submitProposal msg)) = .ok s') :
    Open (s'.statusOf s.proposalID) ∧ ∀ id, id ≠ s.proposalID → s'.statusOf id = s.statusOf id := by
  simp only [Keeper.call, Keeper.deliver, Keeper.handle, Result.bind_eq_ok] at h
  obtain ⟨_, _, ⟨s₁, id₁⟩, hsub, h⟩ := h
  obtain ⟨stored, hp, rfl, _⟩ := Keeper.of_submitProposal hsub
  have h₁ : ∀ id, s₁.statusOf id =
      if id = s.proposalID then some .depositPeriod else s.statusOf id := by
    intro id
    rw [State.statusOf_set hp.proposals, hp.id, hp.status]
  split_ifs at h
  · cases h
    refine ⟨.inl (by rw [h₁, if_pos rfl]), fun id hid => by rw [h₁, if_neg hid]⟩
  · obtain ⟨proposal, proposal', record, s₂, hd⟩ := Keeper.of_addDeposit h
    have hid : proposal.id = s.proposalID := by
      have hg := hd.stored
      rw [hp.proposals, hp.id, KVStore.get_set_self, Option.some.injEq] at hg
      rw [← hg, hp.id]
    constructor
    · rw [State.statusOf_set hd.proposals, if_pos hid.symm]
      exact hd.open_status
    · intro id hne
      rw [State.statusOf_set hd.proposals, hid, if_neg hne, h₁, if_neg hne]

-- All other calls leave a proposal that has come to its end as it is.
theorem call_status (hs : s.Indexed) (hc : ∀ msg, c ≠ .own (.submitProposal msg))
    (h : k.call ctx s c = .ok s') : s'.statusOf id = s.statusOf id ∨
      Open (s.statusOf id) ∧ Open (s'.statusOf id) := by
  cases Keeper.of_call h with
  | submitted => exact absurd rfl (hc _)
  | endowed => exact absurd rfl (hc _)
  | quiet hf => exact .inl (State.statusOf_congr hf.proposals)
  | slashed hf => exact .inl (State.statusOf_congr hf.proposals)
  | other hf => exact .inl (State.statusOf_congr hf.proposals)
  | deposited _ _ hd =>
    rw [State.statusOf_set hd.proposals, hs.proposals _ _ hd.stored]
    split_ifs with hid
    · subst hid
      refine .inr ⟨.inl ?_, hd.open_status⟩
      rw [State.statusOf_of_get hd.stored, hd.status]
    · exact .inl rfl

theorem not_submits (hc : ∀ msg, c ≠ .own (.submitProposal msg)) :
    ¬(Moment.called ctx s c).Submits id := by
  cases c with
  | other => exact fun h => h
  | own msg =>
    cases msg with
    | submitProposal msg => exact absurd rfl (hc msg)
    | _ => exact fun h => h

namespace Left

theorem call (h : Left id s past) (hs : s.Indexed) (hc : k.call ctx s c = .ok s') :
    Left id s' (.called ctx s c :: past) := by
  by_cases hsub : ∃ msg, c = .own (.submitProposal msg)
  case pos =>
    obtain ⟨msg, rfl⟩ := hsub
    obtain ⟨hopen, hkept⟩ := submitProposal_status hc
    by_cases hid : s.proposalID = id
    · subst hid
      exact .inr ⟨⟨_, List.mem_cons_self, rfl⟩, hopen⟩
    · exact h.cons hid (hkept id (Ne.symm hid))
  case neg =>
    have hno : ∀ msg, c ≠ .own (.submitProposal msg) := fun msg he => hsub ⟨msg, he⟩
    rcases call_status hs hno hc with hst | ⟨hopen, hopen'⟩
    · exact h.cons (not_submits hno) hst
    · rcases h with ⟨_, hpassed⟩ | ⟨⟨m, hm, hm'⟩, _⟩
      · rw [hpassed] at hopen
        rcases hopen with ho | ho <;> cases ho
      · exact .inr ⟨⟨m, List.mem_cons_of_mem _ hm, hm'⟩, hopen'⟩

-- Another proposal is written.
theorem set {id' : UInt64} (h : Left id s past) (hp : s'.proposals = s.proposals.set id' proposal)
    (hid : id' ≠ id) : Left id s' past := by
  have hst : s'.statusOf id = s.statusOf id := by rw [State.statusOf_set hp, if_neg (Ne.symm hid)]
  rw [Left, hst]
  exact h

-- The pass comes to another proposal.
theorem processed (h : Left id s past) (hs : s.Indexed) (hid : proposal.id ≠ id)
    (hp : k.processProposal ctx s proposal = .ok s') :
    Left id s' (k.sweepMoments ctx s proposal ++ past) := by
  have hsw := Keeper.processProposal_swept hp
  generalize k.sweepMoments ctx s proposal = moments at hsw
  have hno : ¬(Moment.swept ctx s proposal).Submits id := fun h => h
  cases hsw with
  | skipped _ he =>
    subst he
    exact h.cons hno rfl
  | deposited _ _ hi _ hpr _ => exact (h.cons hno rfl).set hpr hid
  | voted hvoting hended hg hr hi hst hpr hv =>
    rename_i stored proposal' tally calls s₂
    have hset : (s.setProposal { stored with finalTallyResult := tally }).proposals =
        s.proposals.set stored.id { stored with finalTallyResult := tally } := rfl
    have hstored : stored.id = proposal.id := hs.proposals _ _ hg
    have h₁ : Left id (s.setProposal { stored with finalTallyResult := tally })
        (.swept ctx s proposal :: past) := (h.cons hno rfl).set hset (hstored ▸ hid)
    have h₂ := calls_keep (P := fun _ _ _ => True) (I := fun s past => s.Indexed ∧ Left id s past)
      (fun hI hc _ => ⟨hI.1.call hc, hI.2.call hI.1 hc⟩) ⟨hs.setProposal, h₁⟩ hr
      fun m _ => by cases m <;> trivial
    rw [List.append_assoc]
    exact h₂.2.set hpr hid

-- The rest of the pass.
theorem pass {proposals : List Proposal} (h : s.statusOf id = some .passed) (hs : s.Indexed)
    (hid : ∀ proposal ∈ proposals, proposal.id ≠ id)
    (hp : proposals.foldlM (k.processProposal ctx) s = .ok s') :
    Left id s' (k.passMoments ctx s proposals) := by
  have hstart : s.Indexed ∧ (∀ proposal ∈ proposals, proposal.id ≠ id) ∧ Left id s [] :=
    ⟨hs, hid, .inl ⟨fun m hm => absurd hm List.not_mem_nil, h⟩⟩
  have hstep : ∀ {proposal : Proposal} {left : List Proposal} {s s' : State σ}
      {past : List (Moment σ)},
      (s.Indexed ∧ (∀ q ∈ proposal :: left, q.id ≠ id) ∧ Left id s past) →
      k.processProposal ctx s proposal = .ok s' →
      (∀ m ∈ k.sweepMoments ctx s proposal, True) →
      s'.Indexed ∧ (∀ q ∈ left, q.id ≠ id) ∧ Left id s' (k.sweepMoments ctx s proposal ++ past) :=
    fun hI hp _ => ⟨hI.1.processed (Keeper.of_processProposal hp),
      fun q hq => hI.2.1 q (List.mem_cons_of_mem _ hq),
      hI.2.2.processed hI.1 (hI.2.1 _ List.mem_cons_self) hp⟩
  have hend := Fold.trace_holds
    (I := fun left s past => s.Indexed ∧ (∀ q ∈ left, q.id ≠ id) ∧ Left id s past)
    hstep hstart hp fun _ _ => trivial
  rw [List.append_nil] at hend
  exact hend.2.2

end Left

namespace Turn

variable {k : Keeper μ σ} {ctx : Context} {s s' : State σ} (t : Turn k ctx s s')

theorem executed : ∃ s₁, k.executePassed ctx t.counted (t.proposal.passedWith t.tally) = .ok s₁ ∧
    t.left = s₁.setProposal (t.proposal.passedWith t.tally) := by
  have hdone := t.done
  rw [Keeper.processProposal, t.voting] at hdone
  dsimp only at hdone
  rw [if_pos t.ended, Keeper.processVotingPeriodEnd_passed t.counts t.settings t.passes] at hdone
  cases he : k.executePassed ctx t.counted (t.proposal.passedWith t.tally) with
  | error => rw [he] at hdone; cases hdone
  | ok s₁ =>
    rw [he] at hdone
    exact ⟨s₁, rfl, (Except.ok.inj hdone).symm⟩

-- The rest of the pass finds the proposal passed.
theorem left_passed : t.left.statusOf t.proposal.id = some .passed := by
  obtain ⟨s₁, _, hleft⟩ := t.executed
  have hget : t.left.proposals.get t.proposal.id = some (t.proposal.passedWith t.tally) := by
    rw [hleft]
    exact KVStore.get_set_self
  rw [State.statusOf_of_get hget]
  rfl

-- The execution did not panic.
theorem execution : ∃ s₁ err,
    k.executeProposal ctx t.counted (t.proposal.passedWith t.tally) = .ok (s₁, err) := by
  obtain ⟨s₁, he, _⟩ := t.executed
  rw [Keeper.executePassed, Result.bind_eq_ok] at he
  obtain ⟨⟨s₂, err⟩, he, _⟩ := he
  exact ⟨s₂, err, he⟩

theorem left_indexed (hs : s.Indexed) : t.left.Indexed := by
  have hfound : t.found.Indexed := by
    have hreached := t.reached
    exact (Fold.Along.of_forall (P := fun _ _ => True) fun _ _ _ => trivial).holds
      (I := fun _ s => s.Indexed) (fun h _ hp => h.processed (Keeper.of_processProposal hp)) hs hreached
  exact hfound.processed (Keeper.of_processProposal t.done)

theorem later_ne (hs : s.Indexed) : ∀ q ∈ t.later, q.id ≠ t.proposal.id := by
  have hnodup := nodup_getProposals fun hg => hs.proposals _ _ hg
  rw [t.order, List.map_append, List.map_cons, List.nodup_append, List.nodup_cons] at hnodup
  exact fun q hq he => hnodup.2.1.1 (he ▸ List.mem_map_of_mem hq)

-- What keeps the messages from being executed is reported.
theorem executable_iff {s₁ : State σ} {err : Option Failure}
    (he : k.executeProposal ctx t.counted (t.proposal.passedWith t.tally) = .ok (s₁, err)) :
    t.Executable ↔ err = none := by
  constructor
  · rintro ⟨router, s₂, hr, hex⟩
    have hex : Executes k ctx router t.counted (t.proposal.passedWith t.tally).messages s₂ := hex
    rw [Keeper.executeProposal_executes hr hex] at he
    cases he
    rfl
  · rintro rfl
    cases hr : k.msgRouter with
    | none =>
      simp only [Keeper.executeProposal, hr] at he
      cases he
    | some router =>
      rcases executes_or_halts k ctx router t.counted t.proposal.messages with ⟨s₂, hex⟩ | hh
      · exact ⟨router, s₂, hr, hex⟩
      · have hh : Halts k ctx router t.counted (t.proposal.passedWith t.tally).messages := hh
        have hundone := Keeper.executeProposal_halts hr hh
        rw [he] at hundone
        cases hundone

end Turn

theorem of_passing (h : (k.passing ctx s proposal).isSome = true) :
    ∃ counted, k.Passing ctx s proposal counted := by
  obtain ⟨counted, h⟩ := Option.isSome_iff_exists.mp h
  simp only [Keeper.passing] at h
  split_ifs at h with hdue
  cases hv : k.tallyVotes s proposal.id with
  | error => simp [hv, Except.toOption] at h
  | ok result =>
    simp only [hv, Except.toOption, Option.bind_eq_bind, Option.bind_some, Option.bind_eq_some_iff] at h
    obtain ⟨params, hparams, h⟩ := h
    split_ifs at h with hpasses
    cases h
    exact ⟨_, hdue.1, hdue.2, result.2, params, hv, hparams, hpasses⟩

-- The pass has a turn for every proposal that passes its vote when the pass comes to it.
theorem exists_turn {earlier later : List Proposal} (he : k.endBlocker ctx s = .ok s')
    (ho : s.getProposals = earlier ++ proposal :: later)
    (hp : ∀ found, earlier.foldlM (k.processProposal ctx) s = .ok found →
      (k.passing ctx found proposal).isSome = true) :
    ∃ t : Turn k ctx s s', t.proposal = proposal := by
  rw [Keeper.endBlocker, ho, List.foldlM_append, Result.bind_eq_ok] at he
  obtain ⟨found, hreached, he⟩ := he
  obtain ⟨left, hdone, hfinished⟩ := Fold.foldlM_cons_eq_ok.mp he
  obtain ⟨counted, hvoting, hended, tally, params, hcounts, hparams, hpasses⟩ :=
    of_passing (hp found hreached)
  exact ⟨⟨earlier, proposal, later, found, counted, left, tally, params, ho, hreached, hvoting, hended,
    hcounts, hparams, hpasses, hdone, hfinished⟩, rfl⟩

-- The status says how the execution went exactly if the execution succeeds and the id is not given
-- away again: a proposal whose execution fails is left as passed.
theorem execution_recorded_iff (k : Keeper μ σ) {s : Store σ} (h : (genesisChain k).Reachable s)
    {ctx : Context} {s' : State σ} (t : Turn k ctx s.toState s') :
    t.Recorded ↔ t.Executable ∧ t.Unshadowed := by
  have hs : s.toState.Indexed := (genesis_invariant.holds h).1
  have hleft : Left t.proposal.id s' (k.passMoments ctx t.left t.later) :=
    .pass t.left_passed (t.left_indexed hs) (t.later_ne hs) t.finished
  obtain ⟨s₁, err, he⟩ := t.execution
  rw [t.executable_iff he]
  constructor
  · intro hr
    have hst := hr s₁ err he
    rcases hleft with ⟨hno, hpassed⟩ | ⟨_, hopen | hopen⟩
    · refine ⟨?_, hno⟩
      cases err with
      | none => rfl
      | some e => cases hpassed.symm.trans hst
    · cases err <;> cases hopen.symm.trans hst
    · cases err <;> cases hopen.symm.trans hst
  · rintro ⟨rfl, hno⟩ s₂ err' he'
    cases he.symm.trans he'
    rcases hleft with ⟨_, hpassed⟩ | ⟨⟨m, hm, hsub⟩, _⟩
    · exact hpassed
    · exact absurd hsub (hno m hm)

namespace Sample

-- One proposal has a deposit and a vote. The victim has 100 coins, which its message sends on.
def voted (amount : UInt8) : Store Unit :=
  follow opened [submit 2 1 amount [], deposit 10, vote]

-- Whether the execution of the proposal reports an error.
def reports (s : State Unit) (proposal : Proposal) : Result Bool := do
  let (counted, tally) ← keeper.tallyVotes s proposal.id
  let (_, err) ← keeper.executeProposal (block 40) counted (proposal.passedWith tally)
  return err.isSome

theorem voted_reachable {amount : UInt8}
    (h : accepted opened.toState [submit 2 1 amount [], deposit 10, vote] = true) :
    (genesisChain keeper).Reachable (voted amount) :=
  follow_reachable (.init ⟨_, _, _, rfl⟩) h

theorem turn_single {s : State Unit} {s' : State Unit} (h : s.getProposals.length = 1)
    (t : Turn keeper (block 40) s s') :
    t.earlier = [] ∧ t.later = [] ∧ t.found = s ∧ s' = t.left := by
  have hlength := congrArg List.length t.order
  rw [h, List.length_append, List.length_cons] at hlength
  have hearlier : t.earlier = [] := List.eq_nil_of_length_eq_zero (by omega)
  have hlater : t.later = [] := List.eq_nil_of_length_eq_zero (by omega)
  have hreached := t.reached
  have hfinished := t.finished
  rw [hearlier] at hreached
  rw [hlater] at hfinished
  exact ⟨hearlier, hlater, (Except.ok.inj hreached).symm, (Except.ok.inj hfinished).symm⟩

theorem reports_eq {s : State Unit} {s' : State Unit} {b : Bool} (h : s.getProposals.length = 1)
    (hr : ∀ proposal ∈ s.getProposals, reports s proposal = .ok b)
    (t : Turn keeper (block 40) s s') : ∃ s₁ err,
      keeper.executeProposal (block 40) t.counted (t.proposal.passedWith t.tally) = .ok (s₁, err) ∧
      err.isSome = b := by
  have hmem : t.proposal ∈ s.getProposals := by
    rw [t.order]
    exact List.mem_append_right _ List.mem_cons_self
  have hcounts := t.counts
  rw [(turn_single h t).2.2.1] at hcounts
  have hr := hr _ hmem
  simp only [reports, hcounts, Result.ok_bind, Result.bind_eq_ok, Result.pure_eq_ok] at hr
  obtain ⟨⟨s₁, err⟩, he, hb⟩ := hr
  exact ⟨s₁, err, he, hb⟩

theorem turn_voted {s s' : State Unit} (h : s.getProposals.length = 1)
    (he : keeper.endBlocker (block 40) s = .ok s')
    (hp : ∀ proposal ∈ s.getProposals, (keeper.passing (block 40) s proposal).isSome = true) :
    Nonempty (Turn keeper (block 40) s s') := by
  obtain ⟨proposal, hs⟩ := List.length_eq_one_iff.mp h
  have hsplit : s.getProposals = [] ++ proposal :: [] := hs
  obtain ⟨t, _⟩ := exists_turn he hsplit fun found hf => by
    cases hf
    exact hp proposal (hs ▸ List.mem_singleton_self _)
  exact ⟨t⟩

end Sample

-- The victim has no 200 coins to send, and the proposal passes all the same.
theorem failure_recorded_as_passed : ¬∀ (s : Store Unit), (genesisChain Sample.keeper).Reachable s →
    ∀ (ctx : Context) (s' : State Unit) (t : Turn Sample.keeper ctx s.toState s'), t.Recorded := by
  intro h
  obtain ⟨s', hs'⟩ := Result.isOk_iff.mp (by decide +kernel :
    (Sample.keeper.endBlocker (Sample.block 40) (Sample.voted 200).toState).isOk = true)
  obtain ⟨t⟩ := Sample.turn_voted (by decide +kernel) hs' (by decide +kernel)
  obtain ⟨s₁, err, he, hb⟩ := Sample.reports_eq (b := true) (by decide +kernel) (by decide +kernel) t
  have hst := h _ (Sample.voted_reachable (by decide +kernel)) _ s' t s₁ err he
  have hleft : s'.statusOf t.proposal.id = t.left.statusOf t.proposal.id :=
    congrArg (State.statusOf · t.proposal.id) (Sample.turn_single (by decide +kernel) t).2.2.2
  rw [hleft, t.left_passed, hb, if_pos rfl] at hst
  cases hst

theorem sample_execution_recorded : ∃ s' : State Unit,
    ∃ t : Turn Sample.keeper (Sample.block 40) (Sample.voted 100).toState s', t.Recorded := by
  obtain ⟨s', hs'⟩ := Result.isOk_iff.mp (by decide +kernel :
    (Sample.keeper.endBlocker (Sample.block 40) (Sample.voted 100).toState).isOk = true)
  obtain ⟨t⟩ := Sample.turn_voted (by decide +kernel) hs' (by decide +kernel)
  obtain ⟨s₁, err, he, hb⟩ := Sample.reports_eq (b := false) (by decide +kernel) (by decide +kernel) t
  have hexec : t.Executable := (t.executable_iff he).mpr <| by
    cases err with
    | none => rfl
    | some => cases hb
  refine ⟨s', t, (execution_recorded_iff Sample.keeper (Sample.voted_reachable (by decide +kernel))
    t).mpr ⟨hexec, ?_⟩⟩
  rw [Turn.Unshadowed, (Sample.turn_single (by decide +kernel) t).2.1]
  exact fun m hm => absurd hm List.not_mem_nil

end Governance
