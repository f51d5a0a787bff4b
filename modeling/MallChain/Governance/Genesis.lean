import MallChain.Lib.Snapshot
import MallChain.Governance.Journal

namespace Governance

open Sdk

variable {μ σ : Type}

structure GenesisState where
  startingProposalId : UInt64
  deposits           : List Deposit
  votes              : List Vote
  proposals          : List Proposal
  params             : Params
  constitution       : String

-- The collections of the module with the constitution, which only the genesis writes.
structure Store (σ : Type) extends State σ where
  constitution : Option String := none

-- The store of the module before genesis, next to those of the others.
def Store.blank (bank : Bank) (rest : σ) : Store σ where
  bank       := bank
  params     := none
  proposalID := 0
  rest       := rest

def initGenesis (genState : GenesisState) (s : Store σ) : Store σ :=
  let state : State σ := { s.toState with
    proposalID := genState.startingProposalId
    params     := some genState.params
  }
  let state := genState.deposits.foldl State.setDeposit state
  let state := genState.votes.foldl State.setVote state
  let state := genState.proposals.foldl State.setProposal state
  { toState      := state
    constitution :=
      if genState.constitution ≠ "" then some genState.constitution else s.constitution }

-- A constitution that is not set counts as the empty text.
def exportGenesis (s : Store σ) : Result GenesisState := do
  let params ← orFail s.params errNotFound
  return {
    startingProposalId := s.proposalID
    deposits           := s.deposits.values
    votes              := s.votes.values
    proposals          := s.getProposals
    params             := params
    constitution       := s.constitution.getD ""
  }

-- The module from a genesis on. What fails is no step.
def genesisChain (k : Keeper μ σ) : TransitionSystem (Store σ) (Action σ) where
  init s      := ∃ genState bank rest, s = initGenesis genState (.blank bank rest)
  step s a s' := k.act s.toState a = .ok s'.toState ∧ s'.constitution = s.constitution

-- The collections of the module are emptied, all else is as it is.
def Store.emptied (s : Store σ) : Store σ :=
  { Store.blank s.bank s.rest with events := s.events }

-- What becomes of the operations that are tried one after the other.
def Keeper.outcomes (k : Keeper μ σ) (s : Store σ) : List (Action σ) → List (Result (Store σ))
  | [] => []
  | a :: as =>
    let outcome : Result (Store σ) := return { s with toState := ← k.act s.toState a }
    outcome :: k.outcomes (outcome.toOption.getD s) as

structure RoundTrips (k : Keeper μ σ) (s restored : Store σ) : Prop where
  proposals    : restored.proposals = s.proposals
  deposits     : restored.deposits = s.deposits
  votes        : restored.votes = s.votes
  params       : restored.params = s.params
  constitution : restored.constitution = s.constitution
  proposalID   : restored.proposalID = s.proposalID
  behaviour    : ∀ as, k.outcomes restored as = k.outcomes s as

-- Every record is stored under the key that its own fields give, and the parameters are set.
structure State.Indexed (s : State σ) : Prop where
  proposals : s.proposals.Keyed Proposal.id
  votes     : s.votes.Keyed fun vote => join vote.proposalId vote.voter
  deposits  : s.deposits.Keyed fun deposit => join deposit.proposalId deposit.depositor
  params    : s.params ≠ none

variable {k : Keeper μ σ} {ctx : Context} {s s₁ s' : State σ} {proposal : Proposal} {id : UInt64}
variable {depositor : String} {amount : Coins} {err : Option Failure}

namespace State.Indexed

theorem setProposal (h : s.Indexed) : (s.setProposal proposal).Indexed :=
  ⟨h.proposals.set rfl, h.votes, h.deposits, h.params⟩

theorem setVote {vote : Vote} (h : s.Indexed) : (s.setVote vote).Indexed :=
  ⟨h.proposals, h.votes.set rfl, h.deposits, h.params⟩

theorem setDeposit {deposit : Deposit} (h : s.Indexed) : (s.setDeposit deposit).Indexed :=
  ⟨h.proposals, h.votes, h.deposits.set rfl, h.params⟩

-- The rest of the state does not matter.
theorem frame {bank : Bank} {rest : σ} {events : List Event} {proposalID : UInt64} (h : s.Indexed) :
    ({ s with bank, rest, events, proposalID } : State σ).Indexed :=
  ⟨h.proposals, h.votes, h.deposits, h.params⟩

theorem submitProposal (h : s.Indexed)
    (hs : Keeper.submitProposal ctx s proposal = .ok (s', id)) : s'.Indexed := by
  simp only [Keeper.submitProposal, Result.bind_eq_ok, Result.pure_eq_ok, Prod.mk.injEq] at hs
  obtain ⟨_, _, rfl, _⟩ := hs
  exact h.frame.setProposal

theorem addDeposit (h : s.Indexed) (hs : k.addDeposit ctx s id depositor amount = .ok s') :
    s'.Indexed := by
  simp only [Keeper.addDeposit, Result.bind_eq_ok] at hs
  obtain ⟨_, _, _, _, _, _, record, _, s₁, hc, _, _, _, _, hs⟩ := hs
  have h₁ : s₁.Indexed := by
    rcases Keeper.of_collect hc with ⟨_, rfl⟩ | ⟨_, _, _, _, rfl⟩
    · exact h
    · exact h.frame
  split_ifs at hs
  · cases hs
    exact h₁.setDeposit.setProposal.frame
  · cases hs
    exact h₁.setDeposit.setProposal

theorem addVote {voter metadata : String} {options : List WeightedVoteOption} (h : s.Indexed)
    (hs : Keeper.addVote ctx s id voter options metadata = .ok s') : s'.Indexed := by
  simp only [Keeper.addVote, Result.bind_eq_ok, Result.pure_eq_ok] at hs
  obtain ⟨_, _, _, _, _, _, _, _, rfl⟩ := hs
  exact h.setVote

theorem slashValidatorProposal {validatorAddr : String} {slashPercentage : UInt64}
    (h : s.Indexed)
    (hs : k.slashValidatorProposal ctx s validatorAddr slashPercentage = .ok s') : s'.Indexed := by
  simp only [Keeper.slashValidatorProposal, Result.bind_eq_ok] at hs
  obtain ⟨_, _, _, _, _, _, _, _, _, _, _, _, _, _, hs⟩ := hs
  split_ifs at hs
  · simp only [Result.bind_eq_ok, Result.pure_eq_ok] at hs
    obtain ⟨_, _, _, _, rfl⟩ := hs
    exact h.frame
  · cases hs
    exact h

theorem handle {msg : Msg} (h : s.Indexed) (hs : k.handle ctx s msg = .ok s') : s'.Indexed := by
  cases msg with
  | submitProposal msg =>
    simp only [Keeper.handle, Result.bind_eq_ok] at hs
    obtain ⟨⟨s₁, id⟩, h₁, hs⟩ := hs
    split_ifs at hs
    · cases hs
      exact h.submitProposal h₁
    · exact (h.submitProposal h₁).addDeposit hs
  | vote msg | voteWeighted msg => exact h.addVote hs
  | deposit msg => exact h.addDeposit hs
  | updateParams msg =>
    simp only [Keeper.handle, Result.bind_eq_ok, Result.pure_eq_ok] at hs
    obtain ⟨_, _, rfl⟩ := hs
    exact ⟨h.proposals, h.votes, h.deposits, Option.some_ne_none _⟩
  | slashValidator msg =>
    simp only [Keeper.handle, Result.bind_eq_ok] at hs
    obtain ⟨_, _, hs⟩ := hs
    exact h.slashValidatorProposal hs

theorem call {c : Call σ} (h : s.Indexed) (hs : k.call ctx s c = .ok s') : s'.Indexed := by
  cases c with
  | own msg =>
    simp only [Keeper.call, Keeper.deliver, Result.bind_eq_ok] at hs
    obtain ⟨_, _, hs⟩ := hs
    exact h.handle hs
  | other run =>
    simp only [Keeper.call, Result.bind_eq_ok, Result.pure_eq_ok] at hs
    obtain ⟨_, _, rfl⟩ := hs
    exact h.frame

theorem runHandler {calls : List (Call σ)} (h : s.Indexed)
    (hs : k.runHandler ctx s calls = .ok s') : s'.Indexed := by
  induction calls generalizing s with
  | nil =>
    cases hs
    exact h
  | cons c calls ih =>
    obtain ⟨s₁, h₁, hs⟩ := Fold.foldlM_cons_eq_ok.mp hs
    exact ih (h.call h₁) hs

theorem refundDeposits (h : s.Indexed) (hs : k.refundDeposits s id = .ok s') : s'.Indexed := by
  rw [Keeper.refundDeposits_eq hs]
  exact h.frame

theorem tallyVotes {tally : TallyResult} (h : s.Indexed)
    (hs : k.tallyVotes s id = .ok (s', tally)) : s'.Indexed := by
  obtain ⟨stored, _, rfl⟩ := Keeper.tallyVotes_state hs
  exact h.setProposal

theorem executed (h : s.Indexed) (hs : Executed k ctx s proposal s') : s'.Indexed := by
  cases hs with
  | failed _ hs =>
    rcases hs with rfl | rfl
    · exact h
    · exact h.setProposal
  | executed _ hr ht =>
    rw [Keeper.executeTreasuryTransfer_eq ht]
    exact (h.runHandler hr).frame

theorem processed (h : s.Indexed) (hs : Processed k ctx s proposal s') : s'.Indexed := by
  cases hs with
  | skipped => exact h
  | started => exact h.setProposal.frame
  | expired _ _ hr => exact (h.refundDeposits hr).setProposal
  | rejected _ _ hv hr => exact ((h.tallyVotes hv).refundDeposits hr).setProposal
  | passed _ hv he => exact ((h.tallyVotes hv).executed he).setProposal

theorem endBlocker (h : s.Indexed) (hs : k.endBlocker ctx s = .ok s') : s'.Indexed := by
  rw [Keeper.endBlocker] at hs
  generalize s.getProposals = proposals at hs
  induction proposals generalizing s with
  | nil =>
    cases hs
    exact h
  | cons proposal proposals ih =>
    obtain ⟨s₁, h₁, hs⟩ := Fold.foldlM_cons_eq_ok.mp hs
    exact ih (h.processed (Keeper.of_processProposal h₁)) hs

theorem act {a : Action σ} (h : s.Indexed) (hs : k.act s a = .ok s') : s'.Indexed := by
  cases a with
  | call ctx c => exact h.call hs
  | endBlock ctx => exact h.endBlocker hs

end State.Indexed

theorem Store.eq_of {a b : Store σ} (hs : a.toState = b.toState)
    (hc : a.constitution = b.constitution) : a = b := by
  cases a
  cases b
  cases hs
  cases hc
  rfl

section Genesis

theorem foldl_setDeposit (deposits : List Deposit) (s : State σ) :
    deposits.foldl State.setDeposit s = { s with
      deposits := deposits.foldl
        (fun m deposit => m.set (join deposit.proposalId deposit.depositor) deposit)
        s.deposits } := by
  induction deposits generalizing s with
  | nil => rfl
  | cons deposit deposits ih => exact ih (s.setDeposit deposit)

theorem foldl_setVote (votes : List Vote) (s : State σ) :
    votes.foldl State.setVote s = { s with
      votes := votes.foldl
        (fun m vote => m.set (join vote.proposalId vote.voter) vote) s.votes } := by
  induction votes generalizing s with
  | nil => rfl
  | cons vote votes ih => exact ih (s.setVote vote)

theorem foldl_setProposal (proposals : List Proposal) (s : State σ) :
    proposals.foldl State.setProposal s = { s with
      proposals := proposals.foldl
        (fun m proposal => m.set proposal.id proposal) s.proposals } := by
  induction proposals generalizing s with
  | nil => rfl
  | cons proposal proposals ih => exact ih (s.setProposal proposal)

variable {s : Store σ} {genState : GenesisState}

-- A genesis that is written into an empty store is found there as it is.
theorem initGenesis_emptied :
    (initGenesis genState s.emptied).toState = { s.toState with
      proposals  := .ofValues Proposal.id genState.proposals
      votes      := .ofValues (fun vote => join vote.proposalId vote.voter) genState.votes
      deposits   := .ofValues (fun deposit => join deposit.proposalId deposit.depositor)
        genState.deposits
      params     := some genState.params
      proposalID := genState.startingProposalId } := by
  simp only [initGenesis, foldl_setDeposit, foldl_setVote, foldl_setProposal]
  rfl

theorem indexed_initGenesis : (initGenesis genState s.emptied).Indexed := by
  rw [initGenesis_emptied]
  exact ⟨KVStore.keyed_ofValues, KVStore.keyed_ofValues, KVStore.keyed_ofValues,
    Option.some_ne_none _⟩

-- The constitution is never set to the empty text.
theorem constitution_initGenesis : (initGenesis genState s.emptied).constitution ≠ some "" := by
  rw [initGenesis]
  dsimp only
  split_ifs with h
  · exact fun he => h (Option.some.inj he)
  · exact (Option.some_ne_none "").symm

theorem genesis_invariant {guard : Store σ → Action σ → Prop} :
    (genesisChain k).Invariant guard fun s => s.Indexed ∧ s.constitution ≠ some "" where
  init := by
    rintro _ ⟨genState, bank, rest, rfl⟩
    exact ⟨indexed_initGenesis (s := .blank bank rest),
      constitution_initGenesis (s := .blank bank rest)⟩
  step := by
    rintro s a s' ⟨hs, hc⟩ _ ⟨ha, he⟩
    exact ⟨hs.act ha, he ▸ hc⟩

theorem exportGenesis_ok (h : s.Indexed) : ∃ genState, exportGenesis s = .ok genState := by
  obtain ⟨params, hp⟩ := Option.ne_none_iff_exists'.mp h.params
  rw [exportGenesis, hp]
  exact ⟨_, rfl⟩

theorem initGenesis_exportGenesis (h : s.Indexed) (hc : s.constitution ≠ some "")
    (he : exportGenesis s = .ok genState) : initGenesis genState s.emptied = s := by
  simp only [exportGenesis, Result.bind_eq_ok, orFail_eq_ok, Result.pure_eq_ok] at he
  obtain ⟨params, hp, rfl⟩ := he
  refine Store.eq_of ?_ ?_
  case refine_1 =>
    rw [initGenesis_emptied, KVStore.ofValues_values h.votes, KVStore.ofValues_values h.deposits,
      ← hp]
    have hproposals : KVStore.ofValues Proposal.id s.getProposals = s.proposals :=
      KVStore.ofValues_values h.proposals
    rw [hproposals]
  case refine_2 =>
    cases hs : s.constitution with
    | none => rfl
    | some text =>
      have hne : text ≠ "" := fun ht => hc (ht ▸ hs)
      simp [initGenesis, hne]

end Genesis

-- Whatever the module has done since its genesis survives an export and an import.
theorem genesis_roundTrips (k : Keeper μ σ) {s : Store σ} (h : (genesisChain k).Reachable s) :
    ∃ genState, exportGenesis s = .ok genState ∧
      RoundTrips k s (initGenesis genState s.emptied) := by
  obtain ⟨hs, hc⟩ := genesis_invariant.holds h
  obtain ⟨genState, he⟩ := exportGenesis_ok hs
  refine ⟨genState, he, ?_⟩
  rw [initGenesis_exportGenesis hs hc he]
  exact ⟨rfl, rfl, rfl, rfl, rfl, rfl, fun _ => rfl⟩

namespace Sample

def opened : Store Unit :=
  initGenesis {
    startingProposalId := 1
    deposits           := []
    votes              := []
    proposals          := []
    params             := genesis.params.get rfl
    constitution       := "Test Constitution"
  } (.blank genesis.bank ())

def follow (s : Store Unit) (actions : List (Action Unit)) : Store Unit :=
  { s with toState := actions.foldl keeper.next s.toState }

-- A proposal that has a deposit and a vote.
def governed : Store Unit :=
  follow opened [submit 2 1 100 [], deposit 10, vote]

theorem follow_reachable {s : Store Unit} {actions : List (Action Unit)}
    (hs : (genesisChain keeper).Reachable s) (h : accepted s.toState actions = true) :
    (genesisChain keeper).Reachable (follow s actions) := by
  induction actions generalizing s with
  | nil => exact hs
  | cons a actions ih =>
    simp only [accepted, Bool.and_eq_true] at h
    refine ih (s := { s with toState := keeper.next s.toState a }) ?_ h.2
    exact .step hs trivial ⟨Keeper.act_next h.1.2, rfl⟩

theorem governed_reachable : (genesisChain keeper).Reachable governed :=
  follow_reachable (.init ⟨_, _, _, rfl⟩) (by decide +kernel)

end Sample

theorem governed_roundTrips : ∃ genState, exportGenesis Sample.governed = .ok genState ∧
    RoundTrips Sample.keeper Sample.governed (initGenesis genState Sample.governed.emptied) :=
  genesis_roundTrips Sample.keeper Sample.governed_reachable

end Governance
