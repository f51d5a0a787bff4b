import MallChain.Lib.Fold
import MallChain.Lib.Transition
import MallChain.Governance.Execution

namespace Governance

open Sdk

variable {μ σ : Type}

-- What can happen around the module: a message or anything else that leaves its store alone, and
-- the end of a block.
inductive Action (σ : Type)
  | call (ctx : Context) (c : Call σ)
  | endBlock (ctx : Context)

namespace Keeper

def act (k : Keeper μ σ) (s : State σ) : Action σ → Result (State σ)
  | .call ctx c => k.call ctx s c
  | .endBlock ctx => k.endBlocker ctx s

-- The state after an action. What fails is reverted.
def next (k : Keeper μ σ) (s : State σ) (a : Action σ) : State σ :=
  (k.act s a).toOption.getD s

theorem act_next {k : Keeper μ σ} {s : State σ} {a : Action σ} (h : (k.act s a).isOk = true) :
    k.act s a = .ok (k.next s a) := by
  rw [next]
  cases hs : k.act s a <;> simp_all [Except.isOk, Except.toBool, Except.toOption]

-- Nobody signs for the module account, which has no key.
def Allowed (k : Keeper μ σ) (a : Action σ) : Prop :=
  ∀ ctx msg, a = .call ctx (.own msg) → k.accAddressFromBech32 msg.signer ≠ some k.moduleAddr

def handlerOf (k : Keeper μ σ) (router : μ → Option (List (Call σ))) (msgAny : Any) :
    Option (List (Call σ)) :=
  (k.unpackAny msgAny).toOption.bind router

-- Everything that the handlers of the messages of a proposal do, when all of them have a handler.
def callsOf (k : Keeper μ σ) (proposal : Proposal) : Option (List (Call σ)) := do
  let router ← k.msgRouter
  return (← proposal.messages.mapM (k.handlerOf router)).flatten

-- The voting period of a proposal is over, and it passes with the votes that are tallied.
def Passing (k : Keeper μ σ) (ctx : Context) (s : State σ) (proposal : Proposal) (s' : State σ) :
    Prop :=
  proposal.status = .votingPeriod ∧ proposal.votingEndTime < ctx.blockTime ∧
    ∃ tally params, k.tallyVotes s proposal.id = .ok (s', tally) ∧ s'.params = some params ∧
      k.determineProposalOutcome s' tally params = .ok .passed

-- A condition on what is executed for the proposals at the end of a block.
def Executions (k : Keeper μ σ) (P : Context → State σ → List (Call σ) → Prop) (s : State σ) :
    Action σ → Prop
  | .call _ _ => True
  | .endBlock ctx => Fold.Along (k.processProposal ctx) (fun s proposal =>
      ∀ s' calls, k.Passing ctx s proposal s' → k.callsOf proposal = some calls →
        (k.runHandler ctx s' calls).isOk = true → P ctx s' calls) s.getProposals s

-- A condition on everything that is called, by the users or by the proposals.
def Calls (k : Keeper μ σ) (P : Context → State σ → Call σ → Prop) (s : State σ) (a : Action σ) :
    Prop :=
  (∀ ctx c, a = .call ctx c → P ctx s c) ∧
    k.Executions (fun ctx s calls => Fold.Along (k.call ctx) (P ctx) calls s) s a

theorem calls_of_call {k : Keeper μ σ} {P : Context → State σ → Call σ → Prop} {s : State σ}
    {ctx : Context} {c : Call σ} (h : P ctx s c) : k.Calls P s (.call ctx c) := by
  refine ⟨fun ctx' c' he => ?_, trivial⟩
  cases he
  exact h

end Keeper

-- The module before its first proposal.
structure State.Empty (moduleAddr : AccAddress) (s : State σ) : Prop where
  proposals : s.proposals = .empty
  deposits  : s.deposits = .empty
  events    : s.events = []
  balance   : ∀ denom, s.bank.balances moduleAddr denom = 0

-- A failure is no step.
def system (k : Keeper μ σ) : TransitionSystem (State σ) (Action σ) where
  init s      := s.Empty k.moduleAddr
  step s a s' := k.Allowed a ∧ k.act s a = .ok s'

-- A chain on which proposals send coins, and one account has all the stake.
namespace Sample

def mallory : AccAddress := .ofBytes [1]
def victim : AccAddress := .ofBytes [2]
def voter : AccAddress := .ofBytes [3]
def gov : AccAddress := .ofBytes [9]

structure MsgSend where
  fromAddress : AccAddress
  toAddress   : AccAddress
  amount      : Coins

-- The handler trusts the sender that the message names.
def MsgSend.handler (msg : MsgSend) : Call Unit :=
  .other fun _ bank _ => return (← bank.sendCoins msg.fromAddress msg.toAddress msg.amount, ())

def keeper : Keeper MsgSend Unit where
  unpackAny a := match a.value with
    | [from_, to_, amount] =>
      .ok ⟨.ofBytes [from_.toNat], .ofBytes [to_.toNat], [⟨"stake", amount.toNat⟩]⟩
    | _ => .error "unexpected EOF"
  getSigners msg := [msg.fromAddress]
  typeName _ := "*types.MsgSend"
  msgRouter := some fun msg => some [msg.handler]
  authority := gov
  authorityString := "gov"
  moduleAddr := gov
  accAddressFromBech32
    | "mallory" => some mallory
    | "victim" => some victim
    | "voter" => some voter
    | "gov" => some gov
    | _ => none
  valAddressFromBech32 _ := none
  stakingKeeper := some {
    getDelegatorDelegations := fun _ addr =>
      .ok (if addr = voter then [LegacyDec.ofInt 100] else [])
    totalBondedTokens       := fun _ => .ok 100
    validatorTokens         := fun _ _ => .error (.error "validator does not exist")
    slash                   := fun bank rest _ _ _ _ => .ok (bank, rest)
  }

def genesis : State Unit where
  bank       := {
    balances     := fun a d => if (a = mallory ∨ a = victim) ∧ d = "stake" then 100 else 0
    supply       := fun d => if d = "stake" then 200 else 0
    blockedAddrs := fun _ => false
  }
  params     := some {
    minDeposit    := [⟨"stake", 10⟩]
    votingPeriod  := 30
    quorum        := .withPrec 334 3
    threshold     := .withPrec 5 1
    vetoThreshold := .withPrec 334 3
  }
  proposalID := 1
  rest       := ()

def block (time : ℕ) : Context where
  blockHeight := time
  blockTime   := time

-- A proposal to send coins, with the deposit that comes with it.
def submit (fromAddr toAddr amount : UInt8) (initialDeposit : Coins) : Action Unit :=
  .call (block 0) <| .own <| .submitProposal {
    proposer       := "mallory"
    metadata       := ""
    title          := "send"
    summary        := "send"
    messages       := [⟨"/cosmos.bank.v1beta1.MsgSend", [fromAddr, toAddr, amount]⟩]
    initialDeposit := initialDeposit
    expedited      := false
  }

def deposit (amount : ℤ) : Action Unit :=
  .call (block 1) <| .own <| .deposit ⟨1, "mallory", [⟨"stake", amount⟩]⟩

def vote : Action Unit :=
  .call (block 2) <| .own <| .vote ⟨1, "voter", .yes, ""⟩

def endBlock : Action Unit :=
  .endBlock (block 40)

def run (actions : List (Action Unit)) : State Unit :=
  actions.foldl keeper.next genesis

theorem genesis_empty : genesis.Empty gov where
  proposals     := rfl
  deposits      := rfl
  events        := rfl
  balance denom := by
    have hg : ¬(gov = mallory ∨ gov = victim) := by decide
    simp [genesis, hg]

-- Every action of a run succeeds and is signed by somebody else than the module account.
def accepted : State Unit → List (Action Unit) → Bool
  | _, [] => true
  | s, a :: actions =>
    (match a with
      | .call _ (.own msg) => keeper.accAddressFromBech32 msg.signer ≠ some gov
      | _ => true) && (keeper.act s a).isOk && accepted (keeper.next s a) actions

theorem run_step {guard : State Unit → Action Unit → Prop} {s : State Unit} {a : Action Unit}
    (hs : (system keeper).Run guard s) (hg : guard s a) (h : accepted s [a] = true) :
    (system keeper).Run guard (keeper.next s a) := by
  simp only [accepted, Bool.and_eq_true] at h
  obtain ⟨⟨ha, ho⟩, _⟩ := h
  refine hs.step hg ⟨?_, Keeper.act_next ho⟩
  rintro ctx msg rfl
  exact of_decide_eq_true ha

theorem run_reachable {actions : List (Action Unit)} {s : State Unit}
    (hs : (system keeper).Reachable s) (h : accepted s actions = true) :
    (system keeper).Reachable (actions.foldl keeper.next s) := by
  induction actions generalizing s with
  | nil => exact hs
  | cons a actions ih =>
    simp only [accepted, Bool.and_eq_true] at h
    exact ih (run_step hs trivial (by simpa [accepted] using h.1)) h.2

end Sample

end Governance
