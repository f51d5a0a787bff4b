import MallChain.Governance.System

namespace Governance

open Sdk

variable {μ σ : Type} {k : Keeper μ σ} {ctx : Context} {s s' : State σ} {msg : μ}
variable {router : μ → Option (List (Call σ))} {messages : List Any} {msgAny : Any} {i j : ℕ}

namespace Keeper

-- The messages that `ExecuteProposal` gives to their handlers.
def handledMessages (k : Keeper μ σ) (ctx : Context) (s : State σ) (proposal : Proposal) :
    List μ :=
  match k.msgRouter with
  | none => []
  | some router => (k.runMessages ctx router 0 s proposal.messages).1

-- Every message that has a handler is signed by the authority alone, or stands behind messages
-- that are not all executed.
def SignedByAuthority (k : Keeper μ σ) (ctx : Context) (s : State σ) (proposal : Proposal) : Prop :=
  ∀ router earlier msgAny later msg, k.msgRouter = some router →
    proposal.messages = earlier ++ msgAny :: later → k.unpackAny msgAny = .ok msg →
    (router msg).isSome = true → (k.runMessages ctx router 0 s earlier).2.isOk = true →
    k.getSigners msg = [k.authority]

-- A message is given to its handler exactly when all messages before it are executed.
theorem mem_runMessages : msg ∈ (k.runMessages ctx router i s messages).1 ↔
    ∃ earlier msgAny later, messages = earlier ++ msgAny :: later ∧ k.unpackAny msgAny = .ok msg ∧
      (router msg).isSome = true ∧ (k.runMessages ctx router i s earlier).2.isOk = true := by
  induction messages generalizing i s with
  | nil => simp [runMessages]
  | cons msgAny messages ih =>
    -- The message is the first one, or it is reached behind the first one.
    have hsplit : (∃ earlier msgAny' later, msgAny :: messages = earlier ++ msgAny' :: later ∧
        k.unpackAny msgAny' = .ok msg ∧ (router msg).isSome = true ∧
          (k.runMessages ctx router i s earlier).2.isOk = true) ↔
        (k.unpackAny msgAny = .ok msg ∧ (router msg).isSome = true) ∨
          ∃ earlier msgAny' later, messages = earlier ++ msgAny' :: later ∧
            k.unpackAny msgAny' = .ok msg ∧ (router msg).isSome = true ∧
              (k.runMessages ctx router i s (msgAny :: earlier)).2.isOk = true := by
      constructor
      · rintro ⟨_ | ⟨a, earlier⟩, msgAny', later, he, hu, hr, ho⟩
        · cases he
          exact .inl ⟨hu, hr⟩
        · cases he
          exact .inr ⟨earlier, msgAny', later, rfl, hu, hr, ho⟩
      · rintro (⟨hu, hr⟩ | ⟨earlier, msgAny', later, rfl, hu, hr, ho⟩)
        · exact ⟨[], msgAny, messages, rfl, hu, hr, rfl⟩
        · exact ⟨msgAny :: earlier, msgAny', later, rfl, hu, hr, ho⟩
    rw [hsplit]
    cases hu : k.unpackAny msgAny with
    | error _ => simp [runMessages_unpack hu, Except.isOk, Except.toBool]
    | ok m =>
      cases hr : router m with
      | none =>
        have hne : m = msg → router msg = none := fun he => he ▸ hr
        simpa [runMessages_noHandler hu hr, Except.isOk, Except.toBool] using hne
      | some handler =>
        have hfirst : (Except.ok m : Except String μ) = .ok msg ∧ (router msg).isSome = true ↔
            msg = m := by
          constructor
          · rintro ⟨he, _⟩
            cases he
            rfl
          · rintro rfl
            simp [hr]
        rw [hfirst]
        cases hs : k.runHandler ctx s handler with
        | error _ => simp [runMessages_handler hu hr hs, Except.isOk, Except.toBool]
        | ok s' => simp only [runMessages_ok hu hr hs, List.mem_cons, ih]

end Keeper

namespace Sample

-- The proposal sends the coins of the victim to the proposer.
def theft : State Unit :=
  run [submit 2 1 100 [], deposit 10, vote]

end Sample

end Governance
