import MallChain.Trade.System

namespace Trade

open Interleaving

def PurchaseStatus.isClaimed : PurchaseStatus → Bool
  | processing | credited => true
  | _                     => false

namespace World

variable (w : World) (quoteId : String)

-- Whether the coins of a purchase may be on their way.
def isClaimed : Bool :=
  (w.purchases.get quoteId).any (·.status.isClaimed)

-- A purchase may be claimed once more.
def mayClaim : ℕ :=
  if w.isClaimed quoteId then 0 else 1

-- How often the coins of a purchase were sent.
def credits : ℕ :=
  w.events.countP fun | .credited id _ => id = quoteId | _ => false

end World

-- What is saved after a request to the phone, or in a callback, is saved over no claim.
def saveGuard : Label → World → Prop
  | .savingPush quoteId, w | .savingCallback quoteId, w => w.isClaimed quoteId = false
  | _, _ => True

variable {w : World} {quoteId id : String} {C : String → Prop} {T : Target → Prop} {label : Label} {update : World → World}
  {own : ℕ}

section Store

variable {f : MallcoinPurchase → MallcoinPurchase} {d : Document MallcoinPurchase}

theorem isClaimed_updatePurchase :
    (w.updatePurchase id f).isClaimed id = (w.purchases.get id).any fun p => (f p).status.isClaimed := by
  rw [World.updatePurchase, World.isClaimed]
  cases h : w.purchases.get id with
  | none   => simp [h]
  | some p => simp

theorem isClaimed_updatePurchase_ne (h : quoteId ≠ id) :
    (w.updatePurchase id f).isClaimed quoteId = w.isClaimed quoteId := by
  rw [World.updatePurchase, World.isClaimed, World.isClaimed]
  cases w.purchases.get id with
  | none   => rfl
  | some p => rw [KVStore.get_set_ne h]

theorem events_updatePurchase : (w.updatePurchase id f).events = w.events := by
  rw [World.updatePurchase]
  cases w.purchases.get id <;> rfl

-- A save that claims nothing, over no claim.
theorem isClaimed_savePurchase (hd : d.current.status.isClaimed = false) (h : w.isClaimed id = false) :
    (w.updatePurchase id (savePurchase d)).isClaimed quoteId = w.isClaimed quoteId := by
  by_cases heq : quoteId = id
  case neg => exact isClaimed_updatePurchase_ne heq
  case pos =>
    subst heq
    rw [h, isClaimed_updatePurchase]
    rw [World.isClaimed] at h
    cases hget : w.purchases.get quoteId with
    | none => rfl
    | some p =>
      rw [hget, Option.any_some] at h
      rw [Option.any_some, savePurchase]
      rcases d.written_or (·.status) p with hs | hs
      · rw [hs, h]
      · rw [hs, hd]

-- A save that leaves the status.
theorem isClaimed_keepStatus (hd : d.current.status = d.loaded.status) :
    (w.updatePurchase id (savePurchase d)).isClaimed quoteId = w.isClaimed quoteId := by
  by_cases heq : quoteId = id
  case neg => exact isClaimed_updatePurchase_ne heq
  case pos =>
    subst heq
    rw [isClaimed_updatePurchase, World.isClaimed]
    congr 1
    funext p
    rw [savePurchase, Document.written_stored hd]

theorem isClaimed_insertPurchase {purchase : MallcoinPurchase} {buyPrice : ℚ}
    (h : purchase.status = .pending) :
    (insertPurchase id purchase buyPrice w).isClaimed quoteId = w.isClaimed quoteId := by
  rw [insertPurchase]
  cases hget : w.purchases.get id with
  | some _ => rfl
  | none   =>
    dsimp only [World.record, World.isClaimed]
    rw [KVStore.get_set]
    split_ifs with heq
    case pos =>
      rw [heq, hget, Option.any_some, h]
      rfl
    case neg => rfl

theorem credits_record {e : Event} (h : ∀ amount, e ≠ .credited quoteId amount) :
    (w.record e).credits quoteId = w.credits quoteId := by
  rw [World.credits, World.record, List.countP_cons_of_neg]
  · rfl
  · cases e with
    | credited id amount =>
      simp only [decide_eq_true_eq]
      rintro rfl
      exact h amount rfl
    | _ => simp

end Store

-- What a request leaves of the purchases that it may not credit.
theorem Effect.leaves (h : Effect C T label update) (hC : ¬C quoteId)
    (hg : saveGuard label w) : (update w).isClaimed quoteId = w.isClaimed quoteId ∧
      (update w).credits quoteId = w.credits quoteId := by
  have hne : ∀ {id}, C id → quoteId ≠ id := by
    rintro id hid rfl
    exact hC hid
  have hevents : ∀ {w' : World}, w'.events = w.events → w'.credits quoteId = w.credits quoteId := by
    intro w' he
    rw [World.credits, he]
    rfl
  cases h with
  | silent => exact ⟨rfl, rfl⟩
  | reserve purchase hpending =>
    refine ⟨isClaimed_insertPurchase hpending, ?_⟩
    rw [insertPurchase]
    split
    case h_1 => rfl
    case h_2 => exact credits_record (by simp)
  | push => exact ⟨rfl, credits_record (by simp)⟩
  | savePush hstatus _ _ _ =>
    exact ⟨isClaimed_savePurchase (by rw [hstatus]; rfl) hg, hevents events_updatePurchase⟩
  | collect paymentId hu =>
    rcases hu w with hw | hw
    · rw [hw]
      exact ⟨rfl, rfl⟩
    · rw [hw]
      exact ⟨rfl, credits_record (by simp)⟩
  | saveCallback hstatus _ _ _ =>
    refine ⟨isClaimed_savePurchase ?_ hg, hevents events_updatePurchase⟩
    rcases hstatus with hs | hs
    · rw [hs]
      rfl
    · rw [hs]
      rfl
  | acknowledge => exact ⟨rfl, credits_record (by simp)⟩
  | claim hid =>
    rw [Trade.claim]
    split
    case h_2 => exact ⟨rfl, rfl⟩
    case h_1 =>
      split_ifs
      case pos =>
        refine ⟨?_, rfl⟩
        rw [World.isClaimed, KVStore.get_set_ne (hne hid)]
        rfl
      case neg => exact ⟨rfl, rfl⟩
  | credit hid =>
    refine ⟨rfl, credits_record fun amount heq => ?_⟩
    cases heq
    exact hC hid
  | provide _ =>
    dsimp only
    split_ifs
    case pos => exact ⟨rfl, credits_record (by simp)⟩
    case neg => exact ⟨rfl, rfl⟩
  | settle hid he =>
    cases he with
    | provide =>
      dsimp only
      split_ifs
      case pos => exact ⟨rfl, credits_record (by simp)⟩
      case neg => exact ⟨rfl, rfl⟩
    | ensure => exact ⟨rfl, rfl⟩
    | save _ _ => exact ⟨isClaimed_updatePurchase_ne (hne hid), hevents events_updatePurchase⟩
  | detect _ =>
    rw [insertReconciliation]
    split_ifs <;> exact ⟨rfl, rfl⟩
  | attempt => exact ⟨rfl, credits_record (by simp)⟩
  | reconcile =>
    dsimp only [World.updateReconciliation]
    split <;> exact ⟨rfl, rfl⟩
  | saveCompensation _ hstatus _ _ =>
    exact ⟨isClaimed_keepStatus hstatus, hevents events_updatePurchase⟩
  | remove acc _ =>
    dsimp only [beginConversion, World.updateAccount]
    split <;> exact ⟨rfl, rfl⟩
  | send => exact ⟨rfl, credits_record (by simp)⟩
  | restore acc =>
    dsimp only [World.updateAccount]
    split <;> exact ⟨rfl, rfl⟩
  | enqueue _ => exact ⟨rfl, rfl⟩
  | take _ => exact ⟨rfl, rfl⟩

theorem mayClaim_le {w' : World} (h : w.isClaimed quoteId = true → w'.isClaimed quoteId = true) :
    w'.mayClaim quoteId ≤ w.mayClaim quoteId := by
  rw [World.mayClaim, World.mayClaim]
  by_cases hc : w.isClaimed quoteId = true
  case pos => rw [if_pos hc, if_pos (h hc)]
  case neg =>
    rw [if_neg hc]
    split_ifs <;> omega

-- After the coins were sent the claim stays.
theorem CreditEffect.leaves (h : CreditEffect quoteId label update) :
    (update w).credits quoteId = w.credits quoteId ∧
      (w.isClaimed quoteId = true → (update w).isClaimed quoteId = true) := by
  cases h with
  | provide =>
    dsimp only
    split_ifs
    case pos => exact ⟨credits_record (by simp), fun hc => hc⟩
    case neg => exact ⟨rfl, fun hc => hc⟩
  | ensure => exact ⟨rfl, fun hc => hc⟩
  | @save d hloaded hcurrent =>
    refine ⟨?_, fun hc => ?_⟩
    · rw [World.credits, events_updatePurchase]
      rfl
    · rw [isClaimed_updatePurchase]
      rw [World.isClaimed] at hc
      cases hget : w.purchases.get quoteId with
      | none =>
        rw [hget] at hc
        cases hc
      | some p =>
        have hne : d.current.status ≠ d.loaded.status := by
          rw [hloaded, hcurrent]
          simp
        rw [Option.any_some, savePurchase, Document.written_current hne, hcurrent]
        rfl

-- A program owns the credit of a purchase that it has claimed and not yet sent.
def creditContract (quoteId : String) : Contract Label World ℕ where
  invariant w owned := w.credits quoteId + owned + w.mayClaim quoteId ≤ 1
  grows _ _         := True
  guard             := saveGuard
  refl _            := trivial
  trans _ _         := trivial

theorem Effect.keeps (h : Effect C T label update) (hC : ¬C quoteId) :
    (creditContract quoteId).Keeps label update := by
  intro w own hg hI
  obtain ⟨hclaimed, hcredits⟩ := h.leaves hC hg
  refine ⟨?_, trivial⟩
  simp only [creditContract, World.mayClaim] at hI ⊢
  rw [hclaimed, hcredits]
  exact hI

theorem CreditEffect.keeps (h : CreditEffect quoteId label update) :
    (creditContract quoteId).Keeps label update := by
  intro w own hg hI
  obtain ⟨hcredits, hclaimed⟩ := h.leaves (w := w)
  refine ⟨?_, trivial⟩
  have hle := mayClaim_le hclaimed
  simp only [creditContract] at hI ⊢
  omega

theorem claim_of_unclaimed (h : claimed quoteId w = none) : claim quoteId w = w := by
  rw [claimed] at h
  rw [claim]
  cases hget : w.purchases.get quoteId with
  | none   => rfl
  | some p =>
    rw [hget] at h
    dsimp only at h ⊢
    split_ifs at h ⊢
    rfl

theorem handleReservedCredit_handles {walletAddress transfer : Option String} {provision : Provision} :
    (creditContract quoteId).Handles (handleReservedCredit quoteId walletAddress transfer provision)
      w 0 := by
  apply Contract.Safe.read
  intro w₁ _ _
  cases w₁.purchases.get quoteId with
  | none => exact Contract.Handles.done
  | some current =>
    refine Contract.Safe.ite (fun _ => Contract.Handles.done) fun _ => ?_
    refine Contract.Safe.ite (fun _ => Contract.Handles.done) fun _ => ?_
    apply Contract.Safe.act
    intro w₂ _ _ others hI
    cases hclaimed : claimed quoteId w₂ with
    | none => exact ⟨0, by rwa [claim_of_unclaimed hclaimed], trivial, Contract.Handles.done⟩
    | some purchase =>
      obtain ⟨stored, hget, hconfirmed, hpurchase⟩ := of_claimed hclaimed
      refine ⟨1, ?_, trivial, ?_⟩
      case refine_1 =>
        have hbefore : w₂.isClaimed quoteId = false := by
          rw [World.isClaimed, hget, Option.any_some, hconfirmed]
          rfl
        have hafter : (claim quoteId w₂).isClaimed quoteId = true := by
          rw [claim, hget]
          dsimp only
          rw [if_pos hconfirmed, World.isClaimed, KVStore.get_set_self]
          rfl
        have hcredits : (claim quoteId w₂).credits quoteId = w₂.credits quoteId := by
          rw [claim, hget]
          dsimp only
          rw [if_pos hconfirmed]
          rfl
        simp only [creditContract, World.mayClaim, hbefore, hafter, hcredits] at hI ⊢
        simp at hI ⊢
        omega
      case refine_2 =>
        apply Contract.Safe.write
        intro w₃ _ _ others hI
        refine ⟨0, ?_, trivial, ?_⟩
        case refine_1 =>
          have hcredits : (w₃.record (.credited quoteId purchase.amount)).credits quoteId =
              w₃.credits quoteId + 1 := by
            rw [World.credits, World.record, List.countP_cons_of_pos (by simp)]
            rfl
          simp only [creditContract] at hI ⊢
          rw [hcredits]
          have hclaim : (w₃.record (.credited quoteId purchase.amount)).mayClaim quoteId =
              w₃.mayClaim quoteId := rfl
          omega
        case refine_2 =>
          cases transfer with
          | none => exact Contract.Handles.done
          | some txHash =>
            have hprocessing : purchase.status = .processing := by rw [hpurchase]
            exact Contract.Handles.of_keeps ((settleCredit_steps hprocessing).mono CreditEffect.keeps)

def creditSystem (maxPerRequest : ℚ) (quoteId : String) :
    TransitionSystem (Pool Label World) (Action Request) :=
  system (fun w => w.credits quoteId = 0) (Request.handler maxPerRequest)

instance : (label : Label) → (w : World) → Decidable (saveGuard label w)
  | .savingPush _, _ | .savingCallback _, _ => inferInstanceAs (Decidable (_ = _))
  | .read, _ | .write, _ | .reserving _ _ _, _ | .pushing _ _ _, _ | .collecting _, _ | .delivering _ _, _ | .providing _, _
  | .requeueing _, _ | .removing _ _, _ | .restoring _ _ _, _ => .isTrue trivial

namespace Sample

def bought : List Request :=
  [.reserve "quote" "alice" 10 1000 100, .mpesa "quote" 1000 { answered := some "push" },
    .callback "push" 0 {}, .credit "quote" none (some "tx") (.added "add" 1 none)]

def executed (actions : List (Action Request)) : Pool Label World :=
  Pool.execs (Request.handler 500000) { store := {}, running := [] } actions

-- A callback that has read the purchase before another one confirms it, and saves it after the credit.
def staleCallback : List (Action Request) :=
  inTurn 5 (bought.take 2) ++ [.start (.callback "push" 0 {}), .run 2, .start (.callback "push" 0 {})] ++
    List.replicate 3 (.run 3) ++ [.start (.credit "quote" none (some "tx") (.added "add" 1 none))] ++
    List.replicate 6 (.run 4) ++ [.run 2, .start (.credit "quote" none (some "tx2") (.added "add2" 1 none))] ++
    List.replicate 3 (.run 5)

end Sample

-- The coins of a purchase are sent at most once, and it stays claimed then.
theorem credited_at_most_once (maxPerRequest : ℚ) (quoteId : String) (p : Pool Label World)
    (h : (creditSystem maxPerRequest quoteId).Run (fun p a => p.Meets saveGuard a) p) :
    p.store.credits quoteId ≤ 1 ∧
      (0 < p.store.credits quoteId → p.store.isClaimed quoteId = true) := by
  have hinv : (creditSystem maxPerRequest quoteId).Invariant
      (fun p a => p.Meets (creditContract quoteId).guard a)
      fun p => ∃ owned, (creditContract quoteId).Holds p owned :=
    Contract.invariant_of_handles ?init ?handles
  case init =>
    intro w hw
    simp only [creditContract]
    rw [hw, World.mayClaim]
    split_ifs <;> omega
  case handles =>
    intro request w
    by_cases hC : request.credits quoteId
    case neg =>
      exact Contract.Handles.of_keeps ((handler_steps maxPerRequest request).mono fun he => he.keeps hC)
    case pos =>
      cases request with
      | credit id walletAddress transfer provision =>
        cases hC
        exact handleReservedCredit_handles
      | _ => exact absurd hC (by simp [Request.credits])
  obtain ⟨owned, hp⟩ := hinv.holds h
  have hle := hp.invariant
  simp only [creditContract, World.mayClaim] at hle
  split_ifs at hle with hclaimed
  case pos => exact ⟨by omega, fun _ => hclaimed⟩
  case neg => exact ⟨by omega, fun hpos => by omega⟩

theorem sample_credited_at_most_once :
    (Sample.executed (inTurn 5 Sample.bought)).store.credits "quote" ≤ 1 ∧
      (0 < (Sample.executed (inTurn 5 Sample.bought)).store.credits "quote" →
        (Sample.executed (inTurn 5 Sample.bought)).store.isClaimed "quote" = true) :=
  credited_at_most_once 500000 "quote" _ (run_from rfl (by decide +kernel))

-- A duplicate of a callback undoes the claim of a purchase, which is then credited once more.
theorem stale_callback_credits_twice :
    ¬∀ (maxPerRequest : ℚ) (quoteId : String) (p : Pool Label World),
      (creditSystem maxPerRequest quoteId).Reachable p → p.store.credits quoteId ≤ 1 ∧
        (0 < p.store.credits quoteId → p.store.isClaimed quoteId = true) := by
  intro h
  exact absurd (h 500000 "quote" (Sample.executed Sample.staleCallback) (reachable_from rfl)).1
    (by decide +kernel)

end Trade
