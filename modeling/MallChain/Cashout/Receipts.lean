import MallChain.Cashout.Gates

namespace Cashout

open Interleaving

structure Transfer where
  sender    : String
  recipient : String
  amount    : ℚ

-- What the chain makes of the bytes of a transaction: the transfers of the coin in it, and whether it
-- succeeds in its block. The operator has one address.
structure Chain where
  transfers : String → List Transfer
  executes  : String → Bool
  operator  : String

namespace Chain

variable (C : Chain) (txBytes : String) (withdrawal : WithdrawalRequest)

def received : ℚ :=
  (((C.transfers txBytes).filter fun t =>
    t.sender = withdrawal.walletAddress ∧ t.recipient = C.operator).map (·.amount)).sum

-- The transaction pays for the coins of a withdrawal.
def Pays : Prop :=
  C.executes txBytes = true ∧ withdrawal.amountMlcns ≤ C.received txBytes withdrawal

instance decidablePays : Decidable (C.Pays txBytes withdrawal) :=
  inferInstanceAs (Decidable (_ ∧ _))

end Chain

-- A withdrawal is paid for coins that were received, with a transaction that no other one has used.
def PaidFor (C : Chain) (id : String) (w : World) : Prop :=
  ∀ {payoutRef amount}, .paid id payoutRef amount ∈ w.events → ∃ txBytes withdrawal,
    (txBytes, id) ∈ w.accepted ∧ w.withdrawals.get id = some withdrawal ∧ C.Pays txBytes withdrawal ∧
    ∀ id', (txBytes, id') ∈ w.accepted → id' = id

-- An admin retries the withdrawal.
def retries (id : String) : Action Request → Bool
  | .start (.retry id' _) => id' = id
  | _                     => false

-- No admin retries the withdrawal, and what the chain accepts for it pays for its coins.
def Honest (C : Chain) (cfg : Config) (id : String) (p : Pool Label World) (a : Action Request) : Prop :=
  retries id a = false ∧
  ∀ e ∈ (p.exec (Request.handler cfg) a).store.accepted, e ∉ p.store.accepted → e.2 = id →
    ∀ withdrawal ∈ p.store.withdrawals.get id, C.Pays e.1 withdrawal

instance decidableHonest {C : Chain} {cfg : Config} {id : String} {p : Pool Label World}
    {a : Action Request} : Decidable (Honest C cfg id p a) :=
  inferInstanceAs (Decidable (_ ∧ _))

namespace World

variable (w : World) (id : String)

def isStored : Bool :=
  (w.withdrawals.get id).isSome

-- Who sells how many coins with a withdrawal.
def seller : Option (String × ℚ) :=
  (w.withdrawals.get id).map fun withdrawal => (withdrawal.walletAddress, withdrawal.amountMlcns)

-- A transaction was accepted for the withdrawal.
def isSettled : Bool :=
  w.accepted.any (·.2 = id)

end World

structure Receipted (id : String) (w : World) : Prop where
  unique : (w.accepted.map (·.1)).Nodup
  stored : w.isSettled id = true → w.isStored id = true
  paid   : ∀ {payoutRef amount}, .paid id payoutRef amount ∈ w.events → w.isSettled id = true

structure Progress (id : String) (w w' : World) : Prop where
  stored  : w.isStored id = true → w'.isStored id = true
  settled : w.isSettled id = true → w'.isSettled id = true

theorem Progress.refl (id : String) (w : World) : Progress id w w :=
  ⟨fun h => h, fun h => h⟩

def receiptContract (id : String) : Contract Label World Unit where
  invariant w _ := Receipted id w
  grows         := Progress id
  guard _ _     := True
  refl          := Progress.refl id
  trans h h'    := ⟨fun hs => h'.stored (h.stored hs), fun hs => h'.settled (h.settled hs)⟩

variable {w w' : World} {id id' : String} {label : Label} {update : World → World} {D : String → Prop}

-- The withdrawal is neither paid nor is a transaction accepted, and its seller stays.
structure Undisturbed (id : String) (w w' : World) : Prop where
  accepted : w'.accepted = w.accepted
  seller   : w.isStored id = true → w'.seller id = w.seller id
  paid     : ∀ {payoutRef amount}, .paid id payoutRef amount ∈ w'.events →
    .paid id payoutRef amount ∈ w.events

theorem isStored_eq : w.isStored id = (w.seller id).isSome :=
  (Option.isSome_map ..).symm

namespace Undisturbed

theorem stored (hu : Undisturbed id w w') (h : w.isStored id = true) : w'.isStored id = true := by
  rw [isStored_eq, hu.seller h, ← isStored_eq]
  exact h

theorem receipted (hu : Undisturbed id w w') (h : Receipted id w) :
    Receipted id w' ∧ Progress id w w' := by
  have hsettled : w'.isSettled id = w.isSettled id := by rw [World.isSettled, World.isSettled, hu.accepted]
  refine ⟨⟨?_, ?_, ?_⟩, ⟨hu.stored, ?_⟩⟩
  case refine_1 =>
    rw [hu.accepted]
    exact h.unique
  case refine_2 =>
    rw [hsettled]
    exact fun hs => hu.stored (h.stored hs)
  case refine_3 =>
    rw [hsettled]
    exact fun hp => h.paid (hu.paid hp)
  case refine_4 =>
    rw [hsettled]
    exact fun hs => hs

theorem refl : Undisturbed id w w :=
  ⟨rfl, fun _ => rfl, fun h => h⟩

theorem trans {w'' : World} (h : Undisturbed id w w') (h' : Undisturbed id w' w'') :
    Undisturbed id w w'' :=
  ⟨h'.accepted.trans h.accepted, fun hs => (h'.seller (h.stored hs)).trans (h.seller hs),
    fun hp => h.paid (h'.paid hp)⟩

-- An event that is no payout of the withdrawal.
theorem record {e : Event} (he : ∀ payoutRef amount, e ≠ .paid id payoutRef amount) :
    Undisturbed id w (w.record e) where
  accepted := rfl
  seller _ := rfl
  paid {payoutRef amount} hp := (List.mem_cons.mp hp).resolve_left (Ne.symm (he payoutRef amount))

theorem updateSale {saleId : String} {f : MallcoinSale → MallcoinSale} :
    Undisturbed id w (w.updateSale saleId f) := by
  rw [World.updateSale]
  split <;> exact ⟨rfl, fun _ => rfl, fun h => h⟩

theorem updateReview {reviewId : String} {f : WithdrawalAmlReview → WithdrawalAmlReview} :
    Undisturbed id w (w.updateReview reviewId f) := by
  rw [World.updateReview]
  split <;> exact ⟨rfl, fun _ => rfl, fun h => h⟩

theorem updatePayout {saleId : String} {f : B2CPayout → B2CPayout} :
    Undisturbed id w (w.updatePayout saleId f) := by
  rw [World.updatePayout]
  split <;> exact ⟨rfl, fun _ => rfl, fun h => h⟩

theorem insertPayout {saleId : String} {payout : B2CPayout} :
    Undisturbed id w (insertPayout saleId payout w) := by
  rw [Cashout.insertPayout]
  split <;> exact ⟨rfl, fun _ => rfl, fun h => h⟩

theorem insertSale {saleId : String} {sale : MallcoinSale} :
    Undisturbed id w (insertSale saleId sale w) := by
  rw [Cashout.insertSale]
  split <;> exact ⟨rfl, fun _ => rfl, fun h => h⟩

theorem decided : Undisturbed id w (w.decided id') :=
  ⟨rfl, fun _ => rfl, fun h => h⟩

theorem found : Undisturbed id w (found id' w) := by
  rw [Cashout.found]
  split_ifs <;> exact ⟨rfl, fun _ => rfl, fun h => h⟩

theorem setWithdrawal {withdrawal : WithdrawalRequest}
    (h : id' = id → w.isStored id = true →
      w.seller id = some (withdrawal.walletAddress, withdrawal.amountMlcns)) :
    Undisturbed id w { w with withdrawals := w.withdrawals.set id' withdrawal } where
  accepted  := rfl
  seller hs := by
    rw [World.seller, KVStore.get_set]
    split_ifs with heq
    case pos => exact (h heq.symm hs).symm
    case neg => rfl
  paid h    := h

theorem insertWithdrawal {withdrawal : WithdrawalRequest} :
    Undisturbed id w (insertWithdrawal id' withdrawal w) := by
  rw [Cashout.insertWithdrawal]
  split
  case h_1 => exact refl
  case h_2 hget =>
    apply setWithdrawal
    rintro rfl hs
    rw [World.isStored, hget] at hs
    cases hs

theorem saveWithdrawal {d : Document WithdrawalRequest} :
    Undisturbed id w (w.updateWithdrawal id' (saveWithdrawalOn d)) := by
  rw [World.updateWithdrawal]
  split
  case h_2 => exact refl
  case h_1 stored hget =>
    have hset : Undisturbed id w
        { w with withdrawals := w.withdrawals.set id' (saveWithdrawalOn d stored) } := by
      apply setWithdrawal
      rintro rfl _
      rw [World.seller, hget]
      rfl
    dsimp only
    split_ifs
    case pos => exact hset.trans (record fun _ _ => by simp)
    case neg => exact hset

theorem resolved {d : Document WithdrawalRequest} {outcome : Outcome} :
    Undisturbed id w
      (((w.updateWithdrawal id' (saveWithdrawalOn d)).decided id').record (.resolved id' outcome)) :=
  (saveWithdrawal.trans decided).trans (record fun _ _ => by simp)

end Undisturbed

theorem CallbackEffect.undisturbed {payoutRef : String} {resultCode : ℤ}
    (he : CallbackEffect payoutRef resultCode label update) : Undisturbed id w (update w) := by
  cases he with
  | silent => exact .refl
  | acknowledge => exact .record fun _ _ => by simp
  | savePayout d => exact .updatePayout
  | saveSale d => exact .updateSale
  | save d => exact .saveWithdrawal

-- The chain accepts a transaction for a withdrawal that is stored.
theorem Receipted.accept {txBytes : String} (h : Receipted id w) (ha : Accepts id' txBytes w w')
    (hs : id' = id → w.isStored id = true) : Receipted id w' ∧ Progress id w w' := by
  cases ha with
  | unchanged => exact ⟨h, .refl id w⟩
  | accepted hn =>
    refine ⟨⟨?_, ?_, ?_⟩, ⟨fun hs => hs, ?_⟩⟩
    case refine_1 =>
      rw [List.map_cons, List.nodup_cons]
      refine ⟨?_, h.unique⟩
      intro hm
      obtain ⟨e, he, heq⟩ := List.mem_map.mp hm
      rw [World.hasAccepted, List.any_eq_false] at hn
      exact hn e he (decide_eq_true heq)
    case refine_2 =>
      intro hsettled
      rw [World.isSettled, List.any_cons, Bool.or_eq_true, decide_eq_true_eq] at hsettled
      cases hsettled with
      | inl heq => exact hs heq
      | inr hsettled => exact h.stored hsettled
    case refine_3 =>
      intro payoutRef amount hp
      rw [World.isSettled, List.any_cons, Bool.or_eq_true]
      exact .inr (h.paid hp)
    case refine_4 =>
      intro hsettled
      rw [World.isSettled, List.any_cons, Bool.or_eq_true]
      exact .inr hsettled

theorem Receipted.pay {payoutRef : Option String} {amount : ℚ} (h : Receipted id w)
    (hs : id' = id → w.isSettled id = true) :
    Receipted id (w.record (.paid id' payoutRef amount)) ∧
      Progress id w (w.record (.paid id' payoutRef amount)) := by
  refine ⟨⟨h.unique, h.stored, ?_⟩, ⟨fun hs => hs, fun hs => hs⟩⟩
  intro payoutRef' amount' hp
  cases List.mem_cons.mp hp with
  | inl heq =>
    cases heq
    exact hs rfl
  | inr hp => exact h.paid hp

-- A step keeps the receipts where a transaction was accepted for what it pays or decides.
theorem Effect.keeps_receipts (he : Effect D label update) :
    (receiptContract id).KeepsWhere (fun w => D id → w.isSettled id = true) label update := by
  intro w _ hK _ h
  cases he with
  | silent => exact Undisturbed.refl.receipted h
  | accept txBytes hD hu =>
    exact Receipted.accept h (hu w) fun heq => Receipted.stored h (hK (heq ▸ hD))
  | consume => exact Undisturbed.updateReview.receipted h
  | deliver => exact (Undisturbed.record fun _ _ => by simp).receipted h
  | createSale req => exact Undisturbed.insertSale.receipted h
  | saveSale d => exact Undisturbed.updateSale.receipted h
  | create req phone estimatedKes reviewId => exact Undisturbed.insertWithdrawal.receipted h
  | save d => exact Undisturbed.saveWithdrawal.receipted h
  | createPayout => exact Undisturbed.insertPayout.receipted h
  | pay hD =>
    dsimp only
    split_ifs
    case pos => exact Receipted.pay h fun heq => hK (heq ▸ hD)
    case neg => exact Undisturbed.refl.receipted h
  | find hD => exact Undisturbed.found.receipted h
  | decided hD => exact Undisturbed.decided.receipted h
  | saveDecision d hD => exact (Undisturbed.saveWithdrawal.trans .decided).receipted h
  | saveResolve d hD => exact Undisturbed.resolved.receipted h

-- A program that keeps the receipts from a store on.
abbrev Respects {α : Type} (id : String) (q : Handler α) (w : World) : Prop :=
  (receiptContract id).Safe (fun _ _ _ => True) q w ()

section Handlers

variable {α β : Type} {q : Handler α} {f : α → Handler β} {cfg : Config} {o : Settlement}
  {saleId txBytes : String} {sale : Document MallcoinSale} {withdrawal : Document WithdrawalRequest}

theorem Respects.of_steps (hq : q.Steps (Effect D)) (hs : D id → w.isSettled id = true) :
    Respects id q w := by
  apply (Contract.Safe.of_keepsWhere ?_ (hq.mono Effect.keeps_receipts) hs).imp
  case _ => exact fun _ => trivial
  case _ => exact fun hgrows hK hD => hgrows.settled (hK hD)

theorem Respects.bind (hq : q.Steps (Effect fun _ => False))
    (hf : ∀ a w', Progress id w w' → Respects id (f a) w') : Respects id (q >>= f) w := by
  refine Contract.Safe.bind_keeps (hq.mono ?_) hf
  exact fun he w own hg hI => he.keeps_receipts w own (fun h => h.elim) hg hI

theorem broadcastSignedTx_respects {f : Broadcast → Handler β} {outcome : Broadcast}
    (hs : w.isStored id = true) (hf : ∀ broadcast w',
      (∀ txHash, broadcast = .ok txHash → w'.isSettled id = true) → Respects id (f broadcast) w') :
    Respects id (broadcastSignedTx id txBytes outcome >>= f) w := by
  apply Contract.Safe.act
  intro w₁ hgrows _ others hI
  have hsame : (∀ txHash, (if w₁.hasAccepted txBytes = true then .sequenceMismatch else outcome) ≠
      .ok txHash) → Respects id (f (if w₁.hasAccepted txBytes = true then .sequenceMismatch else outcome)) w₁ :=
    fun hne => hf _ w₁ fun txHash heq => absurd heq (hne txHash)
  cases outcome with
  | sequenceMismatch | failed =>
    refine ⟨(), hI, .refl id w₁, hsame fun txHash => ?_⟩
    split_ifs <;> simp
  | ok txHash =>
    dsimp only
    split_ifs with ha
    case pos => exact ⟨(), hI, .refl id w₁, hf _ w₁ fun _ heq => nomatch heq⟩
    case neg =>
      obtain ⟨hI', hgrows'⟩ := Receipted.accept hI (.accepted (Bool.eq_false_of_not_eq_true ha))
        fun _ => hgrows.stored hs
      refine ⟨(), hI', hgrows', hf _ _ fun _ _ => ?_⟩
      simp [World.isSettled]

theorem executeSellSettlement_respects (hs : id' = id → w.isStored id = true) :
    Respects id (executeSellSettlement cfg o saleId id' sale withdrawal txBytes) w := by
  by_cases heq : id' = id
  case neg =>
    apply Respects.of_steps (executeSellSettlement_steps (D := (· = id')) rfl)
    exact fun h => absurd h.symm heq
  case pos =>
    subst heq
    refine Contract.Safe.ite (fun _ => ?_) fun _ => broadcastSignedTx_respects (hs rfl) ?_
    case refine_1 => exact Respects.bind endSettlement_steps fun _ _ _ => trivial
    case refine_2 =>
      intro broadcast w₁ hsettled
      cases broadcast with
      | failed | sequenceMismatch => exact Respects.bind endSettlement_steps fun _ _ _ => trivial
      | ok txHash =>
        refine Respects.bind saveWithdrawal_steps fun _ w₂ hgrows₂ => ?_
        refine Respects.bind saveSale_steps fun _ w₃ hgrows₃ => ?_
        refine Respects.of_steps (D := (· = id')) ?_ ?_
        case refine_1 => exact .bind (settlePayout_steps rfl) fun _ => trivial
        case refine_2 => exact fun _ => hgrows₃.settled (hgrows₂.settled (hsettled txHash rfl))

theorem insertWithdrawal_stored {stored : WithdrawalRequest} :
    (insertWithdrawal id stored w).isStored id = true := by
  rw [insertWithdrawal, World.isStored]
  split
  case h_1 _ hget => rw [hget, Option.isSome_some]
  case h_2 => rw [KVStore.get_set_self, Option.isSome_some]

theorem sell_respects {req : SellRequest} : Respects id (sell cfg req) w := by
  by_cases heq : req.withdrawalId = id
  case neg =>
    exact Respects.of_steps (sell_steps (D := (· = req.withdrawalId)) rfl) fun h => absurd h.symm heq
  case pos =>
    subst heq
    refine Contract.Safe.ite (fun _ => trivial) fun _ => ?_
    split
    case h_1 => trivial
    case h_2 =>
      refine Contract.Safe.ite (fun _ => trivial) fun _ => ?_
      refine Respects.bind (.read .silent) fun count w₁ _ => ?_
      refine Contract.Safe.ite (fun _ => trivial) fun _ => ?_
      refine Respects.bind ?_ fun review w₂ _ => ?_
      case refine_1 => exact .ite (fun _ => trivial) fun _ => .bind (.read .silent) fun _ => trivial
      case refine_2 =>
        split
        case h_2 => trivial
        case h_1 =>
          refine Respects.bind (.act (.createSale req)) fun _ w₃ _ => ?_
          refine Contract.Safe.ite (fun _ => trivial) fun _ => ?_
          split
          case h_1 => trivial
          case h_2 phone _ =>
            apply Contract.Safe.act
            intro w₄ _ _ others hI
            obtain ⟨hI', hgrows⟩ := Undisturbed.insertWithdrawal.receipted hI
            refine ⟨(), hI', hgrows, Contract.Safe.ite (fun _ => trivial) fun _ => ?_⟩
            refine Respects.bind ?_ fun _ w₅ hgrows₅ => ?_
            · unfold consumeReview
              split
              case h_1 => trivial
              case h_2 => exact .write .consume
            · refine Contract.Safe.ite (fun _ => ?_) fun _ => ?_
              case refine_1 =>
                exact Respects.of_steps (D := fun _ => False) holdForLiquidity_steps fun h => h.elim
              case refine_2 =>
                apply Contract.Safe.bind
                apply (executeSellSettlement_respects fun _ => hgrows₅.stored insertWithdrawal_stored).imp
                exact fun _ => trivial

theorem releaseQueuedWithdrawal_respects {stored : WithdrawalRequest}
    (hs : id' = id → w.isStored id = true) :
    Respects id (releaseQueuedWithdrawal cfg o id' stored) w := by
  rw [releaseQueuedWithdrawal]
  split
  case h_2 => trivial
  case h_1 saleId =>
    refine Respects.bind (.read .silent) fun sale w₁ hgrows => ?_
    split
    case h_2 => trivial
    case h_1 sale =>
      split
      case h_2 => trivial
      case h_1 txBytes =>
        apply Contract.Safe.bind
        apply (executeSellSettlement_respects fun heq => hgrows.stored (hs heq)).imp
        intro result _ _ _
        split <;> trivial

theorem releaseEach_respects {outcome : String → Settlement} {reserveKes : ℚ}
    {l : List (String × WithdrawalRequest)} (hs : (∃ e ∈ l, e.1 = id) → w.isStored id = true) :
    Respects id (releaseEach cfg outcome reserveKes l) w := by
  induction l generalizing w reserveKes with
  | nil => trivial
  | cons e rest ih =>
    refine Contract.Safe.ite (fun _ => trivial) fun _ => ?_
    apply Contract.Safe.bind
    have hfirst : e.1 = id → w.isStored id = true := fun heq => hs ⟨e, List.mem_cons_self, heq⟩
    have hrest : (∃ e ∈ rest, e.1 = id) → w.isStored id = true := by
      rintro ⟨e', hm, heq⟩
      exact hs ⟨e', List.mem_cons_of_mem _ hm, heq⟩
    apply ((releaseQueuedWithdrawal_respects hfirst).frame
      (K := fun w => (∃ e ∈ rest, e.1 = id) → w.isStored id = true)
      (fun hgrows hK hex => hgrows.stored (hK hex)) hrest).imp
    intro result w₁ _ hpost
    split
    case h_1 => exact ih hpost.2
    case h_2 => exact ih hpost.2

theorem processQueuedWithdrawals_respects {outcome : String → Settlement} {reserveKes : ℚ} :
    Respects id (processQueuedWithdrawals cfg reserveKes outcome) w := by
  apply Contract.Safe.read
  intro w₁ _ _
  apply releaseEach_respects
  rintro ⟨e, he, heq⟩
  rw [queuedWithdrawals, List.mem_insertionSort, List.mem_filter] at he
  have hget : w₁.withdrawals.get e.1 = some e.2 := KVStore.mem_entries_iff.mp he.1
  rw [World.isStored, ← heq, hget, Option.isSome_some]

theorem handlePayoutCallback_respects {payoutRef : String} {resultCode : ℤ}
    {outcome : CallbackOutcome} : Respects id (handlePayoutCallback payoutRef resultCode outcome) w := by
  refine Contract.Safe.ite (fun _ => trivial) fun _ => ?_
  refine Respects.bind (.act .deliver) fun found w₁ _ => ?_
  apply (Contract.Safe.of_steps applyCallback_steps ?_).imp
  case _ => exact fun _ => trivial
  case _ => exact fun label update w _ he _ hI => he.undisturbed.receipted hI

theorem resolve_respects {outcome : Outcome} : Respects id (resolve id' outcome) w := by
  apply Contract.Safe.act
  intro w₁ _ _ others hI
  obtain ⟨hI', hgrows⟩ := Undisturbed.found.receipted hI
  refine ⟨(), hI', hgrows, ?_⟩
  split
  case h_2 => trivial
  case h_1 =>
    intro w₂ _ others hI₂ _
    obtain ⟨hI₂', hgrows₂⟩ := Undisturbed.resolved.receipted hI₂
    exact ⟨(), hI₂', hgrows₂, trivial⟩

theorem handler_respects {request : Request} (hr : retries id (.start request) = false) :
    (receiptContract id).Handles (request.handler cfg) w () := by
  have hrespects : Respects id (request.handler cfg) w := by
    cases request with
    | sell req => exact sell_respects
    | resign saleId txBytes =>
      exact Respects.of_steps (D := fun _ => False) resign_steps fun h => h.elim
    | processQueued reserveKes outcome => exact processQueuedWithdrawals_respects
    | callback payoutRef resultCode outcome => exact handlePayoutCallback_respects
    | status id => exact Respects.of_steps (D := fun _ => False) syncWithdrawalStatus_steps fun h => h.elim
    | retry id' payout =>
      apply Respects.of_steps (retry_steps (D := (· = id')) rfl)
      rintro rfl
      rw [retries, decide_eq_false_iff_not] at hr
      exact absurd rfl hr
    | resolve id' outcome => exact resolve_respects
  exact hrespects.imp fun _ => rfl

end Handlers

theorem Effect.kept (he : Effect D label update) :
    (update w).withdrawals = w.withdrawals ∨ Undisturbed id w (update w) := by
  cases he with
  | silent => exact .inr .refl
  | accept txBytes hD hu =>
    obtain ⟨accepted, hw⟩ := (hu w).only
    exact .inl (by rw [hw])
  | consume => exact .inr .updateReview
  | deliver => exact .inr (.record fun _ _ => by simp)
  | createSale req => exact .inr .insertSale
  | saveSale d => exact .inr .updateSale
  | create req phone estimatedKes reviewId => exact .inr .insertWithdrawal
  | save d => exact .inr .saveWithdrawal
  | createPayout => exact .inr .insertPayout
  | pay hD =>
    dsimp only
    split_ifs <;> exact .inl rfl
  | find hD => exact .inr .found
  | decided hD => exact .inr .decided
  | saveDecision d hD => exact .inr (Undisturbed.saveWithdrawal.trans .decided)
  | saveResolve d hD => exact .inr .resolved

section Runs

variable {C : Chain} {cfg : Config} {p : Pool Label World} {txBytes : String}
  {withdrawal withdrawal' : WithdrawalRequest}

def receiptSystem (cfg : Config) : TransitionSystem (Pool Label World) (Action Request) :=
  system (fun w => w.accepted = [] ∧ w.events = []) (Request.handler cfg)

theorem receipted_of_run (h : (receiptSystem cfg).Run (Honest C cfg id) p) : Receipted id p.store := by
  have hinv : (receiptSystem cfg).Invariant (Honest C cfg id)
      fun p => ∃ owned, (receiptContract id).Holds p owned := by
    apply Contract.invariant_of_requests
    case hinit =>
      intro w hw
      refine ⟨?_, ?_, ?_⟩
      all_goals simp [hw.1, hw.2, World.isSettled]
    case hg =>
      intro p a _
      cases a with
      | start request => trivial
      | run i =>
        rw [Pool.Meets]
        split <;> trivial
    case hr =>
      intro p request hc w
      exact handler_respects hc.1
  obtain ⟨owned, hp⟩ := hinv.holds h
  exact hp.invariant

theorem exec_kept (id : String) (a : Action Request) (h : (receiptSystem cfg).Reachable p) :
    (p.exec (Request.handler cfg) a).store.withdrawals = p.store.withdrawals ∨
      Undisturbed id p.store (p.exec (Request.handler cfg) a).store := by
  have hsteps := Run.steps (P := fun label update => ∃ D, AnyEffect D label update)
    (fun _ request _ => (handler_steps cfg request).mono fun he => ⟨_, he⟩) h
  have hexec : (p.exec (Request.handler cfg) a).store = p.store ∨
      ∃ label update, (∃ D, AnyEffect D label update) ∧
        (p.exec (Request.handler cfg) a).store = update p.store := exec_store hsteps
  cases hexec with
  | inl hsame => exact .inl (by rw [hsame])
  | inr hstep =>
    obtain ⟨label, update, ⟨D, he⟩, hstore⟩ := hstep
    rw [hstore]
    rcases he with he | ⟨_, _, he⟩
    · exact he.kept
    · exact .inr he.undisturbed

theorem Chain.Pays.of_seller {stored : WithdrawalRequest} (h : C.Pays txBytes stored)
    (hs : (withdrawal.walletAddress, withdrawal.amountMlcns) =
      (stored.walletAddress, stored.amountMlcns)) : C.Pays txBytes withdrawal := by
  obtain ⟨hwallet, hamount⟩ := Prod.mk.inj hs
  rw [Chain.Pays, Chain.received, hwallet, hamount]
  exact h

-- What was accepted for a withdrawal pays for its coins.
theorem pays_of_run {p : Pool Label World} : (receiptSystem cfg).Run (Honest C cfg id) p →
    ∀ txBytes withdrawal, (txBytes, id) ∈ p.store.accepted →
      p.store.withdrawals.get id = some withdrawal → C.Pays txBytes withdrawal
  | .init hi => by
    intro txBytes withdrawal hm
    rw [hi.1.1] at hm
    cases hm
  | .step (s := p₀) (a := a) hp hc hs => by
    cases hs
    intro txBytes withdrawal hm hget
    have ih := pays_of_run hp txBytes
    have hsettled : (txBytes, id) ∈ p₀.store.accepted → p₀.store.isStored id = true := by
      intro hm₀
      exact (receipted_of_run hp).stored (List.any_eq_true.mpr ⟨_, hm₀, decide_eq_true rfl⟩)
    cases exec_kept id a hp.reachable with
    | inl hsame =>
      rw [hsame] at hget
      by_cases hm₀ : (txBytes, id) ∈ p₀.store.accepted
      case pos => exact ih withdrawal hm₀ hget
      case neg => exact hc.2 _ hm hm₀ rfl withdrawal hget
    | inr hu =>
      rw [hu.accepted] at hm
      have hseller := hu.seller (hsettled hm)
      cases hget₀ : p₀.store.withdrawals.get id with
      | none =>
        have hstored := hsettled hm
        rw [World.isStored, hget₀] at hstored
        cases hstored
      | some stored =>
        rw [World.seller, World.seller, hget, hget₀, Option.map_some, Option.map_some,
          Option.some.injEq] at hseller
        exact (ih stored hm hget₀).of_seller hseller

end Runs

namespace Sample

def saleBytes : String :=
  "aaaaaaaaaaaaaaaaaaaaaaaa"

def saleWithdrawal : String :=
  "withdrawal-" ++ saleBytes

-- The transaction of the first sale transfers coins to one recipient.
def transferring (recipient : String) : Chain where
  transfers txBytes :=
    if txBytes = saleBytes then [{ sender := "alice", recipient, amount := 1000 }] else []
  executes _        := true
  operator          := "operator"

def onceSold : List (Action Request) :=
  inTurn 12 [firstSale]

end Sample

end Cashout
