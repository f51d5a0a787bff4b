import MallChain.Trade.Payments

namespace Trade

open Interleaving

-- Whether the payment of a purchase has succeeded, when that is known.
def PurchaseStatus.result : PurchaseStatus → Option Bool
  | confirmed | processing | credited => some true
  | failed                            => some false
  | pending | paymentInitiated        => none

def succeeded (resultCode : ℤ) : Bool :=
  resultCode = 0

-- The request to a phone was sent for a purchase.
def Event.isPushFor (quoteId paymentId : String) : Event → Bool
  | .pushed quoteId' paymentId' _ => quoteId' = quoteId ∧ paymentId' = paymentId
  | _                             => false

namespace World

variable (w : World) (quoteId paymentId : String)

def result : Option Bool :=
  (w.purchases.get quoteId).bind (·.status.result)

def isPushed : Bool :=
  w.events.any (·.isPushFor quoteId paymentId)

end World

-- A purchase shows the result of every callback for it that is acknowledged.
def CallbacksRecorded (w : World) : Prop :=
  ∀ quoteId paymentId resultCode, .acknowledged paymentId resultCode ∈ w.events →
    w.isPushed quoteId paymentId = true → w.result quoteId = some (succeeded resultCode)

-- Every callback of which no step has failed is acknowledged.
def CallbacksAnswered (actions : List (Action BuyRequest)) (w : World) : Prop :=
  ∀ paymentId resultCode, paymentId ≠ "" → .start (.callback paymentId resultCode {}) ∈ actions →
    .acknowledged paymentId resultCode ∈ w.events

-- The callbacks are recorded, and when everything has run, they are answered.
def CallbacksKept (actions : List (Action BuyRequest)) : Prop :=
  let p := Pool.execs BuyRequest.handler { store := {}, running := [] } actions
  CallbacksRecorded p.store ∧ (p.isIdle = true → CallbacksAnswered actions p.store)

-- The provider gives every request an id of its own, and all callbacks for a purchase have one result.
-- A callback comes after the id was saved, and no request is saved over a result.
def callbackGuard (outcome : String → Bool) : Label → World → Prop
  | .pushing _ paymentId _, w => ∀ e ∈ w.events, e.paymentId ≠ some paymentId
  | .delivering paymentId resultCode, w => (findByPaymentId paymentId w).any (fun e =>
      w.isPushed e.1 paymentId && outcome e.1 = succeeded resultCode) = true
  | .savingPush quoteId, w => w.result quoteId = none
  | _, _ => True

structure Matched (outcome : String → Bool) (w : World) : Prop where
  distinct : ∀ {quoteId quoteId' paymentId}, w.isPushed quoteId paymentId = true →
    w.isPushed quoteId' paymentId = true → quoteId = quoteId'
  agrees   : ∀ {quoteId b}, w.result quoteId = some b → b = outcome quoteId
  recorded : ∀ {paymentId resultCode}, .acknowledged paymentId resultCode ∈ w.events →
    ∃ quoteId, w.isPushed quoteId paymentId = true ∧ w.result quoteId = some (succeeded resultCode)

-- A purchase is not deleted, nothing is forgotten, and a result stays.
structure Onward (w w' : World) : Prop where
  stored : ∀ {quoteId}, (w.purchases.get quoteId).isSome = true →
    (w'.purchases.get quoteId).isSome = true
  events : ∀ e ∈ w.events, e ∈ w'.events
  result : ∀ {quoteId b}, w.result quoteId = some b → w'.result quoteId = some b

theorem Onward.refl (w : World) : Onward w w :=
  ⟨fun h => h, fun _ h => h, fun h => h⟩

theorem Onward.trans {w₁ w₂ w₃ : World} (h : Onward w₁ w₂) (h' : Onward w₂ w₃) : Onward w₁ w₃ :=
  ⟨fun hs => h'.stored (h.stored hs), fun e hm => h'.events e (h.events e hm),
    fun hr => h'.result (h.result hr)⟩

def callbackContract (outcome : String → Bool) : Contract Label World ℕ where
  invariant w _ := Matched outcome w
  grows         := Onward
  guard         := callbackGuard outcome
  refl          := .refl
  trans h h'    := h.trans h'

variable {outcome : String → Bool} {w w' : World} {quoteId id paymentId : String} {amount : ℚ} {e : Event}
  {resultCode : ℤ} {purchase : MallcoinPurchase} {f : MallcoinPurchase → MallcoinPurchase}

section Store

theorem Onward.pushed (h : Onward w w') (hp : w.isPushed quoteId paymentId = true) :
    w'.isPushed quoteId paymentId = true := by
  obtain ⟨e, hm, he⟩ := List.any_eq_true.mp hp
  exact List.any_eq_true.mpr ⟨e, h.events e hm, he⟩

theorem result_updatePurchase_self :
    (w.updatePurchase id f).result id = (w.purchases.get id).bind fun p => (f p).status.result := by
  rw [World.updatePurchase, World.result]
  cases h : w.purchases.get id with
  | none   => simp [h]
  | some p => simp

theorem result_updatePurchase_ne (h : quoteId ≠ id) :
    (w.updatePurchase id f).result quoteId = w.result quoteId := by
  rw [World.updatePurchase, World.result, World.result]
  cases w.purchases.get id with
  | none   => rfl
  | some p => rw [KVStore.get_set_ne h]

theorem isPushed_congr (h : w'.events = w.events) :
    w'.isPushed quoteId paymentId = w.isPushed quoteId paymentId := by
  rw [World.isPushed, World.isPushed, h]

-- An update of a purchase that leaves a result it has.
theorem Onward.updatePurchase (h : ∀ {p b}, w.purchases.get id = some p → p.status.result = some b →
    (f p).status.result = some b) : Onward w (w.updatePurchase id f) where
  stored {quoteId} hs := by
    rw [World.updatePurchase]
    split
    case h_2 => exact hs
    case h_1 =>
      rw [KVStore.get_set]
      split_ifs
      case pos => rfl
      case neg => exact hs
  events e hm := by
    rw [events_updatePurchase]
    exact hm
  result {quoteId b} hr := by
    by_cases heq : quoteId = id
    case neg =>
      rw [result_updatePurchase_ne heq]
      exact hr
    case pos =>
      subst heq
      obtain ⟨p, hget, hp⟩ := Option.bind_eq_some_iff.mp hr
      rw [result_updatePurchase_self, hget]
      exact h hget hp

theorem Matched.congr (h : Matched outcome w) (hevents : w'.events = w.events) (ho : Onward w w')
    (hagrees : ∀ {quoteId b}, w'.result quoteId = some b → b = outcome quoteId) : Matched outcome w' where
  distinct := by
    intro quoteId quoteId' paymentId
    rw [isPushed_congr hevents, isPushed_congr hevents]
    exact h.distinct
  agrees   := hagrees
  recorded hm := by
    rw [hevents] at hm
    obtain ⟨quoteId, hp, hr⟩ := h.recorded hm
    exact ⟨quoteId, ho.pushed hp, ho.result hr⟩

-- An update of a purchase to the result of its callbacks, or one that leaves what it has.
theorem Matched.update (h : Matched outcome w)
    (hkeep : ∀ {p b}, w.purchases.get id = some p → p.status.result = some b →
      (f p).status.result = some b)
    (hnew : ∀ {p b}, w.purchases.get id = some p → (f p).status.result = some b → b = outcome id) :
    Matched outcome (w.updatePurchase id f) ∧ Onward w (w.updatePurchase id f) := by
  refine ⟨h.congr events_updatePurchase (.updatePurchase hkeep) fun {quoteId b} hr => ?_,
    .updatePurchase hkeep⟩
  by_cases heq : quoteId = id
  case neg =>
    rw [result_updatePurchase_ne heq] at hr
    exact h.agrees hr
  case pos =>
    subst heq
    rw [result_updatePurchase_self] at hr
    obtain ⟨p, hget, hp⟩ := Option.bind_eq_some_iff.mp hr
    exact hnew hget hp

theorem Onward.record : Onward w (w.record e) :=
  ⟨fun hs => hs, fun _ hm => List.mem_cons_of_mem _ hm, fun hr => hr⟩

theorem isPushed_record_of_none (h : e.paymentId = none) :
    (w.record e).isPushed quoteId paymentId = w.isPushed quoteId paymentId := by
  rw [World.isPushed, World.record, List.any_cons, World.isPushed]
  cases e with
  | pushed _ _ _ => cases h
  | _ => rfl

theorem Matched.record (h : Matched outcome w) (hid : e.paymentId = none)
    (hack : ∀ {paymentId resultCode}, e = .acknowledged paymentId resultCode →
      ∃ quoteId, w.isPushed quoteId paymentId = true ∧ w.result quoteId = some (succeeded resultCode)) :
    Matched outcome (w.record e) ∧ Onward w (w.record e) := by
  refine ⟨⟨?_, h.agrees, ?_⟩, .record⟩
  case refine_1 =>
    intro quoteId quoteId' paymentId
    rw [isPushed_record_of_none hid, isPushed_record_of_none hid]
    exact h.distinct
  case refine_2 =>
    intro paymentId resultCode hm
    have hfound : ∃ quoteId, w.isPushed quoteId paymentId = true ∧
        w.result quoteId = some (succeeded resultCode) := by
      cases List.mem_cons.mp hm with
      | inl heq => exact hack heq.symm
      | inr hm => exact h.recorded hm
    obtain ⟨quoteId, hp, hr⟩ := hfound
    exact ⟨quoteId, Onward.record.pushed hp, hr⟩

-- A request to a phone has an id that is new.
theorem Matched.push (h : Matched outcome w) (hg : ∀ e ∈ w.events, e.paymentId ≠ some paymentId) :
    Matched outcome (w.record (.pushed id paymentId amount)) ∧
      Onward w (w.record (.pushed id paymentId amount)) := by
  have hnew : ∀ {quoteId}, w.isPushed quoteId paymentId = false := by
    intro quoteId
    refine List.any_eq_false.mpr fun e hm he => ?_
    cases e with
    | pushed _ paymentId' _ =>
      rw [Event.isPushFor, decide_eq_true_eq] at he
      exact hg _ hm (congrArg some he.2)
    | _ => cases he
  have hcases : ∀ {quoteId paymentId'},
      (w.record (.pushed id paymentId amount)).isPushed quoteId paymentId' = true →
        quoteId = id ∧ paymentId' = paymentId ∨ w.isPushed quoteId paymentId' = true := by
    intro quoteId paymentId' hp
    rw [World.isPushed, World.record, List.any_cons, Bool.or_eq_true, Event.isPushFor,
      decide_eq_true_eq] at hp
    rcases hp with hp | hp
    case inl => exact .inl ⟨hp.1.symm, hp.2.symm⟩
    case inr => exact .inr hp
  refine ⟨⟨?_, h.agrees, ?_⟩, .record⟩
  case refine_1 =>
    intro quoteId quoteId' paymentId' hp hp'
    rcases hcases hp with ⟨hq, hpay⟩ | hp
    · rcases hcases hp' with ⟨hq', _⟩ | hp'
      · rw [hq, hq']
      · rw [hpay, hnew] at hp'
        cases hp'
    · rcases hcases hp' with ⟨_, hpay⟩ | hp'
      · rw [hpay, hnew] at hp
        cases hp
      · exact h.distinct hp hp'
  case refine_2 =>
    intro paymentId' resultCode hm
    obtain ⟨quoteId, hp, hr⟩ := h.recorded ((List.mem_cons.mp hm).resolve_left (by simp))
    exact ⟨quoteId, Onward.record.pushed hp, hr⟩

end Store

section Handlers

theorem Matched.insert {buyPrice : ℚ} (h : Matched outcome w) (hpending : purchase.status = .pending) :
    Matched outcome (insertPurchase id purchase buyPrice w) ∧
      Onward w (insertPurchase id purchase buyPrice w) := by
  rw [insertPurchase]
  split
  case h_1 => exact ⟨h, .refl w⟩
  case h_2 hnone =>
    have hresult : ∀ {quoteId}, World.result { w with purchases := w.purchases.set id purchase } quoteId =
        w.result quoteId := by
      intro quoteId
      rw [World.result, World.result, KVStore.get_set]
      split_ifs with heq
      case neg => rfl
      case pos => rw [heq, hnone, Option.bind_some, hpending]; rfl
    have ho : Onward w ({ w with purchases := w.purchases.set id purchase } : World) := by
      refine ⟨fun {quoteId} hs => ?_, fun _ hm => hm, fun hr => hresult.trans hr⟩
      rw [KVStore.get_set]
      split_ifs
      case pos => rfl
      case neg => exact hs
    have hset : Matched outcome ({ w with purchases := w.purchases.set id purchase } : World) :=
      h.congr rfl ho fun hr => h.agrees (hresult.symm.trans hr)
    obtain ⟨hs, ho'⟩ := hset.record (e := .reserved id buyPrice) rfl (by simp)
    exact ⟨hs, ho.trans ho'⟩

-- A request is saved over no result.
theorem Matched.savePush (h : Matched outcome w) (hg : w.result id = none)
    (hpending : purchase.status = .pending) :
    Matched outcome (w.updatePurchase id (savePurchase ((Document.read purchase).modify fun purchase =>
        { addPaymentIdToPurchase paymentId purchase with status := .paymentInitiated }))) ∧
      Onward w (w.updatePurchase id (savePurchase ((Document.read purchase).modify fun purchase =>
        { addPaymentIdToPurchase paymentId purchase with status := .paymentInitiated }))) := by
  refine h.update (fun hget hp => ?_) fun hget hp => ?_
  case refine_1 =>
    rw [World.result, hget, Option.bind_some, hp] at hg
    cases hg
  case refine_2 =>
    have hne : PurchaseStatus.paymentInitiated ≠ purchase.status := by simp [hpending]
    rw [savePurchase, Document.written_current hne] at hp
    cases hp

theorem pushEach_settles {paymentIds : List String} :
    (pushEach quoteId amount paymentIds).Steps (callbackContract outcome).Keeps := by
  induction paymentIds with
  | nil => trivial
  | cons paymentId paymentIds ih => exact .bind (.write fun w own hg hI => Matched.push hI hg) fun _ => ih

theorem initiateMpesaRequest_settles {stk : StkPush} :
    (initiateMpesaRequest quoteId amount stk).Steps (callbackContract outcome).Keeps := by
  refine .bind (.read fun w own _ hI => ⟨hI, .refl w⟩) fun stored => ?_
  split
  case h_2 => trivial
  case h_1 purchase =>
    refine .ite (fun _ => trivial) fun hpending => ?_
    refine .bind pushEach_settles fun _ => ?_
    split
    case h_1 => trivial
    case h_2 paymentId =>
      refine .bind (.write fun w own hg hI => Matched.push hI hg) fun _ => ?_
      refine .ite (fun _ => trivial) fun _ => ?_
      exact .write fun w own hg hI => Matched.savePush hI hg (not_not.mp hpending)

theorem collect_settles : (collect paymentId).Steps (callbackContract outcome).Keeps := by
  refine .write fun w own _ hI => ?_
  split_ifs
  case pos => exact Matched.record hI rfl (by simp)
  case neg => exact ⟨hI, .refl w⟩

-- The callback is acknowledged for a purchase that shows its result.
theorem acknowledge_settles (hp : w.isPushed quoteId paymentId = true)
    (hr : w.result quoteId = some (succeeded resultCode)) :
    (callbackContract outcome).Handles (acknowledge paymentId resultCode) w 0 := by
  apply Contract.Handles.write
  intro w' ho _ others hI
  refine Matched.record hI rfl fun heq => ?_
  cases heq
  exact ⟨quoteId, ho.pushed hp, ho.result hr⟩

theorem isSome_result {status : PurchaseStatus} :
    status.result.isSome = true ↔ status ∈ terminalStatuses := by
  cases status <;> decide

-- A callback is saved as its result.
theorem result_savePurchase {stored : MallcoinPurchase} (hr : purchase.status ∉ terminalStatuses) :
    (savePurchase ((Document.read purchase).modify fun purchase =>
      { purchase with status := if resultCode = 0 then .confirmed else .failed }) stored).status.result =
        some (succeeded resultCode) := by
  have hne : (if resultCode = 0 then PurchaseStatus.confirmed else .failed) ≠ purchase.status := by
    intro heq
    rw [← heq] at hr
    split_ifs at hr <;> exact hr (by decide)
  rw [savePurchase, Document.written_current hne, Document.modify, Document.read, succeeded]
  split_ifs with hz
  case pos => rw [decide_eq_true hz]; rfl
  case neg => rw [decide_eq_false hz]; rfl

theorem Matched.saveCallback (h : Matched outcome w) (houtcome : outcome id = succeeded resultCode)
    (hterminal : purchase.status ∉ terminalStatuses) :
    Matched outcome (w.updatePurchase id (savePurchase ((Document.read purchase).modify fun purchase =>
        { purchase with status := if resultCode = 0 then .confirmed else .failed }))) ∧
      Onward w (w.updatePurchase id (savePurchase ((Document.read purchase).modify fun purchase =>
        { purchase with status := if resultCode = 0 then .confirmed else .failed }))) := by
  refine h.update (fun {p b} hget hp => ?_) fun hget hp => ?_
  case refine_1 =>
    have hresult : w.result id = some b := by rw [World.result, hget, Option.bind_some, hp]
    rw [result_savePurchase hterminal, h.agrees hresult, houtcome]
  case refine_2 =>
    rw [result_savePurchase hterminal, Option.some.injEq] at hp
    rw [houtcome, hp]

theorem processMpesaCallback_settles {o : CallbackOutcome} :
    (callbackContract outcome).Handles (processMpesaCallback paymentId resultCode o) w 0 := by
  refine Contract.Safe.ite (fun _ => Contract.Handles.done) fun _ => ?_
  apply Contract.Safe.look
  intro w₁ _ hg others hI
  have hg : (findByPaymentId paymentId w₁).any (fun e =>
    w₁.isPushed e.1 paymentId && outcome e.1 = succeeded resultCode) = true := hg
  cases hfound : findByPaymentId paymentId w₁ with
  | none =>
    rw [hfound] at hg
    cases hg
  | some found =>
    obtain ⟨quoteId, purchase⟩ := found
    obtain ⟨hget, _⟩ := of_findByPaymentId hfound
    rw [hfound, Option.any_some, Bool.and_eq_true, decide_eq_true_eq] at hg
    obtain ⟨hpushed, houtcome⟩ := hg
    refine Contract.Safe.ite (fun hterminal => ?_) fun hterminal => ?_
    case refine_1 =>
      apply acknowledge_settles hpushed
      obtain ⟨b, hr⟩ := Option.isSome_iff_exists.mp (isSome_result.mpr hterminal)
      have hresult : w₁.result quoteId = some b := by rw [World.result, hget, Option.bind_some, hr]
      rw [hresult, Matched.agrees hI hresult, houtcome]
    case refine_2 =>
      refine Contract.Safe.ite (fun _ => Contract.Handles.done) fun _ => ?_
      apply Contract.Safe.write
      intro w₂ ho _ others hI
      obtain ⟨hsettled, ho'⟩ := Matched.saveCallback hI houtcome hterminal
      refine ⟨0, hsettled, ho', ?_⟩
      refine Contract.Safe.ite (fun _ => Contract.Handles.done) fun _ => ?_
      apply acknowledge_settles (ho'.pushed (ho.pushed hpushed))
      obtain ⟨p, hstored⟩ := Option.isSome_iff_exists.mp (ho.stored (by rw [hget, Option.isSome_some]))
      rw [result_updatePurchase_self, hstored, Option.bind_some, result_savePurchase hterminal]

theorem claim_settles (h : Matched outcome w) :
    Matched outcome (claim quoteId w) ∧ Onward w (claim quoteId w) ∧
      ((claimed quoteId w).isSome = true → (claim quoteId w).result quoteId = some true) := by
  cases hclaimed : claimed quoteId w with
  | none =>
    rw [claim_of_unclaimed hclaimed]
    exact ⟨h, .refl w, by simp⟩
  | some purchase =>
    obtain ⟨stored, hget, hconfirmed, _⟩ := of_claimed hclaimed
    have hclaim : claim quoteId w = w.updatePurchase quoteId fun p => { p with status := .processing } := by
      rw [claim, World.updatePurchase, hget]
      exact if_pos hconfirmed
    have hpaid : w.result quoteId = some true := by
      rw [World.result, hget, Option.bind_some, hconfirmed]
      rfl
    have hclaims : Matched outcome (w.updatePurchase quoteId fun p => { p with status := .processing }) ∧
        Onward w (w.updatePurchase quoteId fun p => { p with status := .processing }) := by
      refine h.update (fun hp hr => ?_) fun hp hr => ?_
      case refine_1 =>
        cases hget.symm.trans hp
        rw [hconfirmed] at hr
        exact hr
      case refine_2 =>
        cases hr
        exact h.agrees hpaid
    rw [hclaim]
    refine ⟨hclaims.1, hclaims.2, fun _ => ?_⟩
    rw [result_updatePurchase_self, hget]
    rfl

-- What follows a claim leaves the purchase paid.
theorem CreditEffect.settles {label : Label} {update : World → World}
    (h : CreditEffect quoteId label update) :
    (callbackContract outcome).KeepsWhere (fun w => w.result quoteId = some true) label update := by
  intro w own hK _ hI
  cases h with
  | provide =>
    dsimp only
    split_ifs
    case pos => exact Matched.record hI rfl (by simp)
    case neg => exact ⟨hI, .refl w⟩
  | ensure =>
    have ho : ∀ {w' : World}, w'.purchases = w.purchases → w'.events = w.events → Onward w w' := by
      intro w' hp he
      refine ⟨?_, ?_, ?_⟩
      · simp [hp]
      · simp [he]
      · simp [World.result, hp]
    exact ⟨Matched.congr hI rfl (ho rfl rfl) fun hr => Matched.agrees hI hr, ho rfl rfl⟩
  | @save d hloaded hcurrent =>
    have hne : d.current.status ≠ d.loaded.status := by
      rw [hloaded, hcurrent]
      simp
    refine Matched.update hI (fun {p b} hget hr => ?_) fun {p b} hget hr => ?_
    case refine_1 =>
      rw [World.result, hget, Option.bind_some, hr] at hK
      rw [savePurchase, Document.written_current hne, hcurrent]
      exact hK.symm
    case refine_2 =>
      rw [savePurchase, Document.written_current hne, hcurrent] at hr
      cases hr
      exact Matched.agrees hI hK

theorem handleReservedCredit_settles {walletAddress transfer : Option String} {provision : Provision} :
    (callbackContract outcome).Handles
      (handleReservedCredit quoteId walletAddress transfer provision) w 0 := by
  apply Contract.Safe.read
  intro w₁ _ _
  cases w₁.purchases.get quoteId with
  | none => exact Contract.Handles.done
  | some current =>
    refine Contract.Safe.ite (fun _ => Contract.Handles.done) fun _ => ?_
    refine Contract.Safe.ite (fun _ => Contract.Handles.done) fun _ => ?_
    apply Contract.Safe.act
    intro w₂ _ _ others hI
    obtain ⟨hsettled, ho, hresult⟩ : Matched outcome (claim quoteId w₂) ∧ Onward w₂ (claim quoteId w₂) ∧ _ :=
      claim_settles hI
    refine ⟨0, hsettled, ho, ?_⟩
    cases hclaimed : claimed quoteId w₂ with
    | none => exact Contract.Handles.done
    | some purchase =>
      obtain ⟨stored, _, _, hpurchase⟩ := of_claimed hclaimed
      have hpaid : (claim quoteId w₂).result quoteId = some true :=
        hresult (by rw [hclaimed, Option.isSome_some])
      apply Contract.Safe.write
      intro w₃ ho₃ _ others hI
      obtain ⟨hrecorded, ho₄⟩ := Matched.record (e := .credited quoteId purchase.amount) hI rfl (by simp)
      refine ⟨0, hrecorded, ho₄, ?_⟩
      cases transfer with
      | none => exact Contract.Handles.done
      | some txHash =>
        have hprocessing : purchase.status = .processing := by rw [hpurchase]
        apply (Contract.Safe.of_keepsWhere (K := fun w => w.result quoteId = some true)
          (fun ho h => Onward.result ho h) ((settleCredit_steps hprocessing).mono CreditEffect.settles)
          (ho₄.result (ho₃.result hpaid))).imp
        exact fun h => h.1

theorem buy_settles (request : BuyRequest) :
    (callbackContract outcome).Handles request.handler w 0 := by
  cases request with
  | reserve quoteId walletAddress amount fiatAmount buyPrice =>
    exact Contract.Handles.write fun w' _ _ _ hI => Matched.insert hI rfl
  | mpesa quoteId amount stk => exact Contract.Handles.of_keeps initiateMpesaRequest_settles
  | collect paymentId => exact Contract.Handles.of_keeps collect_settles
  | callback paymentId resultCode o => exact processMpesaCallback_settles
  | credit quoteId walletAddress transfer provision => exact handleReservedCredit_settles

-- A callback of which no step fails comes to its answer.
theorem processMpesaCallback_takes (h : paymentId ≠ "") :
    (processMpesaCallback paymentId resultCode {}).Takes
      fun update => ∀ w, .acknowledged paymentId resultCode ∈ (update w).events := by
  have hack : (acknowledge paymentId resultCode).Takes
      fun update => ∀ w, .acknowledged paymentId resultCode ∈ (update w).events :=
    .write fun w => List.mem_cons_self ..
  refine .ite (fun hn => absurd hn h) fun _ => .bind fun found => ?_
  split
  case h_1 => exact hack
  case h_2 quoteId purchase =>
    refine .ite (fun _ => hack) fun _ => ?_
    refine .ite (fun hn => absurd hn (by decide)) fun _ => .bind fun _ => ?_
    exact .ite (fun hn => absurd hn (by decide)) fun _ => hack

-- A callback for which there is no purchase is acknowledged all the same.
theorem processMpesaCallback_unknown {o : CallbackOutcome} (h : paymentId ≠ "")
    (hnone : findByPaymentId paymentId w = none) :
    ((processMpesaCallback paymentId resultCode o).alone w).2 =
      w.record (.acknowledged paymentId resultCode) := by
  rw [processMpesaCallback, if_neg h, Prog.read_bind, Prog.alone_step, hnone]
  rfl

theorem empty_matched : Matched outcome {} :=
  ⟨fun hp => (by cases hp), fun hr => (by cases hr), fun hm => (by cases hm)⟩

end Handlers

theorem Matched.callbacks (h : Matched outcome w) : CallbacksRecorded w := by
  intro quoteId paymentId resultCode hm hpushed
  obtain ⟨quoteId', hpushed', hr⟩ := h.recorded hm
  rw [h.distinct hpushed hpushed']
  exact hr

-- The callbacks of the buy flow are recorded and answered.
theorem purchase_callbacks {actions : List (Action BuyRequest)}
    (h : Pool.MeetsAll BuyRequest.handler (callbackGuard outcome) { store := {}, running := [] } actions) :
    CallbacksKept actions := by
  have hstart : (callbackContract outcome).Holds { store := ({} : World), running := [] } fun _ => 0 :=
    ⟨by simp, empty_matched⟩
  have hr : ∀ (request : BuyRequest) w, (callbackContract outcome).Handles request.handler w 0 :=
    fun request w => buy_settles request
  refine ⟨?_, fun hi paymentId resultCode hid hm => ?_⟩
  case refine_1 =>
    obtain ⟨owned, hp⟩ := hstart.execs hr h
    exact Matched.callbacks hp.invariant
  case refine_2 =>
    have hawaits := hstart.awaits hr (fun ho hm => Onward.events ho _ hm) h
      (.inr ⟨_, hm, processMpesaCallback_takes hid⟩)
    exact hawaits.of_isIdle hi

instance {outcome : String → Bool} : (label : Label) → (w : World) → Decidable (callbackGuard outcome label w)
  | .pushing _ _ _, _ => inferInstanceAs (Decidable (∀ _ ∈ _, _))
  | .delivering _ _, _ => inferInstanceAs (Decidable (_ = true))
  | .savingPush _, _ => inferInstanceAs (Decidable (_ = _))
  | .read, _ | .write, _ | .reserving _ _ _, _ | .collecting _, _ | .savingCallback _, _ | .providing _, _
  | .requeueing _, _ | .removing _ _, _ | .restoring _ _ _, _ => .isTrue trivial

namespace Sample

def called : List (Action BuyRequest) :=
  inTurn 5 [.reserve "quote" "alice" 10 1000 100, .mpesa "quote" 1000 { answered := some "push" },
    .callback "push" 0 {}]

-- The callback comes after the request to the phone, and before its id is saved.
def overtaken : List (Action BuyRequest) :=
  [.start (.reserve "quote" "alice" 10 1000 100), .run 0,
    .start (.mpesa "quote" 1000 { answered := some "push" }), .run 1, .run 1,
    .start (.callback "push" 0 {}), .run 2, .run 2, .run 1]

end Sample

end Trade
