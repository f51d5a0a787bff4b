import MallChain.Cashout.Gates
import MallChain.Trade.Callbacks

namespace Cashout

open Interleaving

def PayoutStatus.sale : PayoutStatus → SaleStatus
  | succeeded => .completed
  | _         => .failed

def PayoutStatus.withdrawal : PayoutStatus → WithdrawalStatus
  | succeeded => .completed
  | _         => .failed

def withdrawalIdOf (saleId : String) : String :=
  "withdrawal-" ++ saleId

namespace World

variable (w : World) (saleId : String)

-- The sale, and the withdrawal, of a payout that has a result have the same result.
def showsSale : Bool :=
  match w.payouts.get saleId, w.sales.get saleId with
  | some payout, some sale => terminal payout.payoutStatus && sale.status = payout.payoutStatus.sale
  | _, _                   => false

def showsWithdrawal : Bool :=
  match w.payouts.get saleId, w.withdrawals.get (withdrawalIdOf saleId) with
  | some payout, some withdrawal =>
    terminal payout.payoutStatus && withdrawal.status = payout.payoutStatus.withdrawal
  | _, _                         => false

end World

-- Every callback of which no step has failed is acknowledged.
def CallbacksAnswered (actions : List (Action Request)) (w : World) : Prop :=
  ∀ payoutRef resultCode, payoutRef ≠ "" → .start (.callback payoutRef resultCode {}) ∈ actions →
    .acknowledged payoutRef resultCode ∈ w.events

-- The payout, the sale and the withdrawal show the result of a callback.
structure Shows (w : World) (saleId : String) (resultCode : ℤ) : Prop where
  payout     : (w.payouts.get saleId).map (·.payoutStatus) = some (payoutResult resultCode)
  sale       : w.showsSale saleId = true
  withdrawal : w.showsWithdrawal saleId = true

-- Every callback that is acknowledged shows in the payout that it is for, and in its sale and withdrawal.
def CallbacksRecorded (w : World) : Prop :=
  ∀ id payoutRef amount resultCode, .paid id (some payoutRef) amount ∈ w.events →
    .acknowledged payoutRef resultCode ∈ w.events → ∃ saleId, id = withdrawalIdOf saleId ∧
      (w.payouts.get saleId).map (·.payoutStatus) = some (payoutResult resultCode) ∧
      (w.sales.get saleId).map (·.status) = some (saleResult resultCode) ∧
      (w.withdrawals.get id).map (·.status) = some (withdrawalResult resultCode)

-- The callbacks are recorded, and when everything has run, they are answered.
def CallbacksKept (cfg : Config) (actions : List (Action Request)) : Prop :=
  let p := Pool.execs (Request.handler cfg) { store := {}, running := [] } actions
  CallbacksRecorded p.store ∧ (p.isIdle = true → CallbacksAnswered actions p.store)

-- A payment for another withdrawal with this reference.
def Event.isPaymentAs (payoutRef : String) (id : String) : Event → Bool
  | .paid id' ref _ => ref = some payoutRef ∧ id' ≠ id
  | _               => false

-- The provider gives each payment a reference of its own. A callback comes after its payout was created,
-- and when the payout has a result, with that result and after it was saved everywhere. Nothing is saved
-- over a result.
def callbackGuard : Label → World → Prop
  | .paying _ (.accepted (some payoutRef)), w => ∀ e ∈ w.payouts.entries, e.2.payoutRef ≠ payoutRef
  | .creatingPayout saleId payout, w =>
    (∀ e ∈ w.payouts.entries, e.2.payoutRef = payout.payoutRef → e.1 = saleId) ∧
    (∀ e ∈ w.withdrawals.entries, e.2.payoutRef = some payout.payoutRef → e.1 = withdrawalIdOf saleId) ∧
    ∀ e ∈ w.events, e.isPaymentAs payout.payoutRef (withdrawalIdOf saleId) = false
  | .delivering payoutRef resultCode, w => (findByPayoutRef payoutRef w).any (fun e =>
      (w.sales.get e.1).isSome && (w.withdrawals.get (withdrawalIdOf e.1)).isSome &&
      (!terminal e.2.payoutStatus || e.2.payoutStatus = payoutResult resultCode && w.showsSale e.1 &&
        w.showsWithdrawal e.1)) = true
  | .savingPayout saleId d, w => ∀ payout ∈ w.payouts.get saleId, terminal payout.payoutStatus = true →
    (savePayoutOn d payout).payoutStatus = payout.payoutStatus
  | .savingSale _ saleId d, w => w.showsSale saleId = true →
    (w.updateSale saleId (saveSaleOn d)).showsSale saleId = true
  | .savingWithdrawal _ id d, w => ∀ e ∈ w.payouts.entries,
    (d.current.payoutRef = some e.2.payoutRef → id = withdrawalIdOf e.1) ∧
    (withdrawalIdOf e.1 = id → w.showsWithdrawal e.1 = true →
      (w.updateWithdrawal id (saveWithdrawalOn d)).showsWithdrawal e.1 = true)
  | _, _ => True

structure Linked (w : World) : Prop where
  named    : ∀ {id withdrawal}, w.withdrawals.get id = some withdrawal → ∃ saleId,
    saleId.length = 24 ∧ id = withdrawalIdOf saleId ∧ withdrawal.saleId = some saleId
  refs     : ∀ {id withdrawal saleId payout}, w.withdrawals.get id = some withdrawal →
    w.payouts.get saleId = some payout → withdrawal.payoutRef = some payout.payoutRef →
    id = withdrawalIdOf saleId
  single   : ∀ {saleId saleId' payout payout'}, w.payouts.get saleId = some payout →
    w.payouts.get saleId' = some payout' → payout.payoutRef = payout'.payoutRef → saleId = saleId'
  paid     : ∀ {id amount saleId payout}, w.payouts.get saleId = some payout →
    .paid id (some payout.payoutRef) amount ∈ w.events → id = withdrawalIdOf saleId
  recorded : ∀ {payoutRef resultCode}, .acknowledged payoutRef resultCode ∈ w.events →
    ∃ saleId payout, w.payouts.get saleId = some payout ∧ payout.payoutRef = payoutRef ∧
      Shows w saleId resultCode

-- A payout that is later.
def Follows (payout payout' : B2CPayout) : Prop :=
  payout'.payoutRef = payout.payoutRef ∧
    (terminal payout.payoutStatus = true → payout'.payoutStatus = payout.payoutStatus)

structure Onward (w w' : World) : Prop where
  sales       : ∀ {saleId}, (w.sales.get saleId).isSome = true → (w'.sales.get saleId).isSome = true
  withdrawals : ∀ {id}, (w.withdrawals.get id).isSome = true → (w'.withdrawals.get id).isSome = true
  payouts     : ∀ {saleId payout}, w.payouts.get saleId = some payout →
    ∃ payout', w'.payouts.get saleId = some payout' ∧ Follows payout payout'
  events      : ∀ e ∈ w.events, e ∈ w'.events
  sale        : ∀ {saleId}, w.showsSale saleId = true → w'.showsSale saleId = true
  withdrawal  : ∀ {saleId}, w.showsWithdrawal saleId = true → w'.showsWithdrawal saleId = true

theorem Follows.refl (payout : B2CPayout) : Follows payout payout :=
  ⟨rfl, fun _ => rfl⟩

theorem Follows.trans {p₁ p₂ p₃ : B2CPayout} (h : Follows p₁ p₂) (h' : Follows p₂ p₃) :
    Follows p₁ p₃ := by
  refine ⟨h'.1.trans h.1, fun ht => ?_⟩
  have heq := h.2 ht
  exact (h'.2 (heq ▸ ht)).trans heq

theorem Onward.refl (w : World) : Onward w w :=
  ⟨fun h => h, fun h => h, fun h => ⟨_, h, .refl _⟩, fun _ h => h, fun h => h, fun h => h⟩

theorem Onward.trans {w₁ w₂ w₃ : World} (h : Onward w₁ w₂) (h' : Onward w₂ w₃) : Onward w₁ w₃ where
  sales hs        := h'.sales (h.sales hs)
  withdrawals hs  := h'.withdrawals (h.withdrawals hs)
  payouts hget    := by
    obtain ⟨payout', hget', hf⟩ := h.payouts hget
    obtain ⟨payout'', hget'', hf'⟩ := h'.payouts hget'
    exact ⟨payout'', hget'', hf.trans hf'⟩
  events e hm     := h'.events e (h.events e hm)
  sale hs         := h'.sale (h.sale hs)
  withdrawal hs   := h'.withdrawal (h.withdrawal hs)

def callbackContract : Contract Label World ℕ where
  invariant w _ := Linked w
  grows         := Onward
  guard         := callbackGuard
  refl          := .refl
  trans h h'    := h.trans h'

variable {w w' : World} {id saleId payoutRef : String} {resultCode : ℤ}

section Store

theorem World.showsSale_iff : w.showsSale saleId = true ↔ ∃ payout sale,
    w.payouts.get saleId = some payout ∧ w.sales.get saleId = some sale ∧
      terminal payout.payoutStatus = true ∧ sale.status = payout.payoutStatus.sale := by
  rw [showsSale]
  cases w.payouts.get saleId <;> cases w.sales.get saleId <;> simp

theorem World.showsWithdrawal_iff : w.showsWithdrawal saleId = true ↔ ∃ payout withdrawal,
    w.payouts.get saleId = some payout ∧ w.withdrawals.get (withdrawalIdOf saleId) = some withdrawal ∧
      terminal payout.payoutStatus = true ∧ withdrawal.status = payout.payoutStatus.withdrawal := by
  rw [showsWithdrawal]
  cases w.payouts.get saleId <;> cases w.withdrawals.get (withdrawalIdOf saleId) <;> simp

@[simp]
theorem payoutResult_terminal : terminal (payoutResult resultCode) = true := by
  rw [payoutResult]
  split_ifs <;> rfl

theorem Shows.onward (h : Shows w saleId resultCode) (ho : Onward w w') : Shows w' saleId resultCode where
  payout := by
    obtain ⟨payout, hget, hp⟩ := Option.map_eq_some_iff.mp h.payout
    obtain ⟨payout', hget', _, hstatus⟩ := ho.payouts hget
    rw [hget', Option.map_some, hstatus (by rw [hp]; exact payoutResult_terminal), hp]
  sale       := ho.sale h.sale
  withdrawal := ho.withdrawal h.withdrawal

-- The collections are the same.
theorem Onward.of_same (hs : w'.sales = w.sales) (hw : w'.withdrawals = w.withdrawals)
    (hp : w'.payouts = w.payouts) (he : ∀ e ∈ w.events, e ∈ w'.events) : Onward w w' where
  sales h       := hs ▸ h
  withdrawals h := hw ▸ h
  payouts h     := ⟨_, hp ▸ h, .refl _⟩
  events        := he
  sale h        := by
    rw [World.showsSale, hs, hp]
    exact h
  withdrawal h  := by
    rw [World.showsWithdrawal, hw, hp]
    exact h

-- A step that leaves the withdrawals and the payouts, and of which nothing is noted.
theorem Linked.of_onward (h : Linked w) (ho : Onward w w') (hw : w'.withdrawals = w.withdrawals)
    (hp : w'.payouts = w.payouts) (he : w'.events = w.events) : Linked w' where
  named      := by
    rw [hw]
    exact h.named
  refs       := by
    rw [hw, hp]
    exact h.refs
  single     := by
    rw [hp]
    exact h.single
  paid       := by
    rw [hp, he]
    exact h.paid
  recorded hm := by
    rw [hp]
    rw [he] at hm
    obtain ⟨saleId, payout, hget, href, hshows⟩ := h.recorded hm
    exact ⟨saleId, payout, hget, href, hshows.onward ho⟩

theorem Linked.same (h : Linked w) (hs : w'.sales = w.sales) (hw : w'.withdrawals = w.withdrawals)
    (hp : w'.payouts = w.payouts) (he : w'.events = w.events) : Linked w' ∧ Onward w w' := by
  have ho := Onward.of_same hs hw hp (by rw [he]; exact fun _ hm => hm)
  exact ⟨h.of_onward ho hw hp he, ho⟩

theorem Linked.decided (h : Linked w) : Linked (w.decided id) ∧ Onward w (w.decided id) :=
  h.same rfl rfl rfl rfl

theorem Onward.record {e : Event} : Onward w (w.record e) :=
  .of_same rfl rfl rfl fun _ hm => List.mem_cons_of_mem _ hm

-- No payment is noted with the reference of a payout, and a callback is acknowledged that shows.
theorem Linked.record {e : Event} (h : Linked w)
    (hpaid : ∀ {id amount saleId payout}, w.payouts.get saleId = some payout →
      e ≠ .paid id (some payout.payoutRef) amount)
    (hack : ∀ {payoutRef resultCode}, e = .acknowledged payoutRef resultCode → ∃ saleId payout,
      w.payouts.get saleId = some payout ∧ payout.payoutRef = payoutRef ∧ Shows w saleId resultCode) :
    Linked (w.record e) ∧ Onward w (w.record e) := by
  refine ⟨⟨h.named, h.refs, h.single, ?_, ?_⟩, .record⟩
  case refine_1 =>
    intro id amount saleId payout hget hm
    exact h.paid hget ((List.mem_cons.mp hm).resolve_left (Ne.symm (hpaid hget)))
  case refine_2 =>
    intro payoutRef resultCode hm
    have hfound : ∃ saleId payout, w.payouts.get saleId = some payout ∧ payout.payoutRef = payoutRef ∧
        Shows w saleId resultCode := by
      cases List.mem_cons.mp hm with
      | inl heq => exact hack heq.symm
      | inr hm => exact h.recorded hm
    obtain ⟨saleId, payout, hget, href, hs⟩ := hfound
    exact ⟨saleId, payout, hget, href, hs.onward .record⟩

theorem Linked.pay {attempt : Payout.Attempt} {amount : ℚ} (h : Linked w)
    (hg : callbackGuard (.paying id attempt) w) :
    Linked (w.record (.paid id (attemptRef attempt) amount)) ∧
      Onward w (w.record (.paid id (attemptRef attempt) amount)) := by
  refine h.record (fun {_ _ saleId payout} hget heq => ?_) (by simp)
  rw [Event.paid.injEq] at heq
  obtain ⟨_, href, _⟩ := heq
  cases attempt with
  | failed _ _ _ => cases href
  | accepted conversationId =>
    cases href
    exact hg (saleId, payout) (KVStore.mem_entries_iff.mpr hget) rfl

-- A sale is saved or created, and does not lose the result that it shows.
theorem Linked.setSale {sale : MallcoinSale} (h : Linked w)
    (hshows : w.showsSale saleId = true →
      World.showsSale { w with sales := w.sales.set saleId sale } saleId = true) :
    Linked { w with sales := w.sales.set saleId sale } ∧
      Onward w { w with sales := w.sales.set saleId sale } := by
  have ho : Onward w { w with sales := w.sales.set saleId sale } := by
    refine { sales := ?_, withdrawals := fun h => h, payouts := fun h => ⟨_, h, .refl _⟩,
             events := fun _ h => h, sale := ?_, withdrawal := fun h => h }
    case refine_1 =>
      intro id hs
      rw [KVStore.get_set]
      split_ifs
      case pos => rfl
      case neg => exact hs
    case refine_2 =>
      intro id hs
      by_cases heq : id = saleId
      case pos =>
        subst heq
        exact hshows hs
      case neg =>
        rw [World.showsSale, KVStore.get_set_ne heq]
        exact hs
  exact ⟨h.of_onward ho rfl rfl rfl, ho⟩

theorem Linked.saveSale {d : Document MallcoinSale} (h : Linked w)
    (hg : w.showsSale saleId = true → (w.updateSale saleId (saveSaleOn d)).showsSale saleId = true) :
    Linked (w.updateSale saleId (saveSaleOn d)) ∧ Onward w (w.updateSale saleId (saveSaleOn d)) := by
  rw [World.updateSale] at hg ⊢
  split at hg
  case h_1 => exact h.setSale hg
  case h_2 => exact ⟨h, .refl w⟩

theorem Linked.insertSale {sale : MallcoinSale} (h : Linked w) :
    Linked (insertSale saleId sale w) ∧ Onward w (insertSale saleId sale w) := by
  rw [Cashout.insertSale]
  split
  case h_1 => exact ⟨h, .refl w⟩
  case h_2 hnone =>
    apply h.setSale
    intro hs
    obtain ⟨_, sale, _, hget, _⟩ := World.showsSale_iff.mp hs
    rw [hnone] at hget
    cases hget

-- A withdrawal is saved or created under its id, with a reference that no other payout has, and does not
-- lose the result that it shows.
theorem Linked.setWithdrawal {withdrawal : WithdrawalRequest} (h : Linked w)
    (hnamed : ∃ saleId, saleId.length = 24 ∧ id = withdrawalIdOf saleId ∧ withdrawal.saleId = some saleId)
    (hrefs : ∀ {saleId payout}, w.payouts.get saleId = some payout →
      withdrawal.payoutRef = some payout.payoutRef → id = withdrawalIdOf saleId)
    (hshows : ∀ {saleId}, id = withdrawalIdOf saleId → w.showsWithdrawal saleId = true →
      World.showsWithdrawal { w with withdrawals := w.withdrawals.set id withdrawal } saleId = true) :
    Linked { w with withdrawals := w.withdrawals.set id withdrawal } ∧
      Onward w { w with withdrawals := w.withdrawals.set id withdrawal } := by
  have ho : Onward w { w with withdrawals := w.withdrawals.set id withdrawal } := by
    refine { sales := fun h => h, withdrawals := ?_, payouts := fun h => ⟨_, h, .refl _⟩,
             events := fun _ h => h, sale := fun h => h, withdrawal := ?_ }
    case refine_1 =>
      intro id' hs
      rw [KVStore.get_set]
      split_ifs
      case pos => rfl
      case neg => exact hs
    case refine_2 =>
      intro saleId hs
      by_cases heq : id = withdrawalIdOf saleId
      case pos => exact hshows heq hs
      case neg =>
        rw [World.showsWithdrawal, KVStore.get_set_ne (Ne.symm heq)]
        exact hs
  refine ⟨{ named := ?_, refs := ?_, single := h.single, paid := h.paid, recorded := fun hm => ?_ }, ho⟩
  case refine_1 =>
    intro id' withdrawal' hget
    rw [KVStore.get_set] at hget
    split_ifs at hget with heq
    case pos =>
      cases hget
      exact heq ▸ hnamed
    case neg => exact h.named hget
  case refine_2 =>
    intro id' withdrawal' saleId payout hget hpayout href
    rw [KVStore.get_set] at hget
    split_ifs at hget with heq
    case pos =>
      cases hget
      exact heq.trans (hrefs hpayout href)
    case neg => exact h.refs hget hpayout href
  case refine_3 =>
    obtain ⟨saleId, payout, hget, href, hs⟩ := h.recorded hm
    exact ⟨saleId, payout, hget, href, hs.onward ho⟩

theorem Linked.saveWithdrawal {d : Document WithdrawalRequest} (h : Linked w)
    (hg : ∀ e ∈ w.payouts.entries, (d.current.payoutRef = some e.2.payoutRef → id = withdrawalIdOf e.1) ∧
      (withdrawalIdOf e.1 = id → w.showsWithdrawal e.1 = true →
        (w.updateWithdrawal id (saveWithdrawalOn d)).showsWithdrawal e.1 = true)) :
    Linked (w.updateWithdrawal id (saveWithdrawalOn d)) ∧
      Onward w (w.updateWithdrawal id (saveWithdrawalOn d)) := by
  cases hget : w.withdrawals.get id with
  | none =>
    rw [World.updateWithdrawal, hget]
    exact ⟨h, .refl w⟩
  | some stored =>
    have hset : Linked { w with withdrawals := w.withdrawals.set id (saveWithdrawalOn d stored) } ∧
        Onward w { w with withdrawals := w.withdrawals.set id (saveWithdrawalOn d stored) } := by
      refine h.setWithdrawal ?_ (fun {saleId payout} hpayout href => ?_) fun {saleId} heq hs => ?_
      case refine_1 =>
        obtain ⟨saleId, hhex, hid, hsale⟩ := h.named hget
        exact ⟨saleId, hhex, hid, hsale⟩
      case refine_2 =>
        rcases Document.written_or d (·.payoutRef) stored with hw | hw
        · exact h.refs hget hpayout (hw.symm.trans href)
        · exact (hg (saleId, payout) (KVStore.mem_entries_iff.mpr hpayout)).1 (hw.symm.trans href)
      case refine_3 =>
        obtain ⟨payout, _, hpayout, _⟩ := World.showsWithdrawal_iff.mp hs
        have hshows := (hg (saleId, payout) (KVStore.mem_entries_iff.mpr hpayout)).2 heq.symm hs
        rw [World.updateWithdrawal, hget] at hshows
        dsimp only at hshows
        split_ifs at hshows
        case pos => exact hshows
        case neg => exact hshows
    rw [World.updateWithdrawal, hget]
    dsimp only
    split_ifs
    case neg => exact hset
    case pos =>
      obtain ⟨hl, ho⟩ := hset.1.record (e := .left id) (by simp) (by simp)
      exact ⟨hl, hset.2.trans ho⟩

theorem Linked.insertWithdrawal {req : SellRequest} {phone : String} {estimatedKes : ℚ}
    {reviewId : Option String} (h : Linked w) :
    Linked (insertWithdrawal req.withdrawalId (req.withdrawal phone estimatedKes reviewId) w) ∧
      Onward w (insertWithdrawal req.withdrawalId (req.withdrawal phone estimatedKes reviewId) w) := by
  rw [Cashout.insertWithdrawal]
  split
  case h_1 => exact ⟨h, .refl w⟩
  case h_2 hnone =>
    refine h.setWithdrawal ⟨req.saleId, req.hex, rfl, rfl⟩ (fun _ href => (by cases href)) ?_
    intro saleId heq hs
    obtain ⟨_, withdrawal, _, hget, _⟩ := World.showsWithdrawal_iff.mp hs
    rw [← heq, hnone] at hget
    cases hget

-- A payout is created, or saved with the result that it has, if it has one, under a reference of its own.
theorem Linked.setPayout {payout : B2CPayout} (h : Linked w)
    (hfollows : ∀ old, w.payouts.get saleId = some old → Follows old payout)
    (hrefs : ∀ {id withdrawal}, w.withdrawals.get id = some withdrawal →
      withdrawal.payoutRef = some payout.payoutRef → id = withdrawalIdOf saleId)
    (hsingle : ∀ {saleId' payout'}, w.payouts.get saleId' = some payout' →
      payout'.payoutRef = payout.payoutRef → saleId' = saleId)
    (hpaid : ∀ {id amount}, .paid id (some payout.payoutRef) amount ∈ w.events →
      id = withdrawalIdOf saleId) :
    Linked { w with payouts := w.payouts.set saleId payout } ∧
      Onward w { w with payouts := w.payouts.set saleId payout } := by
  have hstatus : ∀ {old}, w.payouts.get saleId = some old → terminal old.payoutStatus = true →
      payout.payoutStatus = old.payoutStatus := fun hget ht => (hfollows _ hget).2 ht
  have ho : Onward w { w with payouts := w.payouts.set saleId payout } := by
    refine { sales := fun h => h, withdrawals := fun h => h, payouts := ?_, events := fun _ h => h,
             sale := ?_, withdrawal := ?_ }
    case refine_1 =>
      intro saleId' old hget
      by_cases heq : saleId' = saleId
      case pos =>
        subst heq
        exact ⟨payout, KVStore.get_set_self, hfollows old hget⟩
      case neg => exact ⟨old, (KVStore.get_set_ne heq).trans hget, .refl old⟩
    case refine_2 =>
      intro saleId' hs
      obtain ⟨old, sale, hold, hsale, hterminal, hshown⟩ := World.showsSale_iff.mp hs
      by_cases heq : saleId' = saleId
      case neg =>
        exact World.showsSale_iff.mpr
          ⟨old, sale, (KVStore.get_set_ne heq).trans hold, hsale, hterminal, hshown⟩
      case pos =>
        subst heq
        have hkept := hstatus hold hterminal
        rw [← hkept] at hterminal hshown
        exact World.showsSale_iff.mpr ⟨payout, sale, KVStore.get_set_self, hsale, hterminal, hshown⟩
    case refine_3 =>
      intro saleId' hs
      obtain ⟨old, withdrawal, hold, hget, hterminal, hshown⟩ := World.showsWithdrawal_iff.mp hs
      by_cases heq : saleId' = saleId
      case neg =>
        exact World.showsWithdrawal_iff.mpr
          ⟨old, withdrawal, (KVStore.get_set_ne heq).trans hold, hget, hterminal, hshown⟩
      case pos =>
        subst heq
        have hkept := hstatus hold hterminal
        rw [← hkept] at hterminal hshown
        exact World.showsWithdrawal_iff.mpr
          ⟨payout, withdrawal, KVStore.get_set_self, hget, hterminal, hshown⟩
  refine ⟨{ named := h.named, refs := ?_, single := ?_, paid := ?_, recorded := fun hm => ?_ }, ho⟩
  case refine_1 =>
    intro id withdrawal saleId' payout' hget hpayout href
    rw [KVStore.get_set] at hpayout
    split_ifs at hpayout with heq
    case pos =>
      cases hpayout
      exact heq ▸ hrefs hget href
    case neg => exact h.refs hget hpayout href
  case refine_2 =>
    intro saleId₁ saleId₂ payout₁ payout₂ hget₁ hget₂ href
    rw [KVStore.get_set] at hget₁ hget₂
    split_ifs at hget₁ hget₂ with heq₁ heq₂ heq₂
    case pos => rw [heq₁, heq₂]
    case neg =>
      cases hget₁
      exact heq₁.trans (hsingle hget₂ href.symm).symm
    case pos =>
      cases hget₂
      exact (hsingle hget₁ href).trans heq₂.symm
    case neg => exact h.single hget₁ hget₂ href
  case refine_3 =>
    intro id amount saleId' payout' hget hm
    rw [KVStore.get_set] at hget
    split_ifs at hget with heq
    case pos =>
      cases hget
      exact heq ▸ hpaid hm
    case neg => exact h.paid hget hm
  case refine_4 =>
    obtain ⟨saleId', payout', hget, href, hs⟩ := h.recorded hm
    obtain ⟨payout'', hget'', hf⟩ := ho.payouts hget
    exact ⟨saleId', payout'', hget'', hf.1.trans href, hs.onward ho⟩

theorem Linked.insertPayout {payout : B2CPayout} (h : Linked w)
    (hg : callbackGuard (.creatingPayout saleId payout) w) :
    Linked (insertPayout saleId payout w) ∧ Onward w (insertPayout saleId payout w) := by
  obtain ⟨hpayouts, hwithdrawals, hevents⟩ := hg
  rw [Cashout.insertPayout]
  split
  case h_1 => exact ⟨h, .refl w⟩
  case h_2 hnone =>
    refine h.setPayout (by simp [hnone]) ?_ ?_ ?_
    case refine_1 => exact fun hget href => hwithdrawals (_, _) (KVStore.mem_entries_iff.mpr hget) href
    case refine_2 => exact fun hget href => hpayouts (_, _) (KVStore.mem_entries_iff.mpr hget) href
    case refine_3 =>
      intro id amount hm
      have hn := hevents _ hm
      rw [Event.isPaymentAs, decide_eq_false_iff_not] at hn
      exact not_not.mp fun hne => hn ⟨rfl, hne⟩

theorem Linked.savePayout {d : Document B2CPayout} (h : Linked w)
    (hg : callbackGuard (.savingPayout saleId d) w) :
    Linked (w.updatePayout saleId (savePayoutOn d)) ∧
      Onward w (w.updatePayout saleId (savePayoutOn d)) := by
  rw [World.updatePayout]
  split
  case h_2 => exact ⟨h, .refl w⟩
  case h_1 payout hget =>
    have href : (savePayoutOn d payout).payoutRef = payout.payoutRef := rfl
    refine h.setPayout (fun old hold => ?_) ?_ ?_ ?_
    case refine_1 =>
      cases hget.symm.trans hold
      exact ⟨href, hg payout (Option.mem_def.mpr hget)⟩
    case refine_2 =>
      rw [href]
      exact fun hwithdrawal => h.refs hwithdrawal hget
    case refine_3 =>
      rw [href]
      exact fun hget' => h.single hget' hget
    case refine_4 =>
      rw [href]
      exact h.paid hget

end Store

section Handlers

variable {D : String → Prop} {label : Label} {update : World → World}

theorem Effect.links (he : Effect D label update) : callbackContract.Keeps label update := by
  intro w own hg hI
  have h : Linked w := hI
  cases he with
  | silent => exact ⟨h, .refl w⟩
  | accept _ _ hu =>
    obtain ⟨accepted, hw⟩ := (hu w).only
    rw [hw]
    exact h.same rfl rfl rfl rfl
  | consume =>
    dsimp only [World.updateReview]
    split
    case h_1 => exact h.same rfl rfl rfl rfl
    case h_2 => exact ⟨h, .refl w⟩
  | deliver => exact h.record (by simp) (by simp)
  | createSale req => exact h.insertSale
  | saveSale d => exact h.saveSale hg
  | create req phone estimatedKes reviewId => exact h.insertWithdrawal
  | save d => exact h.saveWithdrawal hg
  | createPayout => exact h.insertPayout hg
  | pay _ =>
    dsimp only
    split_ifs
    case pos => exact h.pay hg
    case neg => exact ⟨h, .refl w⟩
  | find _ =>
    rw [found]
    split_ifs
    case pos => exact h.same rfl rfl rfl rfl
    case neg => exact ⟨h, .refl w⟩
  | decided _ => exact h.same rfl rfl rfl rfl
  | saveDecision d _ =>
    obtain ⟨hsaved, ho⟩ := h.saveWithdrawal hg
    obtain ⟨hdecided, ho'⟩ := hsaved.decided
    exact ⟨hdecided, ho.trans ho'⟩
  | @saveResolve id outcome d _ =>
    obtain ⟨hsaved, ho⟩ := h.saveWithdrawal hg
    obtain ⟨hdecided, ho'⟩ := hsaved.decided
    obtain ⟨hresolved, ho''⟩ := hdecided.record (e := .resolved id outcome) (by simp) (by simp)
    exact ⟨hresolved, (ho.trans ho').trans ho''⟩

-- What a callback has found and saved in its payout.
structure Due (w : World) (saleId payoutRef : String) (resultCode : ℤ) : Prop where
  payout     : ∃ payout, w.payouts.get saleId = some payout ∧ payout.payoutRef = payoutRef ∧
    payout.payoutStatus = payoutResult resultCode
  sale       : (w.sales.get saleId).isSome = true
  withdrawal : (w.withdrawals.get (withdrawalIdOf saleId)).isSome = true

theorem Due.onward (ho : Onward w w') (h : Due w saleId payoutRef resultCode) :
    Due w' saleId payoutRef resultCode where
  payout     := by
    obtain ⟨payout, hget, href, hstatus⟩ := h.payout
    obtain ⟨payout', hget', href', hkept⟩ := ho.payouts hget
    refine ⟨payout', hget', href'.trans href, (hkept ?_).trans hstatus⟩
    rw [hstatus, payoutResult_terminal]
  sale       := ho.sales h.sale
  withdrawal := ho.withdrawals h.withdrawal

theorem payoutResult_sale : (payoutResult resultCode).sale = saleResult resultCode := by
  rw [payoutResult, saleResult]
  split_ifs <;> rfl

theorem payoutResult_withdrawal : (payoutResult resultCode).withdrawal = withdrawalResult resultCode := by
  rw [payoutResult, withdrawalResult]
  split_ifs <;> rfl

theorem Due.showsSale {sale : MallcoinSale} (h : Due w saleId payoutRef resultCode)
    (hget : w.sales.get saleId = some sale) (hstatus : sale.status = saleResult resultCode) :
    w.showsSale saleId = true := by
  obtain ⟨payout, hpayout, _, hresult⟩ := h.payout
  refine World.showsSale_iff.mpr ⟨payout, sale, hpayout, hget, ?_, ?_⟩
  · rw [hresult, payoutResult_terminal]
  · rw [hresult, payoutResult_sale, hstatus]

theorem Due.showsWithdrawal {withdrawal : WithdrawalRequest} (h : Due w saleId payoutRef resultCode)
    (hget : w.withdrawals.get (withdrawalIdOf saleId) = some withdrawal)
    (hstatus : withdrawal.status = withdrawalResult resultCode) : w.showsWithdrawal saleId = true := by
  obtain ⟨payout, hpayout, _, hresult⟩ := h.payout
  refine World.showsWithdrawal_iff.mpr ⟨payout, withdrawal, hpayout, hget, ?_, ?_⟩
  · rw [hresult, payoutResult_terminal]
  · rw [hresult, payoutResult_withdrawal, hstatus]

theorem acknowledge_links (h : Due w saleId payoutRef resultCode) (hs : w.showsSale saleId = true)
    (hw : w.showsWithdrawal saleId = true) :
    callbackContract.Handles (acknowledge payoutRef resultCode) w 0 := by
  apply Contract.Handles.write
  intro w' ho _ others hI
  refine Linked.record hI (by simp) fun {ref code} heq => ?_
  cases heq
  obtain ⟨payout, hget, href, hstatus⟩ := (h.onward ho).payout
  exact ⟨saleId, payout, hget, href, by rw [hget, Option.map_some, hstatus], ho.sale hs, ho.withdrawal hw⟩

-- A sale that was saved by a callback shows its result.
theorem recordSale_links (h : Due w saleId payoutRef resultCode) :
    callbackContract.Safe (fun _ w own => own = 0 ∧ w.showsSale saleId = true)
      (recordSale saleId resultCode) w 0 := by
  apply Contract.Safe.read
  intro w₁ ho₁ _
  obtain ⟨sale, hget⟩ := Option.isSome_iff_exists.mp (ho₁.sales h.sale)
  rw [hget]
  intro w₂ ho₂ others hI hg
  obtain ⟨hlinked, ho⟩ := Linked.saveSale hI hg
  refine ⟨0, hlinked, ho, rfl, ?_⟩
  have hdue := (h.onward ho₁).onward (ho₂.trans ho)
  by_cases hstatus : sale.status = saleResult resultCode
  case pos => exact ho.sale (ho₂.sale ((h.onward ho₁).showsSale hget hstatus))
  case neg =>
    obtain ⟨stored, hstored⟩ := Option.isSome_iff_exists.mp ((h.onward ho₁).onward ho₂).sale
    have hsaved : (saveSaleOn ((Document.read sale).modify ({ · with status := saleResult resultCode }))
        stored).status = saleResult resultCode := Document.written_current (Ne.symm hstatus)
    refine hdue.showsSale ?_ hsaved
    rw [World.updateSale, hstored]
    exact KVStore.get_set_self

theorem withdrawalIdOf_inj {saleId' : String} (h : withdrawalIdOf saleId = withdrawalIdOf saleId') :
    saleId = saleId' := by
  rw [withdrawalIdOf, withdrawalIdOf] at h
  exact String.append_right_inj _ |>.mp h

theorem withdrawalIdOf_length : (withdrawalIdOf saleId).length = saleId.length + 11 := by
  rw [withdrawalIdOf, String.length_append, add_comm]
  rfl

-- A callback finds the withdrawal of its payout.
theorem Linked.findWithdrawal (h : Linked w) (hdue : Due w saleId payoutRef resultCode) :
    ∃ withdrawal, findWithdrawal payoutRef saleId w = some (withdrawalIdOf saleId, withdrawal) ∧
      w.withdrawals.get (withdrawalIdOf saleId) = some withdrawal := by
  obtain ⟨payout, hpayout, href, _⟩ := hdue.payout
  obtain ⟨own, hown⟩ := Option.isSome_iff_exists.mp hdue.withdrawal
  obtain ⟨saleId', hhex, hid, hsale⟩ := h.named hown
  cases withdrawalIdOf_inj hid
  cases hfound : Cashout.findWithdrawal payoutRef saleId w with
  | none =>
    have hn := List.find?_eq_none.mp hfound (_, own) (KVStore.mem_entries_iff.mpr hown)
    simp [hsale] at hn
  | some found =>
    obtain ⟨id, withdrawal⟩ := found
    have hget : w.withdrawals.get id = some withdrawal :=
      KVStore.mem_entries_iff.mp (List.mem_of_find?_eq_some hfound)
    have hmatch := List.find?_some hfound
    rw [decide_eq_true_eq] at hmatch
    have hid : id = withdrawalIdOf saleId := by
      obtain ⟨saleId', hhex', hid', hsale'⟩ := h.named hget
      rcases hmatch with hmatch | hmatch | hmatch
      · exact h.refs hget hpayout (by rw [href]; exact hmatch)
      · cases hsale'.symm.trans hmatch
        exact hid'
      · -- the id of a withdrawal is longer than that of a sale
        have hlength := congrArg String.length (hid'.symm.trans hmatch)
        rw [withdrawalIdOf_length] at hlength
        omega
    cases hid
    exact ⟨withdrawal, rfl, hget⟩

theorem recordWithdrawal_links (h : Due w saleId payoutRef resultCode) :
    callbackContract.Safe (fun _ w own => own = 0 ∧ w.showsWithdrawal saleId = true)
      (recordWithdrawal payoutRef saleId resultCode) w 0 := by
  apply Contract.Safe.look
  intro w₁ ho₁ _ _ hI
  have hdue₁ := h.onward ho₁
  obtain ⟨withdrawal, hfound, hget⟩ := Linked.findWithdrawal hI hdue₁
  rw [hfound]
  intro w₂ ho₂ others hI hg
  obtain ⟨hlinked, ho⟩ := Linked.saveWithdrawal hI hg
  refine ⟨0, hlinked, ho, rfl, ?_⟩
  have hdue := hdue₁.onward (ho₂.trans ho)
  by_cases hstatus : withdrawal.status = withdrawalResult resultCode
  case pos => exact ho.withdrawal (ho₂.withdrawal (hdue₁.showsWithdrawal hget hstatus))
  case neg =>
    obtain ⟨stored, hstored⟩ := Option.isSome_iff_exists.mp (hdue₁.onward ho₂).withdrawal
    have hsaved : (saveWithdrawalOn ((Document.read withdrawal).modify ({ · with
        status    := withdrawalResult resultCode
        payoutRef := some payoutRef
      })) stored).status = withdrawalResult resultCode := Document.written_current (Ne.symm hstatus)
    refine hdue.showsWithdrawal ?_ hsaved
    rw [World.updateWithdrawal, hstored]
    dsimp only
    split_ifs
    case pos => exact KVStore.get_set_self
    case neg => exact KVStore.get_set_self

theorem finishCallback_links {o : CallbackOutcome} (h : Due w saleId payoutRef resultCode) :
    callbackContract.Handles (finishCallback payoutRef saleId resultCode o) w 0 := by
  have hfailing : ∀ w, callbackContract.Handles (.skip .failing) w 0 :=
    fun w => Contract.Handles.write fun w' _ _ _ hI => ⟨hI, .refl w'⟩
  refine Contract.Safe.ite (fun _ => hfailing w) fun _ => ?_
  have hsale := (recordSale_links h).frame (fun ho h => Due.onward ho h) h
  refine Contract.Safe.bind (hsale.imp ?_)
  rintro _ w₁ own ⟨⟨rfl, hshown⟩, h₁⟩
  refine Contract.Safe.ite (fun _ => hfailing w₁) fun _ => ?_
  have hwithdrawal := (recordWithdrawal_links h₁).frame (K := fun w =>
    Due w saleId payoutRef resultCode ∧ w.showsSale saleId = true)
    (fun ho h => ⟨Due.onward ho h.1, Onward.sale ho h.2⟩) ⟨h₁, hshown⟩
  refine Contract.Safe.bind (hwithdrawal.imp ?_)
  rintro _ w₂ own ⟨⟨rfl, hshown'⟩, h₂, hshown⟩
  exact Contract.Safe.ite (fun _ => Contract.Handles.done) fun _ => acknowledge_links h₂ hshown hshown'

theorem handlePayoutCallback_links {o : CallbackOutcome} :
    callbackContract.Handles (handlePayoutCallback payoutRef resultCode o) w 0 := by
  refine Contract.Safe.ite (fun _ => Contract.Handles.done) fun _ => ?_
  apply Contract.Safe.act
  intro w₁ _ hg others hI
  have hg : (findByPayoutRef payoutRef w₁).any (fun e =>
    (w₁.sales.get e.1).isSome && (w₁.withdrawals.get (withdrawalIdOf e.1)).isSome &&
    (!terminal e.2.payoutStatus || e.2.payoutStatus = payoutResult resultCode && w₁.showsSale e.1 &&
      w₁.showsWithdrawal e.1)) = true := hg
  obtain ⟨hlinked, ho⟩ := Linked.record hI (e := .delivered payoutRef resultCode) (by simp) (by simp)
  refine ⟨0, hlinked, ho, ?_⟩
  cases hfound : findByPayoutRef payoutRef w₁ with
  | none =>
    rw [hfound] at hg
    cases hg
  | some found =>
    obtain ⟨saleId, payout⟩ := found
    have hget : w₁.payouts.get saleId = some payout :=
      KVStore.mem_entries_iff.mp (List.mem_of_find?_eq_some hfound)
    have href : payout.payoutRef = payoutRef := by simpa using List.find?_some hfound
    rw [hfound] at hg
    simp only [Option.any_some, Bool.and_eq_true, Bool.or_eq_true, Bool.not_eq_true',
      decide_eq_true_eq] at hg
    obtain ⟨⟨hsale, hwithdrawal⟩, hshown⟩ := hg
    rw [applyCallback]
    refine Contract.Safe.ite (fun hterminal => ?_) fun hterminal => ?_
    case refine_1 =>
      obtain ⟨⟨hresult, hs⟩, hw⟩ := hshown.resolve_left (by simp [hterminal])
      exact acknowledge_links ⟨⟨payout, hget, href, hresult⟩, hsale, hwithdrawal⟩ (ho.sale hs)
        (ho.withdrawal hw)
    case refine_2 =>
      apply Contract.Safe.write
      intro w₂ ho₂ hg others hI
      obtain ⟨hlinked, ho'⟩ := Linked.savePayout hI hg
      refine ⟨0, hlinked, ho', finishCallback_links ?_⟩
      obtain ⟨stored, hstored, href', _⟩ := (ho.trans ho₂).payouts hget
      have hne : payoutResult resultCode ≠ payout.payoutStatus := by
        intro heq
        rw [← heq, payoutResult_terminal] at hterminal
        exact hterminal rfl
      have hsaved : (savePayoutOn ((Document.read payout).modify ({ · with
          payoutStatus := payoutResult resultCode
        })) stored).payoutStatus = payoutResult resultCode := Document.written_current hne
      have hall := (ho.trans ho₂).trans ho'
      refine ⟨⟨savePayoutOn _ stored, ?_, href'.trans href, hsaved⟩, hall.sales hsale,
        hall.withdrawals hwithdrawal⟩
      rw [World.updatePayout, hstored]
      exact KVStore.get_set_self

theorem handler_links (cfg : Config) (request : Request) :
    callbackContract.Handles (request.handler cfg) w 0 := by
  cases request with
  | sell req =>
    exact Contract.Handles.of_keeps ((sell_steps (D := fun _ => True) trivial).mono Effect.links)
  | resign saleId txBytes =>
    exact Contract.Handles.of_keeps ((resign_steps (D := fun _ => True)).mono Effect.links)
  | processQueued reserveKes outcome =>
    refine Contract.Safe.read fun w' _ _ => ?_
    exact Contract.Handles.of_keeps ((releaseEach_steps (D := fun _ => True) fun _ => trivial).mono Effect.links)
  | callback payoutRef resultCode o => exact handlePayoutCallback_links
  | status withdrawalId =>
    exact Contract.Handles.of_keeps ((syncWithdrawalStatus_steps (D := fun _ => True)).mono Effect.links)
  | retry withdrawalId env =>
    exact Contract.Handles.of_keeps ((retry_steps (D := fun _ => True) trivial).mono Effect.links)
  | resolve withdrawalId outcome =>
    exact Contract.Handles.of_keeps ((resolve_steps (D := fun _ => True) trivial).mono Effect.links)

-- A callback of which no step fails comes to its answer.
theorem handlePayoutCallback_takes (h : payoutRef ≠ "") :
    (handlePayoutCallback payoutRef resultCode {}).Takes
      fun update => ∀ w, .acknowledged payoutRef resultCode ∈ (update w).events := by
  have hack : (acknowledge payoutRef resultCode).Takes
      fun update => ∀ w, .acknowledged payoutRef resultCode ∈ (update w).events :=
    .write fun w => List.mem_cons_self ..
  refine .ite (fun hn => absurd hn h) fun _ => .bind fun found => ?_
  rw [applyCallback.eq_def]
  split
  case h_1 => exact hack
  case h_2 saleId payout =>
    refine .ite (fun _ => hack) fun _ => .bind fun _ => ?_
    refine .ite (fun hn => absurd hn (by decide)) fun _ => .bind fun _ => ?_
    refine .ite (fun hn => absurd hn (by decide)) fun _ => .bind fun _ => ?_
    exact .ite (fun hn => absurd hn (by decide)) fun _ => hack

-- A callback for which there is no payout is acknowledged all the same.
theorem handlePayoutCallback_unknown {o : CallbackOutcome} (h : payoutRef ≠ "")
    (hnone : findByPayoutRef payoutRef w = none) :
    ((handlePayoutCallback payoutRef resultCode o).alone w).2 =
      (w.record (.delivered payoutRef resultCode)).record (.acknowledged payoutRef resultCode) := by
  rw [handlePayoutCallback, if_neg h, Prog.act_bind, Prog.alone_step, hnone]
  rfl

theorem empty_linked : Linked {} :=
  ⟨fun h => (by cases h), fun h => (by cases h), fun h => (by cases h), fun h => (by cases h),
    fun h => (by cases h)⟩

end Handlers

theorem Linked.callbacks (h : Linked w) : CallbacksRecorded w := by
  intro id payoutRef amount resultCode hpaid hack
  obtain ⟨saleId, payout, hget, href, hshows⟩ := h.recorded hack
  subst href
  have hid : id = withdrawalIdOf saleId := h.paid hget hpaid
  have hresult : payout.payoutStatus = payoutResult resultCode := by
    have hmarked := hshows.payout
    rw [hget, Option.map_some, Option.some.injEq] at hmarked
    exact hmarked
  obtain ⟨payout₁, sale, hget₁, hsale, _, hstatus⟩ := World.showsSale_iff.mp hshows.sale
  obtain ⟨payout₂, withdrawal, hget₂, hwithdrawal, _, hstatus'⟩ :=
    World.showsWithdrawal_iff.mp hshows.withdrawal
  cases hget.symm.trans hget₁
  cases hget.symm.trans hget₂
  refine ⟨saleId, hid, hshows.payout, ?_, ?_⟩
  · rw [hsale, Option.map_some, hstatus, hresult, payoutResult_sale]
  · rw [hid, hwithdrawal, Option.map_some, hstatus', hresult, payoutResult_withdrawal]

-- The callbacks of the payouts are recorded and answered.
theorem payout_callbacks {cfg : Config} {actions : List (Action Request)}
    (h : Pool.MeetsAll (Request.handler cfg) callbackGuard { store := {}, running := [] } actions) :
    CallbacksKept cfg actions := by
  have hstart : callbackContract.Holds { store := ({} : World), running := [] } fun _ => 0 :=
    ⟨by simp, empty_linked⟩
  have hr : ∀ request w, callbackContract.Handles (Request.handler cfg request) w 0 :=
    fun request w => handler_links cfg request
  refine ⟨?_, fun hi payoutRef resultCode href hm => ?_⟩
  case refine_1 =>
    obtain ⟨owned, hp⟩ := hstart.execs hr h
    exact Linked.callbacks hp.invariant
  case refine_2 =>
    have hawaits := hstart.awaits hr (fun ho hm => Onward.events ho _ hm) h
      (.inr ⟨_, hm, handlePayoutCallback_takes href⟩)
    exact hawaits.of_isIdle hi

instance : (label : Label) → (w : World) → Decidable (callbackGuard label w)
  | .paying _ (.accepted (some _)), _ => inferInstanceAs (Decidable (∀ _ ∈ _, _))
  | .creatingPayout _ _, _ => inferInstanceAs (Decidable ((∀ _ ∈ _, _) ∧ (∀ _ ∈ _, _) ∧ ∀ _ ∈ _, _))
  | .delivering _ _, _ => inferInstanceAs (Decidable (_ = true))
  | .savingPayout saleId d, w => inferInstanceAs (Decidable (∀ payout ∈ w.payouts.get saleId,
      terminal payout.payoutStatus = true → (savePayoutOn d payout).payoutStatus = payout.payoutStatus))
  | .savingSale _ _ _, _ => inferInstanceAs (Decidable (_ → _))
  | .savingWithdrawal _ _ _, _ => inferInstanceAs (Decidable (∀ _ ∈ _, (_ → _) ∧ (_ → _ → _)))
  | .paying _ (.accepted none), _ | .paying _ (.failed _ _ _), _ | .read, _ | .write, _ | .creatingSale _ _, _
  | .creating _ _, _ | .failing, _ | .deciding _, _ => .isTrue trivial

namespace Sample

def called : Request :=
  .callback "aaaaaaaaaaaaaaaaaaaaaaaa" 0 {}

-- The callback comes after the payout of the provider, and before the payout is created.
def overtaken : List (Action Request) :=
  .start firstSale :: List.replicate 7 (.run 0) ++
    .start called :: List.replicate 2 (.run 1) ++ List.replicate 2 (.run 0)

end Sample

end Cashout
