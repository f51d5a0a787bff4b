import MallChain.Trade.Credits

namespace Trade

open Interleaving

-- The requests of the buy flow, and what the provider does.
inductive BuyRequest
  | reserve (quoteId walletAddress : String) (amount fiatAmount buyPrice : ℚ)
  | mpesa (quoteId : String) (amount : ℚ) (stk : StkPush)
  | collect (paymentId : String)
  | callback (paymentId : String) (resultCode : ℤ) (outcome : CallbackOutcome)
  | credit (quoteId : String) (walletAddress transfer : Option String) (provision : Provision)

def BuyRequest.handler : BuyRequest → Handler Unit
  | reserve quoteId walletAddress amount fiatAmount buyPrice =>
    Trade.reserve quoteId walletAddress amount fiatAmount buyPrice
  | mpesa quoteId amount stk => initiateMpesaRequest quoteId amount stk
  | collect paymentId => Trade.collect paymentId
  | callback paymentId resultCode outcome => processMpesaCallback paymentId resultCode outcome
  | credit quoteId walletAddress transfer provision =>
    handleReservedCredit quoteId walletAddress transfer provision

-- All runs of the buy flow from empty collections.
def buySystem : TransitionSystem (Pool Label World) (Action BuyRequest) :=
  system (· = {}) BuyRequest.handler

namespace Event

-- The id of a request to a phone.
def paymentId : Event → Option String
  | pushed _ paymentId _ => some paymentId
  | _                    => none

-- The purchase that an event belongs to.
def quoteId : Event → Option String
  | reserved quoteId _ | pushed quoteId _ _ | credited quoteId _ => some quoteId
  | _                                                            => none

end Event

namespace World

variable (w : World) (quoteId : String)

-- What the provider has taken for a purchase by one request to the phone, and by all of them.

def taken : Event → Option ℚ
  | .pushed id paymentId amount =>
    if id = quoteId ∧ .collected paymentId ∈ w.events then some amount else none
  | _ => none

def collectedAmounts : List ℚ :=
  w.events.filterMap (w.taken quoteId)

def amountCollected : ℚ :=
  (w.collectedAmounts quoteId).sum

-- A request asks for the amount of its purchase, of which nothing has been taken yet.
def isDue (paymentId : String) : Event → Bool
  | .pushed quoteId id amount =>
    id ≠ paymentId ||
      ((w.purchases.get quoteId).any (·.fiatAmount = amount) && (w.collectedAmounts quoteId).isEmpty)
  | _ => true

end World

-- The provider gives every request an id of its own, and reports a success only for what it has taken.
def truthful : Label → World → Prop
  | .pushing _ paymentId _, w           => ∀ e ∈ w.events, e.paymentId ≠ some paymentId
  | .delivering paymentId resultCode, w => resultCode = 0 → .collected paymentId ∈ w.events
  | _, _                                => True

-- The prices are those of the server, and what is taken for a purchase is taken once, at its amount.
def priced : Label → World → Prop
  | .reserving amount fiatAmount buyPrice, _ => amount * buyPrice ≤ fiatAmount
  | .collecting paymentId, w                 =>
    .collected paymentId ∈ w.events ∨ ∀ e ∈ w.events, w.isDue paymentId e = true
  | label, w                                 => truthful label w

-- Whatever was credited is paid.
def Paid (w : World) : Prop :=
  ∀ quoteId amount, .credited quoteId amount ∈ w.events → ∃ purchase,
    w.purchases.get quoteId = some purchase ∧ w.amountCollected quoteId = purchase.fiatAmount ∧
    (∃ buyPrice, .reserved quoteId buyPrice ∈ w.events) ∧
    ∀ buyPrice, .reserved quoteId buyPrice ∈ w.events → amount * buyPrice ≤ purchase.fiatAmount

-- Something was taken for a purchase.
def IsPaid (quoteId : String) (w : World) : Prop :=
  ∃ paymentId amount, .pushed quoteId paymentId amount ∈ w.events ∧ .collected paymentId ∈ w.events

def PurchaseStatus.needsPayment : PurchaseStatus → Bool
  | confirmed | processing | credited => true
  | _                                 => false

structure Backed (w : World) (quoteId : String) (purchase : MallcoinPurchase) : Prop where
  ids       : ∀ paymentId, purchase.paymentId = some paymentId ∨ paymentId ∈ purchase.paymentIds →
    ∃ amount, .pushed quoteId paymentId amount ∈ w.events
  reserved  : ∃ buyPrice, .reserved quoteId buyPrice ∈ w.events
  price     : ∀ buyPrice, .reserved quoteId buyPrice ∈ w.events →
    purchase.amount * buyPrice ≤ purchase.fiatAmount
  collected : w.collectedAmounts quoteId = [] ∨ w.collectedAmounts quoteId = [purchase.fiatAmount]
  confirmed : purchase.status.needsPayment = true → IsPaid quoteId w
  credited  : ∀ amount, .credited quoteId amount ∈ w.events →
    amount = purchase.amount ∧ IsPaid quoteId w

structure Ledgered (w : World) : Prop where
  distinct : (w.events.filterMap Event.paymentId).Nodup
  known    : ∀ paymentId, .collected paymentId ∈ w.events →
    ∃ quoteId amount, .pushed quoteId paymentId amount ∈ w.events
  backed   : ∀ quoteId purchase, w.purchases.get quoteId = some purchase → Backed w quoteId purchase
  absent   : ∀ quoteId, w.purchases.get quoteId = none → ∀ e ∈ w.events, e.quoteId ≠ some quoteId

-- What happened has happened, and a purchase keeps its amounts.
structure Later (w w' : World) : Prop where
  events    : ∀ e ∈ w.events, e ∈ w'.events
  purchases : ∀ quoteId purchase, w.purchases.get quoteId = some purchase → ∃ purchase',
    w'.purchases.get quoteId = some purchase' ∧ purchase'.amount = purchase.amount

theorem Later.refl (w : World) : Later w w where
  events _ h      := h
  purchases _ _ h := ⟨_, h, rfl⟩

theorem Later.trans {w₁ w₂ w₃ : World} (h : Later w₁ w₂) (h' : Later w₂ w₃) : Later w₁ w₃ where
  events e he := h'.events e (h.events e he)
  purchases quoteId purchase hget := by
    obtain ⟨purchase', hget', hamount⟩ := h.purchases quoteId purchase hget
    obtain ⟨purchase'', hget'', hamount'⟩ := h'.purchases quoteId purchase' hget'
    exact ⟨purchase'', hget'', hamount'.trans hamount⟩

def paymentContract : Contract Label World ℕ where
  invariant w _ := Ledgered w
  grows         := Later
  guard         := priced
  refl          := .refl
  trans h h'    := h.trans h'

variable {w w' : World} {quoteId id paymentId : String} {amount : ℚ} {e : Event}
  {purchase : MallcoinPurchase}

theorem IsPaid.later (h : IsPaid quoteId w) (hl : Later w w') : IsPaid quoteId w' := by
  obtain ⟨paymentId, amount, hpushed, hcollected⟩ := h
  exact ⟨paymentId, amount, hl.events _ hpushed, hl.events _ hcollected⟩

theorem Later.record : Later w (w.record e) where
  events _ h      := List.mem_cons_of_mem _ h
  purchases _ _ h := ⟨_, h, rfl⟩

section Events

theorem taken_eq_some : w.taken quoteId e = some amount ↔
    ∃ paymentId, e = .pushed quoteId paymentId amount ∧ .collected paymentId ∈ w.events := by
  cases e with
  | pushed id paymentId amount' =>
    simp only [World.taken, Option.ite_none_right_eq_some, Option.some.injEq, Event.pushed.injEq]
    constructor
    · rintro ⟨⟨rfl, hin⟩, rfl⟩
      exact ⟨paymentId, ⟨rfl, rfl, rfl⟩, hin⟩
    · rintro ⟨_, ⟨rfl, rfl, rfl⟩, hin⟩
      exact ⟨⟨rfl, hin⟩, rfl⟩
  | _ => simp [World.taken]

theorem mem_collectedAmounts : amount ∈ w.collectedAmounts quoteId ↔
    ∃ paymentId, .pushed quoteId paymentId amount ∈ w.events ∧ .collected paymentId ∈ w.events := by
  simp only [World.collectedAmounts, List.mem_filterMap, taken_eq_some]
  constructor
  · rintro ⟨_, hmem, paymentId, rfl, hin⟩
    exact ⟨paymentId, hmem, hin⟩
  · rintro ⟨paymentId, hmem, hin⟩
    exact ⟨_, hmem, paymentId, rfl, hin⟩

theorem collectedAmounts_eq_nil_iff : w.collectedAmounts quoteId = [] ↔ ¬IsPaid quoteId w := by
  rw [List.eq_nil_iff_forall_not_mem]
  constructor
  · rintro h ⟨paymentId, amount, hmem, hcollected⟩
    exact h amount (mem_collectedAmounts.mpr ⟨paymentId, hmem, hcollected⟩)
  · intro h amount hmem
    obtain ⟨paymentId, hpushed, hcollected⟩ := mem_collectedAmounts.mp hmem
    exact h ⟨paymentId, amount, hpushed, hcollected⟩

-- Of events with different ids only one has the id of `e`.
theorem filter_paymentId {l : List Event} (h : (l.filterMap Event.paymentId).Nodup) (hm : e ∈ l)
    (he : e.paymentId = some paymentId) :
    l.filter (fun e' => e'.paymentId = some paymentId) = [e] := by
  induction l with
  | nil => cases hm
  | cons e₀ l ih =>
    have hid : ∀ e' ∈ l, e'.paymentId = some paymentId → paymentId ∈ l.filterMap Event.paymentId :=
      fun e' hmem he' => List.mem_filterMap.mpr ⟨e', hmem, he'⟩
    by_cases he₀ : e₀.paymentId = some paymentId
    case pos =>
      rw [List.filterMap_cons_some he₀, List.nodup_cons] at h
      have hrest : l.filter (fun e' => e'.paymentId = some paymentId) = [] :=
        List.filter_eq_nil_iff.mpr fun e' hmem he' =>
          h.1 (hid e' hmem (of_decide_eq_true he'))
      rcases List.mem_cons.mp hm with rfl | hm
      · rw [List.filter_cons_of_pos (by simpa using he), hrest]
      · exact absurd (hid e hm he) h.1
    case neg =>
      have htail : (l.filterMap Event.paymentId).Nodup := by
        cases hn : e₀.paymentId with
        | none => rwa [List.filterMap_cons_none hn] at h
        | some _ =>
          rw [List.filterMap_cons_some hn] at h
          exact (List.nodup_cons.mp h).2
      rcases List.mem_cons.mp hm with rfl | hm
      · exact absurd he he₀
      · rw [List.filter_cons_of_neg (by simpa using he₀)]
        exact ih htail hm

theorem collectedAmounts_record
    (hpushed : ∀ paymentId amount, e = .pushed quoteId paymentId amount →
      .collected paymentId ∉ w.events)
    (hcollected : ∀ paymentId amount, e = .collected paymentId →
      .pushed quoteId paymentId amount ∈ w.events → .collected paymentId ∈ w.events) :
    (w.record e).collectedAmounts quoteId = w.collectedAmounts quoteId := by
  have hhead : (w.record e).taken quoteId e = none := by
    refine Option.eq_none_iff_forall_ne_some.mpr fun amount he => ?_
    obtain ⟨paymentId, rfl, hin⟩ := taken_eq_some.mp he
    refine hpushed paymentId amount rfl ?_
    simpa [World.record] using hin
  have htail : ∀ e' ∈ w.events, (w.record e).taken quoteId e' = w.taken quoteId e' := by
    intro e' hmem
    refine Option.ext fun amount => ?_
    rw [taken_eq_some, taken_eq_some]
    constructor
    · rintro ⟨paymentId, rfl, hin⟩
      refine ⟨paymentId, rfl, ?_⟩
      rcases List.mem_cons.mp hin with heq | hin
      · exact hcollected paymentId amount heq.symm hmem
      · exact hin
    · rintro ⟨paymentId, rfl, hin⟩
      exact ⟨paymentId, rfl, List.mem_cons_of_mem _ hin⟩
  calc (w.record e).collectedAmounts quoteId
      = w.events.filterMap ((w.record e).taken quoteId) := List.filterMap_cons_none hhead
    _ = w.collectedAmounts quoteId := List.filterMap_congr htail

-- The first request of a purchase is taken.
theorem collectedAmounts_collected (h : Ledgered w)
    (hm : .pushed quoteId paymentId amount ∈ w.events) (hnone : w.collectedAmounts quoteId = []) :
    (w.record (.collected paymentId)).collectedAmounts quoteId = [amount] := by
  have hpaid := collectedAmounts_eq_nil_iff.mp hnone
  have honly : ∀ e' ∈ w.events, ∀ amount',
      (w.record (.collected paymentId)).taken quoteId e' = some amount' →
      e'.paymentId = some paymentId := by
    intro e' hmem amount' he
    obtain ⟨id, rfl, hin⟩ := taken_eq_some.mp he
    rcases List.mem_cons.mp hin with heq | hin
    · cases heq
      rfl
    · exact absurd ⟨id, amount', hmem, hin⟩ hpaid
  have hfilter : w.events.filterMap ((w.record (.collected paymentId)).taken quoteId) =
      (w.events.filter fun e' => e'.paymentId = some paymentId).filterMap
        ((w.record (.collected paymentId)).taken quoteId) := by
    rw [List.filterMap_filter]
    refine List.filterMap_congr fun e' hmem => ?_
    split_ifs with he'
    case pos => rfl
    case neg =>
      refine Option.eq_none_iff_forall_ne_some.mpr fun amount' htaken => he' ?_
      exact decide_eq_true (honly e' hmem amount' htaken)
  have hself : (w.record (.collected paymentId)).taken quoteId (.pushed quoteId paymentId amount) =
      some amount := taken_eq_some.mpr ⟨paymentId, rfl, List.mem_cons_self ..⟩
  calc (w.record (.collected paymentId)).collectedAmounts quoteId
      = w.events.filterMap ((w.record (.collected paymentId)).taken quoteId) :=
        List.filterMap_cons_none rfl
    _ = [amount] := by
        rw [hfilter, filter_paymentId h.distinct hm rfl, List.filterMap_cons_some hself,
          List.filterMap_nil]

end Events

section Steps

theorem Backed.congr (h : Backed w quoteId purchase) (hevents : w'.events = w.events) :
    Backed w' quoteId purchase := by
  have hpaid : IsPaid quoteId w' = IsPaid quoteId w := by
    rw [IsPaid, IsPaid, hevents]
  have hamounts : w'.collectedAmounts quoteId = w.collectedAmounts quoteId := by
    have htaken : w'.taken quoteId = w.taken quoteId := by
      funext e
      cases e <;> simp [World.taken, hevents]
    rw [World.collectedAmounts, World.collectedAmounts, htaken, hevents]
  exact ⟨hevents.symm ▸ h.ids, hevents.symm ▸ h.reserved, hevents.symm ▸ h.price, hamounts.symm ▸ h.collected,
    hpaid.symm ▸ h.confirmed, fun amount hm => hpaid.symm ▸ h.credited amount (hevents ▸ hm)⟩

theorem Backed.record (h : Backed w quoteId purchase)
    (hcollected : (w.record e).collectedAmounts quoteId = [] ∨
      (w.record e).collectedAmounts quoteId = [purchase.fiatAmount])
    (hreserved : ∀ buyPrice, e ≠ .reserved quoteId buyPrice)
    (hcredited : ∀ amount, e = .credited quoteId amount →
      amount = purchase.amount ∧ IsPaid quoteId w) : Backed (w.record e) quoteId purchase where
  ids paymentId hid := by
    obtain ⟨amount, hm⟩ := h.ids paymentId hid
    exact ⟨amount, List.mem_cons_of_mem _ hm⟩
  reserved := by
    obtain ⟨buyPrice, hm⟩ := h.reserved
    exact ⟨buyPrice, List.mem_cons_of_mem _ hm⟩
  price buyPrice hm := by
    rcases List.mem_cons.mp hm with heq | hm
    · exact absurd heq.symm (hreserved buyPrice)
    · exact h.price buyPrice hm
  collected := hcollected
  confirmed hs := (h.confirmed hs).later .record
  credited amount hm := by
    rcases List.mem_cons.mp hm with heq | hm
    · exact ⟨(hcredited amount heq.symm).1, (hcredited amount heq.symm).2.later .record⟩
    · exact ⟨(h.credited amount hm).1, (h.credited amount hm).2.later .record⟩

theorem Ledgered.record (h : Ledgered w)
    (hid : ∀ paymentId, e.paymentId = some paymentId → ∀ e' ∈ w.events, e'.paymentId ≠ some paymentId)
    (hcollected : ∀ paymentId, e = .collected paymentId →
      ∃ quoteId amount, .pushed quoteId paymentId amount ∈ w.events)
    (hbacked : ∀ quoteId purchase, w.purchases.get quoteId = some purchase →
      Backed (w.record e) quoteId purchase)
    (hquote : ∀ quoteId, e.quoteId = some quoteId → w.purchases.get quoteId ≠ none) :
    Ledgered (w.record e) where
  distinct := by
    rw [World.record]
    cases he : e.paymentId with
    | none =>
      rw [List.filterMap_cons_none he]
      exact h.distinct
    | some paymentId =>
      rw [List.filterMap_cons_some he, List.nodup_cons, List.mem_filterMap]
      refine ⟨?_, h.distinct⟩
      rintro ⟨e', hmem, he'⟩
      exact hid paymentId he e' hmem he'
  known paymentId hm := by
    have hpushed : ∃ quoteId amount, .pushed quoteId paymentId amount ∈ w.events := by
      rcases List.mem_cons.mp hm with heq | hm
      · exact hcollected paymentId heq.symm
      · exact h.known paymentId hm
    obtain ⟨quoteId, amount, hm⟩ := hpushed
    exact ⟨quoteId, amount, List.mem_cons_of_mem _ hm⟩
  backed := hbacked
  absent quoteId hnone e' hm := by
    rcases List.mem_cons.mp hm with rfl | hm
    · exact fun he => hquote quoteId he hnone
    · exact h.absent quoteId hnone e' hm

-- An event that has nothing to do with payments.
theorem Ledgered.record_other (h : Ledgered w) (hquote : e.quoteId = none)
    (hcollected : ∀ paymentId, e ≠ .collected paymentId) : Ledgered (w.record e) := by
  have hid : e.paymentId = none := by
    cases e <;> first | rfl | cases hquote
  refine h.record (by simp [hid]) (fun paymentId heq => absurd heq (hcollected paymentId))
    (fun quoteId purchase hget => ?_) (by simp [hquote])
  have hsame : (w.record e).collectedAmounts quoteId = w.collectedAmounts quoteId := by
    refine collectedAmounts_record ?_ fun paymentId amount heq => absurd heq (hcollected paymentId)
    rintro paymentId amount rfl
    cases hquote
  have hb := h.backed quoteId purchase hget
  refine hb.record (hsame.symm ▸ hb.collected) ?_ ?_
  · rintro buyPrice rfl
    cases hquote
  · rintro amount rfl
    cases hquote

theorem Ledgered.push (h : Ledgered w) (hget : w.purchases.get id ≠ none)
    (hid : ∀ e ∈ w.events, e.paymentId ≠ some paymentId) :
    Ledgered (w.record (.pushed id paymentId amount)) := by
  refine h.record ?_ (by simp) (fun quoteId purchase hp => ?_) ?_
  · rintro paymentId' heq e' hm
    cases heq
    exact hid e' hm
  · have hsame : (w.record (.pushed id paymentId amount)).collectedAmounts quoteId =
        w.collectedAmounts quoteId := by
      refine collectedAmounts_record (fun paymentId' amount' heq hin => ?_) (by simp)
      cases heq
      obtain ⟨quoteId', amount', hm⟩ := h.known _ hin
      exact hid _ hm rfl
    have hb := h.backed quoteId purchase hp
    exact hb.record (hsame.symm ▸ hb.collected) (by simp) (by simp)
  · rintro quoteId heq
    cases heq
    exact hget

theorem Ledgered.credit (h : Ledgered w) (hget : w.purchases.get id = some purchase)
    (hpaid : IsPaid id w) : Ledgered (w.record (.credited id purchase.amount)) := by
  refine h.record (by simp [Event.paymentId]) (by simp) (fun quoteId purchase' hp => ?_) ?_
  · have hsame : (w.record (.credited id purchase.amount)).collectedAmounts quoteId =
        w.collectedAmounts quoteId := collectedAmounts_record (by simp) (by simp)
    have hb := h.backed quoteId purchase' hp
    refine hb.record (hsame.symm ▸ hb.collected) (by simp) fun amount heq => ?_
    cases heq
    cases hget.symm.trans hp
    exact ⟨rfl, hpaid⟩
  · rintro quoteId heq
    cases heq
    simp [hget]

theorem Ledgered.collect (h : Ledgered w)
    (hpushed : ∃ quoteId amount, .pushed quoteId paymentId amount ∈ w.events)
    (hdue : ∀ e ∈ w.events, w.isDue paymentId e = true) :
    Ledgered (w.record (.collected paymentId)) := by
  refine h.record (by simp [Event.paymentId]) ?_ (fun quoteId purchase hp => ?_)
    (by simp [Event.quoteId])
  · rintro paymentId' heq
    cases heq
    exact hpushed
  · have hb := h.backed quoteId purchase hp
    refine hb.record ?_ (by simp) (by simp)
    by_cases hq : ∃ amount, .pushed quoteId paymentId amount ∈ w.events
    case pos =>
      obtain ⟨amount, hm⟩ := hq
      have hd := hdue _ hm
      simp only [World.isDue, ne_eq, not_true, decide_false, Bool.false_or, Bool.and_eq_true, hp,
        Option.any_some, decide_eq_true_eq, List.isEmpty_iff] at hd
      rw [collectedAmounts_collected h hm hd.2, hd.1]
      exact .inr rfl
    case neg =>
      have hsame : (w.record (.collected paymentId)).collectedAmounts quoteId =
          w.collectedAmounts quoteId := by
        refine collectedAmounts_record (by simp) fun paymentId' amount heq hm => ?_
        cases heq
        exact absurd ⟨amount, hm⟩ hq
      exact hsame.symm ▸ hb.collected

-- A new purchase has no events.
theorem Backed.reserve {buyPrice : ℚ} (h : ∀ e ∈ w.events, e.quoteId ≠ some quoteId)
    (hevents : w'.events = .reserved quoteId buyPrice :: w.events) (hpending : purchase.status = .pending)
    (hids : purchase.paymentId = none ∧ purchase.paymentIds = [])
    (hprice : purchase.amount * buyPrice ≤ purchase.fiatAmount) : Backed w' quoteId purchase where
  ids paymentId hid := by
    rw [hids.1, hids.2] at hid
    exact absurd hid (by simp)
  reserved := ⟨buyPrice, hevents ▸ List.mem_cons_self ..⟩
  price buyPrice' hm := by
    rw [hevents] at hm
    rcases List.mem_cons.mp hm with heq | hm
    · cases heq
      exact hprice
    · exact absurd rfl (h _ hm)
  collected := by
    refine .inl (collectedAmounts_eq_nil_iff.mpr ?_)
    rintro ⟨paymentId, amount, hm, _⟩
    rw [hevents] at hm
    rcases List.mem_cons.mp hm with heq | hm
    · cases heq
    · exact absurd rfl (h _ hm)
  confirmed hs := by
    rw [hpending] at hs
    cases hs
  credited amount hm := by
    rw [hevents] at hm
    rcases List.mem_cons.mp hm with heq | hm
    · cases heq
    · exact absurd rfl (h _ hm)

theorem Ledgered.reserve {buyPrice : ℚ} (h : Ledgered w) (hpending : purchase.status = .pending)
    (hids : purchase.paymentId = none ∧ purchase.paymentIds = [])
    (hprice : purchase.amount * buyPrice ≤ purchase.fiatAmount) :
    Ledgered (insertPurchase id purchase buyPrice w) ∧
      Later w (insertPurchase id purchase buyPrice w) := by
  rw [insertPurchase]
  split
  case h_1 => exact ⟨h, .refl w⟩
  case h_2 hnone =>
    have hother : ∀ {quoteId}, quoteId ≠ id →
        (w.purchases.set id purchase).get quoteId = w.purchases.get quoteId :=
      fun hne => KVStore.get_set_ne hne
    refine ⟨⟨?distinct, ?known, ?backed, ?absent⟩, fun e hm => List.mem_cons_of_mem _ hm, ?purchases⟩
    case distinct => exact h.distinct
    case known =>
      intro paymentId hm
      rcases List.mem_cons.mp hm with heq | hm
      · cases heq
      · obtain ⟨quoteId, amount, hm⟩ := h.known paymentId hm
        exact ⟨quoteId, amount, List.mem_cons_of_mem _ hm⟩
    case backed =>
      intro quoteId purchase' hget
      by_cases hq : quoteId = id
      case pos =>
        subst hq
        have heq : some purchase = some purchase' := KVStore.get_set_self.symm.trans hget
        cases heq
        exact .reserve (h.absent quoteId hnone) rfl hpending hids hprice
      case neg =>
        have hb := h.backed quoteId purchase' ((hother hq).symm.trans hget)
        have hb' : Backed { w with purchases := w.purchases.set id purchase } quoteId purchase' :=
          hb.congr rfl
        refine hb'.record ?_ ?_ (by simp)
        · rw [collectedAmounts_record (by simp) (by simp)]
          exact hb'.collected
        · rintro buyPrice' heq
          cases heq
          exact hq rfl
    case absent =>
      intro quoteId hget e hm
      have hq : quoteId ≠ id := by
        rintro rfl
        have heq : some purchase = none := KVStore.get_set_self.symm.trans hget
        cases heq
      rcases List.mem_cons.mp hm with rfl | hm
      · intro heq
        cases heq
        exact hq rfl
      · exact h.absent quoteId ((hother hq).symm.trans hget) e hm
    case purchases =>
      intro quoteId purchase' hget
      have hq : quoteId ≠ id := by
        rintro rfl
        cases hnone.symm.trans hget
      exact ⟨purchase', (hother hq).trans hget, rfl⟩

-- A purchase is replaced by one with the same amounts.
theorem Ledgered.replace {f : MallcoinPurchase → MallcoinPurchase} (h : Ledgered w)
    (hamount : ∀ p, (f p).amount = p.amount) (hfiat : ∀ p, (f p).fiatAmount = p.fiatAmount)
    (hstatus : ∀ p, w.purchases.get id = some p → (f p).status.needsPayment = true → IsPaid id w)
    (hids : ∀ p, w.purchases.get id = some p → ∀ paymentId,
      (f p).paymentId = some paymentId ∨ paymentId ∈ (f p).paymentIds →
      ∃ amount, .pushed id paymentId amount ∈ w.events) :
    Ledgered (w.updatePurchase id f) ∧ Later w (w.updatePurchase id f) := by
  rw [World.updatePurchase]
  split
  case h_2 => exact ⟨h, .refl w⟩
  case h_1 p hp =>
    refine ⟨⟨h.distinct, h.known, ?backed, ?absent⟩, fun e hm => hm, ?purchases⟩
    case backed =>
      intro quoteId purchase hget
      by_cases hq : quoteId = id
      case pos =>
        subst hq
        have heq : some (f p) = some purchase := KVStore.get_set_self.symm.trans hget
        cases heq
        have hb := h.backed quoteId p hp
        refine Backed.congr (w := w) ⟨hids p hp, hb.reserved, ?_, ?_, hstatus p hp, ?_⟩ rfl
        · rw [hamount, hfiat]
          exact hb.price
        · rw [hfiat]
          exact hb.collected
        · rw [hamount]
          exact hb.credited
      case neg => exact (h.backed quoteId purchase ((KVStore.get_set_ne hq).symm.trans hget)).congr rfl
    case absent =>
      intro quoteId hget
      have hq : quoteId ≠ id := by
        rintro rfl
        have heq : some (f p) = none := KVStore.get_set_self.symm.trans hget
        cases heq
      exact h.absent quoteId ((KVStore.get_set_ne hq).symm.trans hget)
    case purchases =>
      intro quoteId purchase hget
      by_cases hq : quoteId = id
      case pos =>
        subst hq
        cases hp.symm.trans hget
        exact ⟨f p, KVStore.get_set_self, hamount p⟩
      case neg => exact ⟨purchase, (KVStore.get_set_ne hq).trans hget, rfl⟩

theorem Ledgered.save {d : Document MallcoinPurchase} (id : String) (h : Ledgered w)
    (hstatus : d.current.status ≠ d.loaded.status → d.current.status.needsPayment = true → IsPaid id w)
    (hid : d.current.paymentId = d.loaded.paymentId ∨ ∃ paymentId amount,
      d.current.paymentId = some paymentId ∧ .pushed id paymentId amount ∈ w.events)
    (hids : ∀ paymentId ∈ d.current.paymentIds.drop d.loaded.paymentIds.length,
      ∃ amount, .pushed id paymentId amount ∈ w.events) :
    Ledgered (w.updatePurchase id (savePurchase d)) ∧
      Later w (w.updatePurchase id (savePurchase d)) := by
  refine h.replace (fun _ => rfl) (fun _ => rfl) (fun p hp hs => ?_) fun p hp paymentId hmem => ?_
  case refine_1 =>
    have hb := h.backed id p hp
    by_cases heq : d.current.status = d.loaded.status
    case pos =>
      have hkept : (savePurchase d p).status = p.status := Document.written_stored heq
      exact hb.confirmed (hkept ▸ hs)
    case neg =>
      have hsaved : (savePurchase d p).status = d.current.status := Document.written_current heq
      exact hstatus heq (hsaved ▸ hs)
  case refine_2 =>
    have hb := h.backed id p hp
    rcases hmem with hmem | hmem
    · by_cases heq : d.current.paymentId = d.loaded.paymentId
      case pos =>
        have hkept : (savePurchase d p).paymentId = p.paymentId := Document.written_stored heq
        exact hb.ids paymentId (.inl (hkept.symm.trans hmem))
      case neg =>
        have hsaved : (savePurchase d p).paymentId = d.current.paymentId := Document.written_current heq
        obtain ⟨paymentId', amount, hcurrent, hm⟩ := hid.resolve_left heq
        rw [hsaved, hcurrent] at hmem
        cases hmem
        exact ⟨amount, hm⟩
    · rcases List.mem_append.mp hmem with hmem | hmem
      · exact hb.ids paymentId (.inr hmem)
      · exact hids paymentId hmem

end Steps

section Handlers

-- A purchase is there.
def IsStored (quoteId : String) (w : World) : Prop :=
  ∃ purchase, w.purchases.get quoteId = some purchase

theorem IsStored.later (hl : Later w w') (h : IsStored quoteId w) : IsStored quoteId w' := by
  obtain ⟨purchase, hget⟩ := h
  obtain ⟨purchase', hget', _⟩ := hl.purchases quoteId purchase hget
  exact ⟨purchase', hget'⟩

theorem reserve_handles {walletAddress : String} {fiatAmount buyPrice : ℚ} :
    paymentContract.Handles (reserve quoteId walletAddress amount fiatAmount buyPrice) w 0 := by
  apply Contract.Handles.write
  intro w' _ hg _ hI
  exact Ledgered.reserve hI rfl ⟨rfl, rfl⟩ hg

theorem push_keeps : paymentContract.KeepsWhere (IsStored quoteId) (.pushing quoteId paymentId amount)
    (·.record (.pushed quoteId paymentId amount)) := by
  rintro w own ⟨purchase, hget⟩ hg hI
  exact ⟨Ledgered.push hI (by simp [hget]) hg, .record⟩

theorem pushEach_keeps {paymentIds : List String} :
    (pushEach quoteId amount paymentIds).Steps (paymentContract.KeepsWhere (IsStored quoteId)) := by
  induction paymentIds with
  | nil => trivial
  | cons paymentId paymentIds ih => exact .bind (.write push_keeps) fun _ => ih

theorem initiateMpesaRequest_handles {stk : StkPush} :
    paymentContract.Handles (initiateMpesaRequest quoteId amount stk) w 0 := by
  apply Contract.Safe.read
  intro w₁ _ _
  cases hget : w₁.purchases.get quoteId with
  | none => exact Contract.Handles.done
  | some purchase =>
    refine Contract.Safe.ite (fun _ => Contract.Handles.done) fun hpending => ?_
    have heach : paymentContract.Safe (fun _ s own => own = 0 ∧ IsStored quoteId s)
        (pushEach quoteId amount stk.unanswered) w₁ 0 :=
      Contract.Safe.of_keepsWhere IsStored.later pushEach_keeps ⟨purchase, hget⟩
    refine Contract.Safe.bind (heach.imp ?_)
    rintro _ w₂ own ⟨rfl, hstored⟩
    cases stk.answered with
    | none => exact Contract.Handles.done
    | some paymentId =>
      apply Contract.Safe.write
      intro w₃ hl₃ hg others hI
      obtain ⟨hI', hl⟩ := push_keeps w₃ (0 + others) (hstored.later hl₃) hg hI
      refine ⟨0, hI', hl, ?_⟩
      refine Contract.Safe.ite (fun _ => Contract.Handles.done) fun _ => ?_
      apply Contract.Handles.write
      intro w₄ hl₄ _ _ hI
      have hpushed : .pushed quoteId paymentId amount ∈ w₄.events :=
        hl₄.events _ (List.mem_cons_self ..)
      refine Ledgered.save quoteId hI (fun _ hs => ?_) (.inr ⟨paymentId, amount, rfl, hpushed⟩)
        fun id hid => ?_
      · cases hs
      · rw [Document.modify, Document.read, addPaymentIdToPurchase] at hid
        dsimp only at hid
        split_ifs at hid
        case pos => simp at hid
        case neg =>
          rw [List.drop_left, List.mem_singleton] at hid
          exact ⟨amount, hid ▸ hpushed⟩

theorem collect_handles : paymentContract.Handles (collect paymentId) w 0 := by
  apply Contract.Handles.write
  intro w' _ hg _ hI
  split_ifs with hc
  case neg => exact ⟨hI, .refl w'⟩
  case pos =>
    refine ⟨Ledgered.collect hI ?_ (hg.resolve_left hc.2), .record⟩
    obtain ⟨e, hm, he⟩ := List.any_eq_true.mp hc.1
    cases e with
    | pushed quoteId id amount =>
      have hid : id = paymentId := of_decide_eq_true he
      exact ⟨quoteId, amount, hid ▸ hm⟩
    | _ => cases he

theorem acknowledge_handles {resultCode : ℤ} :
    paymentContract.Handles (acknowledge paymentId resultCode) w 0 := by
  apply Contract.Handles.write
  intro w' _ _ _ hI
  exact ⟨Ledgered.record_other hI rfl (by simp), .record⟩

theorem of_findByPaymentId (h : findByPaymentId paymentId w = some (quoteId, purchase)) :
    w.purchases.get quoteId = some purchase ∧
      (purchase.paymentId = some paymentId ∨ paymentId ∈ purchase.paymentIds) := by
  rw [findByPaymentId] at h
  refine ⟨KVStore.mem_entries_iff.mp (List.mem_of_find?_eq_some h), ?_⟩
  simpa using List.find?_some h

theorem processMpesaCallback_handles {resultCode : ℤ} {outcome : CallbackOutcome} :
    paymentContract.Handles (processMpesaCallback paymentId resultCode outcome) w 0 := by
  refine Contract.Safe.ite (fun _ => Contract.Handles.done) fun _ => ?_
  apply Contract.Safe.look
  intro w₁ _ hg others hI
  cases hfound : findByPaymentId paymentId w₁ with
  | none => exact acknowledge_handles
  | some found =>
    obtain ⟨quoteId, purchase⟩ := found
    obtain ⟨hget, hid⟩ := of_findByPaymentId hfound
    refine Contract.Safe.ite (fun _ => acknowledge_handles) fun _ => ?_
    refine Contract.Safe.ite (fun _ => Contract.Handles.done) fun _ => ?_
    have hpaid : resultCode = 0 → IsPaid quoteId w₁ := by
      intro hcode
      obtain ⟨amount, hpushed⟩ := (Ledgered.backed hI quoteId purchase hget).ids paymentId hid
      exact ⟨paymentId, amount, hpushed, hg hcode⟩
    apply Contract.Safe.write
    intro w₂ hl₂ _ others hI
    have hsave := Ledgered.save (d := (Document.read purchase).modify fun purchase =>
      { purchase with status := if resultCode = 0 then .confirmed else .failed }) quoteId hI
      (fun _ hs => ?status) (.inl rfl) (by simp [Document.modify, Document.read])
    case status =>
      by_cases hcode : resultCode = 0
      case pos => exact (hpaid hcode).later hl₂
      case neg =>
        rw [Document.modify, Document.read] at hs
        simp only [hcode, if_false] at hs
        cases hs
    refine ⟨0, hsave.1, hsave.2, ?_⟩
    exact Contract.Safe.ite (fun _ => Contract.Handles.done) fun _ => acknowledge_handles

theorem save_keeps {d : Document MallcoinPurchase} {label : Label}
    (hid : d.current.paymentId = d.loaded.paymentId)
    (hids : d.current.paymentIds = d.loaded.paymentIds) :
    paymentContract.KeepsWhere (IsPaid quoteId) label (·.updatePurchase quoteId (savePurchase d)) := by
  intro w own hpaid _ hI
  refine Ledgered.save quoteId hI (fun _ _ => hpaid) (.inl hid) fun paymentId hmem => ?_
  rw [hids, List.drop_length] at hmem
  cases hmem

theorem provide_keeps {target : Target} {amount0 amount1 : ℚ} {provision : Provision} :
    (provide target amount0 amount1 provision).Steps (paymentContract.KeepsWhere (IsPaid quoteId)) := by
  refine .write fun w own _ _ hI => ?_
  split_ifs
  case pos => exact ⟨Ledgered.record_other hI rfl (by simp), .record⟩
  case neg => exact ⟨hI, .refl w⟩

theorem ensure_keeps {txHash : String} {label : Label} :
    paymentContract.KeepsWhere (IsPaid quoteId) label
      (ensureLiquidityReconciliation quoteId txHash purchase) := by
  intro w own _ _ hI
  have h : Ledgered w := hI
  refine ⟨⟨h.distinct, h.known, fun id p hget => (h.backed id p hget).congr rfl, h.absent⟩,
    fun e hm => hm, fun id p hget => ⟨p, hget, rfl⟩⟩

theorem settleCredit_keeps {txHash : String} {provision : Provision} :
    (settleCredit quoteId txHash purchase provision).Steps
      (paymentContract.KeepsWhere (IsPaid quoteId)) := by
  have happly : ∀ p : MallcoinPurchase, (provision.applyTo p).paymentId = p.paymentId ∧
      (provision.applyTo p).paymentIds = p.paymentIds := by
    intro p
    cases provision with
    | failed error effective => exact ⟨rfl, rfl⟩
    | added txHash lpTokens recordError => cases recordError <;> exact ⟨rfl, rfl⟩
  refine .ite (fun _ => .write (save_keeps rfl rfl)) fun _ => ?_
  refine .bind provide_keeps fun _ => ?_
  have hsave : (Prog.write (.write : Label) (World.updatePurchase · quoteId (savePurchase
      (((Document.read purchase).modify (creditedBy txHash)).modify provision.applyTo)))).Steps
      (paymentContract.KeepsWhere (IsPaid quoteId)) :=
    .write (save_keeps (happly _).1 (happly _).2)
  exact .ite (fun _ => .bind (.write ensure_keeps) fun _ => hsave) fun _ => hsave

-- A purchase that is claimed is paid.
theorem Ledgered.claim (h : Ledgered w) {stored : MallcoinPurchase}
    (hget : w.purchases.get quoteId = some stored) (hconfirmed : stored.status = .confirmed) :
    Ledgered (Trade.claim quoteId w) ∧ Later w (Trade.claim quoteId w) ∧ IsPaid quoteId w ∧
      (Trade.claim quoteId w).purchases.get quoteId = some { stored with status := .processing } := by
  have hb := h.backed quoteId stored hget
  have hpaid : IsPaid quoteId w := hb.confirmed (by rw [hconfirmed]; rfl)
  have hclaim : Trade.claim quoteId w =
      w.updatePurchase quoteId fun p => { p with status := .processing } := by
    rw [Trade.claim, World.updatePurchase, hget]
    exact if_pos hconfirmed
  have hreplaced : Ledgered (w.updatePurchase quoteId fun p => { p with status := .processing }) ∧
      Later w (w.updatePurchase quoteId fun p => { p with status := .processing }) :=
    h.replace (fun _ => rfl) (fun _ => rfl) (fun _ _ _ => hpaid)
      fun p hp => (h.backed quoteId p hp).ids
  rw [hclaim]
  refine ⟨hreplaced.1, hreplaced.2, hpaid, ?_⟩
  rw [World.updatePurchase, hget]
  exact KVStore.get_set_self

theorem handleReservedCredit_pays {walletAddress transfer : Option String} {provision : Provision} :
    paymentContract.Handles (handleReservedCredit quoteId walletAddress transfer provision) w 0 := by
  apply Contract.Safe.read
  intro w₁ _ _
  cases w₁.purchases.get quoteId with
  | none => exact Contract.Handles.done
  | some current =>
    refine Contract.Safe.ite (fun _ => Contract.Handles.done) fun _ => ?_
    refine Contract.Safe.ite (fun _ => Contract.Handles.done) fun _ => ?_
    apply Contract.Safe.act
    intro w₂ _ _ others hI
    cases hclaimed : claimed quoteId w₂ with
    | none =>
      rw [claim_of_unclaimed hclaimed]
      exact ⟨0, hI, .refl w₂, Contract.Handles.done⟩
    | some purchase =>
      obtain ⟨stored, hget, hconfirmed, rfl⟩ := of_claimed hclaimed
      obtain ⟨hI', hl, hpaid, hget'⟩ := Ledgered.claim hI hget hconfirmed
      refine ⟨0, hI', hl, ?_⟩
      apply Contract.Safe.write
      intro w₃ hl₃ _ others hI
      have hpaid₃ : IsPaid quoteId w₃ := (hpaid.later hl).later hl₃
      obtain ⟨purchase, hpurchase, hamount⟩ := hl₃.purchases quoteId _ hget'
      have hcredited := Ledgered.credit hI hpurchase hpaid₃
      rw [hamount] at hcredited
      refine ⟨0, hcredited, .record, ?_⟩
      cases transfer with
      | none => exact Contract.Handles.done
      | some txHash =>
        refine Contract.Safe.imp (Contract.Safe.of_keepsWhere (fun hl h => h.later hl)
          settleCredit_keeps (hpaid₃.later .record)) fun h => h.1

theorem buy_handles (request : BuyRequest) : paymentContract.Handles request.handler w 0 := by
  cases request with
  | reserve quoteId walletAddress amount fiatAmount buyPrice => exact reserve_handles
  | mpesa quoteId amount stk => exact initiateMpesaRequest_handles
  | collect paymentId => exact collect_handles
  | callback paymentId resultCode outcome => exact processMpesaCallback_handles
  | credit quoteId walletAddress transfer provision => exact handleReservedCredit_pays

end Handlers

theorem Ledgered.paid (h : Ledgered w) : Paid w := by
  intro quoteId amount hm
  cases hget : w.purchases.get quoteId with
  | none => exact absurd rfl (h.absent quoteId hget _ hm)
  | some purchase =>
    have hb := h.backed quoteId purchase hget
    obtain ⟨hamount, hpaid⟩ := hb.credited amount hm
    have hcollected : w.collectedAmounts quoteId = [purchase.fiatAmount] :=
      hb.collected.resolve_left fun hnil => collectedAmounts_eq_nil_iff.mp hnil hpaid
    refine ⟨purchase, rfl, ?_, hb.reserved, hamount ▸ hb.price⟩
    rw [World.amountCollected, hcollected, List.sum_singleton]

instance : (label : Label) → (w : World) → Decidable (truthful label w)
  | .pushing _ _ _, _ => inferInstanceAs (Decidable (∀ _ ∈ _, _))
  | .delivering _ _, _ => inferInstanceAs (Decidable (_ → _))
  | .read, _ | .write, _ | .reserving _ _ _, _ | .collecting _, _ | .savingPush _, _ | .savingCallback _, _
  | .providing _, _ | .requeueing _, _ | .removing _ _, _ | .restoring _ _ _, _ => .isTrue trivial

instance : (label : Label) → (w : World) → Decidable (priced label w)
  | .reserving _ _ _, _ => inferInstanceAs (Decidable (_ ≤ _))
  | .collecting _, _ => inferInstanceAs (Decidable (_ ∨ _))
  | .pushing quoteId paymentId amount, w =>
    inferInstanceAs (Decidable (truthful (.pushing quoteId paymentId amount) w))
  | .delivering paymentId resultCode, w =>
    inferInstanceAs (Decidable (truthful (.delivering paymentId resultCode) w))
  | .read, _ | .write, _ | .savingPush _, _ | .savingCallback _, _ | .providing _, _ | .requeueing _, _
  | .removing _ _, _ | .restoring _ _ _, _ => .isTrue trivial

namespace Sample

def paid (actions : List (Action BuyRequest)) : Pool Label World :=
  Pool.execs BuyRequest.handler { store := {}, running := [] } actions

-- The coins of a reservation are credited for what was asked from the phone.
def purchasedFor (amount : ℚ) : List (Action BuyRequest) :=
  inTurn 5 [.reserve "quote" "alice" 10 1000 100, .mpesa "quote" amount { answered := some "push" },
    .collect "push", .callback "push" 0 {}, .credit "quote" none (some "tx") (.added "add" 1 none)]

end Sample

end Trade
