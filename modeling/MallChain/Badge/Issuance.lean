import MallChain.Badge.Purchases

namespace Badge

open Interleaving Sdk

-- A callback finds its purchase. Once a purchase was confirmed no payment and no void is saved over its
-- status, and it is not confirmed again while its badge is issued. A claim is given back only when no
-- transaction of it can issue the badge.
def issuanceGuard : Label → World → Prop
  | .finding paymentId, w      => w.finds paymentId = true
  | .saving loaded current, w  =>
    current ≠ loaded → current ≠ .issued →
      if current = .confirmed then w.purchase.status ≠ .processing ∧ w.purchase.status ≠ .issued
      else w.wasConfirmed = false
  | .rollingBack, w            => w.inFlight = [] ∧ w.succeeded = false
  | .step, _                   => True

-- The badge is issued once, and no payment is lost.
structure IssuedOnce (p : Pool Label World) : Prop where
  stays   : p.store.wasIssued = true → p.store.purchase.status = .issued
  once    : p.store.rebroadcast = false
  settled : p.isIdle = true → p.store.succeeded = true → p.store.purchase.status = .issued
  paid    : ∀ paymentId ∈ p.store.delivered, p.store.results.get paymentId = some 0 →
    p.store.purchase.status ≠ .failed ∧ p.store.purchase.status ≠ .paymentInitiated

def PurchaseStatus.isPaid : PurchaseStatus → Bool
  | confirmed | processing | issued => true
  | _                               => false

-- The claims that are held, with the transaction that was sent for each. There is at most one.
inductive Phase (w : World) : Multiset (Option ℕ) → Prop
  | free : w.inFlight = [] → (w.succeeded = true → w.purchase.status = .issued) → Phase w 0
  | claimed : w.purchase.status = .processing → w.inFlight = [] → w.succeeded = false → Phase w {none}
  | sent {tx : ℕ} : w.purchase.status = .processing → w.inFlight = [tx] → tx < w.sent →
    w.executed.get tx = none → w.succeeded = false → Phase w {some tx}
  | executed {tx : ℕ} : w.purchase.status = .processing → w.inFlight = [] → Phase w {some tx}

structure Sound (w : World) (own : Multiset (Option ℕ)) : Prop where
  phase       : Phase w own
  confirmed   : w.wasConfirmed = w.purchase.status.isPaid
  issued      : w.wasIssued = true → w.purchase.status = .issued
  rebroadcast : w.rebroadcast = false
  fresh       : ∀ tx, w.sent ≤ tx → w.executed.get tx = none
  executed    : ∀ tx, w.executed.get tx = some true → w.succeeded = true
  delivered   : ∀ paymentId ∈ w.delivered, ∃ resultCode, w.results.get paymentId = some resultCode ∧
    (resultCode = 0 → w.wasConfirmed = true)

structure Later (w w' : World) : Prop where
  results   : ∀ paymentId resultCode, w.results.get paymentId = some resultCode →
    w'.results.get paymentId = some resultCode
  executed  : ∀ tx success, w.executed.get tx = some success → w'.executed.get tx = some success
  confirmed : w.wasConfirmed = true → w'.wasConfirmed = true
  succeeded : w.succeeded = true → w'.succeeded = true

def issuanceContract : Contract Label World (Multiset (Option ℕ)) where
  invariant   := Sound
  grows       := Later
  guard       := issuanceGuard
  refl _      := ⟨fun _ _ h => h, fun _ _ h => h, id, id⟩
  trans h h'  := ⟨fun id code hr => h'.results id code (h.results id code hr),
    fun tx success he => h'.executed tx success (h.executed tx success he),
    h'.confirmed ∘ h.confirmed, h'.succeeded ∘ h.succeeded⟩

variable {config : Config} {w w' : World} {own others : Multiset (Option ℕ)} {paymentId tx : ℕ}
  {resultCode : ℤ} {d : Document BadgePurchase} {attempt : Attempt}

section Phases

theorem Phase.of_held {claim : Option ℕ} (h : Phase w ({claim} + others)) :
    others = 0 ∧ w.purchase.status = .processing ∧ Phase w {claim} := by
  generalize hown : {claim} + others = own at h
  have hothers : ∀ claim' : Option ℕ, {claim} + others = {claim'} → others = 0 ∧ claim = claim' := by
    intro claim' heq
    rw [Multiset.singleton_add] at heq
    obtain ⟨rfl, rfl⟩ := (Multiset.singleton_eq_cons_iff ..).mp heq.symm
    exact ⟨rfl, rfl⟩
  cases h with
  | free => exact absurd hown (by simp)
  | claimed hs hf hn =>
    obtain ⟨rfl, rfl⟩ := hothers _ hown
    exact ⟨rfl, hs, .claimed hs hf hn⟩
  | sent hs hf hlt he hn =>
    obtain ⟨rfl, rfl⟩ := hothers _ hown
    exact ⟨rfl, hs, .sent hs hf hlt he hn⟩
  | executed hs hf =>
    obtain ⟨rfl, rfl⟩ := hothers _ hown
    exact ⟨rfl, hs, .executed hs hf⟩

theorem Phase.of_zero (h : Phase w 0) :
    w.inFlight = [] ∧ (w.succeeded = true → w.purchase.status = .issued) := by
  generalize hown : (0 : Multiset (Option ℕ)) = own at h
  cases h with
  | free hf hs => exact ⟨hf, hs⟩
  | _ => exact absurd hown (by simp)

theorem Phase.of_claimed (h : Phase w {none}) :
    w.purchase.status = .processing ∧ w.inFlight = [] ∧ w.succeeded = false := by
  generalize hown : ({none} : Multiset (Option ℕ)) = own at h
  cases h with
  | claimed hs hf hn => exact ⟨hs, hf, hn⟩
  | free => exact absurd hown (by simp)
  | sent => exact absurd hown (by simp)
  | executed => exact absurd hown (by simp)

-- While a purchase is not processed nobody holds a claim.
theorem Phase.of_status (h : Phase w own) (hs : w.purchase.status ≠ .processing) : own = 0 := by
  cases h with
  | free => rfl
  | claimed h | sent h | executed h => exact absurd h hs

-- The phase is about the status and the transactions.
theorem Phase.congr (h : Phase w own) (hs : w'.purchase.status = w.purchase.status)
    (hf : w'.inFlight = w.inFlight) (ht : w'.sent = w.sent) (he : w'.executed = w.executed)
    (hn : w'.succeeded = w.succeeded) : Phase w' own := by
  cases h with
  | free hf' hs' => exact .free (hf ▸ hf') (hn ▸ hs ▸ hs')
  | claimed hs' hf' hn' => exact .claimed (hs ▸ hs') (hf ▸ hf') (hn ▸ hn')
  | sent hs' hf' hlt he' hn' => exact .sent (hs ▸ hs') (hf ▸ hf') (ht ▸ hlt) (he ▸ he') (hn ▸ hn')
  | executed hs' hf' => exact .executed (hs ▸ hs') (hf ▸ hf')

end Phases

section Steps

theorem Later.save : Later w (w.save d) where
  results _ _ h  := h
  executed _ _ h := h
  confirmed h    := Bool.or_eq_true_iff.mpr (.inl h)
  succeeded      := id

-- A purchase is saved with a status that it may have.
theorem Sound.save_of {own' : Multiset (Option ℕ)} {status : PurchaseStatus} (h : Sound w own)
    (hstatus : (savePurchase d w.purchase).status = status) (hphase : Phase (w.save d) own')
    (hconfirmed : (w.wasConfirmed || decide (status = .confirmed)) = status.isPaid)
    (hissued : w.wasIssued = true → status = .issued) : Sound (w.save d) own' where
  phase       := hphase
  confirmed   := by
    subst hstatus
    exact hconfirmed
  issued hi   := by
    rcases Bool.or_eq_true_iff.mp hi with hi | hi
    · exact hstatus.trans (hissued hi)
    · exact of_decide_eq_true hi
  rebroadcast := h.rebroadcast
  fresh       := h.fresh
  executed    := h.executed
  delivered paymentId hm := by
    obtain ⟨resultCode, hr, hc⟩ := h.delivered paymentId hm
    exact ⟨resultCode, hr, fun hz => Later.save.confirmed (hc hz)⟩

-- A payment or a void is saved.
theorem Sound.save (h : Sound w own)
    (hg : issuanceGuard (.saving d.loaded.status d.current.status) w)
    (hcurrent : d.current.status = .confirmed ∨ d.current.status.isPaid = false) :
    Sound (w.save d) own := by
  have hne : d.current.status ≠ .issued := by
    intro hs
    rw [hs] at hcurrent
    rcases hcurrent with hs | hs <;> cases hs
  by_cases heq : d.current.status = d.loaded.status
  case pos =>
    have hstatus : (savePurchase d w.purchase).status = w.purchase.status := Document.written_stored heq
    refine h.save_of hstatus (h.phase.congr hstatus rfl rfl rfl rfl) ?_ h.issued
    rw [h.confirmed]
    cases w.purchase.status <;> rfl
  case neg =>
    have hstatus : (savePurchase d w.purchase).status = d.current.status := Document.written_current heq
    have hg := hg heq hne
    have hfree : w.purchase.status ≠ .processing ∧ w.purchase.status ≠ .issued := by
      split_ifs at hg with hc
      case pos => exact hg
      case neg =>
        rw [h.confirmed] at hg
        constructor <;> intro hs <;> rw [hs] at hg <;> cases hg
    obtain rfl := h.phase.of_status hfree.1
    obtain ⟨hf, hn⟩ := h.phase.of_zero
    refine h.save_of hstatus (.free hf fun hs => absurd (hn hs) hfree.2) ?_
      fun hi => absurd (h.issued hi) hfree.2
    split_ifs at hg with hc
    case pos => simp [hc, PurchaseStatus.isPaid]
    case neg => rw [hg, hcurrent.resolve_left hc, Bool.false_or, decide_eq_false hc]

theorem Sound.deliver (h : Sound w own) (hr : w.results.get paymentId = some resultCode)
    (hc : resultCode = 0 → w.wasConfirmed = true) : Sound (w.deliver paymentId) own where
  phase       := h.phase.congr rfl rfl rfl rfl rfl
  confirmed   := h.confirmed
  issued      := h.issued
  rebroadcast := h.rebroadcast
  fresh       := h.fresh
  executed    := h.executed
  delivered id hm := by
    rcases List.mem_cons.mp hm with rfl | hm
    · exact ⟨resultCode, hr, hc⟩
    · exact h.delivered id hm

theorem Sound.settle (h : Sound w own) :
    Sound (w.settle paymentId resultCode) own ∧ Later w (w.settle paymentId resultCode) := by
  rw [World.settle]
  split_ifs with hnew
  case neg => exact ⟨h, issuanceContract.refl w⟩
  case pos =>
    have hresults : ∀ id code, w.results.get id = some code →
        (w.results.set paymentId resultCode).get id = some code := by
      intro id code hr
      have hne : id ≠ paymentId := by
        rintro rfl
        rw [hr] at hnew
        cases hnew.2
      exact (KVStore.get_set_ne hne).trans hr
    refine ⟨⟨h.phase.congr rfl rfl rfl rfl rfl, h.confirmed, h.issued, h.rebroadcast, h.fresh, h.executed,
      fun id hm => ?_⟩, hresults, fun _ _ he => he, id, id⟩
    obtain ⟨code, hr, hc⟩ := h.delivered id hm
    exact ⟨code, hresults id code hr, hc⟩

-- What changes nothing but the chain.
theorem Sound.deliverMsg {blockTime : ℤ} {msg : MsgIssueBadge} (h : Sound w own) :
    Sound (w.deliverMsg config blockTime msg) own ∧ Later w (w.deliverMsg config blockTime msg) := by
  rw [World.deliverMsg]
  split
  case h_1 =>
    exact ⟨⟨h.phase.congr rfl rfl rfl rfl rfl, h.confirmed, h.issued, h.rebroadcast, h.fresh, h.executed,
      h.delivered⟩, ⟨fun _ _ h => h, fun _ _ h => h, id, id⟩⟩
  case h_2 => exact ⟨h, issuanceContract.refl w⟩

-- A purchase that is confirmed is claimed.
theorem Sound.claim (h : Sound w own) (hs : w.purchase.status = .confirmed) :
    own = 0 ∧ Sound w.claim {none} ∧ Later w w.claim ∧ w.claim.purchase.status = .processing := by
  have hclaim : w.claim = { w with purchase := { w.purchase with status := .processing } } :=
    if_pos hs
  obtain rfl := h.phase.of_status (by rw [hs]; decide)
  obtain ⟨hf, hn⟩ := h.phase.of_zero
  have hissued : ¬w.purchase.status = .issued := by
    rw [hs]
    decide
  rw [hclaim]
  refine ⟨rfl, ⟨.claimed rfl hf ?_, ?_, fun hi => absurd (h.issued hi) hissued, h.rebroadcast, h.fresh,
    h.executed, h.delivered⟩, ⟨fun _ _ h => h, fun _ _ h => h, id, id⟩, rfl⟩
  · exact Bool.eq_false_iff.mpr fun hsucceeded => hissued (hn hsucceeded)
  · rw [h.confirmed, hs]
    rfl

theorem Sound.broadcast (h : Sound w ({none} + others)) :
    Sound w.broadcast ({some w.sent} + others) ∧ Later w w.broadcast := by
  obtain ⟨rfl, _, hphase⟩ := h.phase.of_held
  obtain ⟨hs, hf, hn⟩ := hphase.of_claimed
  refine ⟨⟨?_, h.confirmed, h.issued, ?_, fun tx hle => h.fresh tx (Nat.le_of_succ_le hle), h.executed,
    h.delivered⟩, fun _ _ h => h, fun _ _ h => h, id, id⟩
  · rw [add_zero]
    exact .sent hs (by rw [World.broadcast, hf]) (Nat.lt_succ_self _) (h.fresh w.sent le_rfl) hn
  · rw [World.broadcast, h.rebroadcast, hn]
    rfl

-- What a transaction that is executed leaves.
theorem execute_cases (w : World) (tx : ℕ) (blockTime : ℤ) (fails : Bool) :
    w.execute config tx blockTime fails = w ∨ tx ∈ w.inFlight ∧ ∃ chain success,
      w.execute config tx blockTime fails = { w with
        chain     := chain
        inFlight  := w.inFlight.filter (· ≠ tx)
        executed  := w.executed.set tx success
        succeeded := w.succeeded || success
      } := by
  by_cases hin : tx ∈ w.inFlight
  case neg => exact .inl (if_neg hin)
  case pos =>
    refine .inr ⟨hin, ?_⟩
    rw [World.execute, if_pos hin]
    dsimp only
    split
    case h_1 chain _ => exact ⟨chain, true, by rw [Bool.or_true]⟩
    case h_2 => exact ⟨w.chain, false, by rw [Bool.or_false]⟩

-- The holder of the claim does not matter.
theorem Sound.execute {blockTime : ℤ} {fails : Bool} (h : Sound w own) :
    Sound (w.execute config tx blockTime fails) own ∧ Later w (w.execute config tx blockTime fails) := by
  rcases execute_cases w tx blockTime fails with heq | ⟨hin, chain, success, heq⟩
  case inl =>
    rw [heq]
    exact ⟨h, issuanceContract.refl w⟩
  case inr =>
    have hphase := h.phase
    cases hphase with
    | free hf => exact absurd hin (by simp [hf])
    | claimed _ hf => exact absurd hin (by simp [hf])
    | executed _ hf => exact absurd hin (by simp [hf])
    | @sent tx' hs hf hlt he hn =>
      obtain rfl : tx = tx' := by simpa [hf] using hin
      have hother : ∀ t, t ≠ tx → (w.executed.set tx success).get t = w.executed.get t :=
        fun t hne => KVStore.get_set_ne hne
      rw [heq]
      refine ⟨⟨.executed hs (by simp [hf]), h.confirmed, h.issued, h.rebroadcast, ?fresh, ?succeeded,
        h.delivered⟩, ⟨fun _ _ h => h, ?later, id, fun h => Bool.or_eq_true_iff.mpr (.inl h)⟩⟩
      case fresh =>
        intro t hle
        have hne : t ≠ tx := by
          rintro rfl
          exact absurd hlt (not_lt.mpr hle)
        exact (hother t hne).trans (h.fresh t hle)
      case succeeded =>
        intro t ht
        by_cases heq : t = tx
        case pos =>
          subst heq
          have hsuccess : some success = some true := KVStore.get_set_self.symm.trans ht
          cases hsuccess
          exact Bool.or_true _
        case neg => exact Bool.or_eq_true_iff.mpr (.inl (h.executed t ((hother t heq).symm.trans ht)))
      case later =>
        intro t b ht
        have hne : t ≠ tx := by
          rintro rfl
          cases he.symm.trans ht
        exact (hother t hne).trans ht

end Steps

section Handlers

theorem save_keeps (hcurrent : d.current.status = .confirmed ∨ d.current.status.isPaid = false) :
    issuanceContract.Keeps (.saving d.loaded.status d.current.status) (·.save d) :=
  fun _ _ hg hI => ⟨Sound.save hI hg hcurrent, .save⟩

theorem initiateMpesaRequest_keeps {receives saves : Bool} :
    (initiateMpesaRequest receives saves).Steps issuanceContract.Keeps := by
  refine .bind (.read fun w _ _ hI => ⟨hI, issuanceContract.refl w⟩) fun purchase => ?_
  refine .ite (fun _ => trivial) fun _ => ?_
  refine .bind (.act fun w own _ hI => ?_) fun paymentId => ?_
  · have h : Sound w own := hI
    exact ⟨⟨h.phase.congr rfl rfl rfl rfl rfl, h.confirmed, h.issued, h.rebroadcast, h.fresh, h.executed,
      h.delivered⟩, ⟨fun _ _ h => h, fun _ _ h => h, id, id⟩⟩
  · exact .ite (fun _ => trivial) fun _ => .write (save_keeps (.inr rfl))

theorem void_keeps {saves : Bool} : (void saves).Steps issuanceContract.Keeps := by
  refine .bind (.read fun w _ _ hI => ⟨hI, issuanceContract.refl w⟩) fun purchase => ?_
  refine .ite (fun _ => trivial) fun _ => ?_
  exact .ite (fun _ => trivial) fun _ => .write (save_keeps (.inr rfl))

theorem callback_handles {saves : Bool} :
    issuanceContract.Handles (callback paymentId saves) w 0 := by
  apply Contract.Safe.read
  intro w₁ _ _
  cases hresult : w₁.results.get paymentId with
  | none => exact Contract.Handles.done
  | some resultCode =>
    apply Contract.Safe.look
    intro w₂ hl₂ hg others hI
    have hfinds : w₂.finds paymentId = true := hg
    rw [if_pos hfinds]
    refine Contract.Safe.ite (fun _ => Contract.Handles.done) fun _ => ?_
    apply Contract.Safe.write
    intro w₃ hl₃ hg₃ others' hI₃
    have hcurrent : (if resultCode = 0 then PurchaseStatus.confirmed else .failed) = .confirmed ∨
        (if resultCode = 0 then PurchaseStatus.confirmed else .failed).isPaid = false := by
      split_ifs
      case pos => exact .inl rfl
      case neg => exact .inr rfl
    refine ⟨0, Sound.save hI₃ hg₃ hcurrent, .save, ?_⟩
    apply Contract.Handles.write
    intro w₄ hl₄ _ others'' hI₄
    rw [zero_add] at hI₄
    refine ⟨Sound.deliver hI₄ (hl₄.results _ _ (hl₃.results _ _ (hl₂.results _ _ hresult))) ?_,
      fun _ _ h => h, fun _ _ h => h, id, id⟩
    -- The payment is confirmed by this save, or was confirmed when the purchase was read.
    rintro rfl
    refine hl₄.confirmed ?_
    by_cases hread : w₂.purchase.status = .confirmed
    case pos =>
      refine Later.save.confirmed (hl₃.confirmed ?_)
      rw [Sound.confirmed hI, hread]
      rfl
    case neg =>
      refine Bool.or_eq_true_iff.mpr (.inr (decide_eq_true ?_))
      exact Document.written_current fun heq => hread heq.symm

-- A claim is given back.
theorem rollBack_handles {claim : Option ℕ} (hloaded : d.loaded.status = .processing) :
    issuanceContract.Handles (rollBack attempt d) w {claim} := by
  refine Contract.Safe.ite (fun _ => ?_) fun _ => ?_
  case refine_1 =>
    apply Contract.Handles.write
    rintro w' _ ⟨hf, hn⟩ others hI
    have h : Sound w' ({claim} + others) := hI
    obtain ⟨rfl, hs, _⟩ := h.phase.of_held
    have hne : PurchaseStatus.confirmed ≠ d.loaded.status := by
      rw [hloaded]
      decide
    have hstatus : (savePurchase (d.modify ({ · with status := .confirmed })) w'.purchase).status =
        .confirmed := Document.written_current hne
    refine ⟨h.save_of hstatus (.free hf fun hsucceeded => ?_) (Bool.or_true _) fun hi => ?_, .save⟩
    · rw [World.save, hn] at hsucceeded
      cases hsucceeded
    · cases hs.symm.trans (h.issued hi)
  case refine_2 =>
    apply Contract.Handles.write
    rintro w' _ ⟨hf, hn⟩ others hI
    have h : Sound w' ({claim} + others) := hI
    obtain ⟨rfl, _, _⟩ := h.phase.of_held
    refine ⟨⟨.free hf fun hsucceeded => ?_, h.confirmed, h.issued, h.rebroadcast, h.fresh, h.executed,
      h.delivered⟩, issuanceContract.refl w'⟩
    rw [id, hn] at hsucceeded
    cases hsucceeded

-- It is not given back once the badge is issued.
theorem rollBack_of_succeeded (h : w.succeeded = true) :
    issuanceContract.Handles (rollBack attempt d) w own := by
  have hguard : ∀ w', Later w w' → ¬issuanceGuard .rollingBack w' := by
    rintro w' hl ⟨_, hn⟩
    rw [hl.succeeded h] at hn
    cases hn
  refine Contract.Safe.ite (fun _ => ?_) fun _ => ?_
  · apply Contract.Handles.write
    exact fun w' hl hg => absurd hg (hguard w' hl)
  · apply Contract.Handles.write
    exact fun w' hl hg => absurd hg (hguard w' hl)

-- Whoever asks for the badge keeps the claim, and learns only what is true.
theorem issueBadgeFromMnemonic_safe : issuanceContract.Safe (fun txHash w own =>
      (∃ claim, own = {claim}) ∧ ∀ tx, txHash = some tx →
        own = {some tx} ∧ w.executed.get tx = some true ∧ w.succeeded = true)
    (issueBadgeFromMnemonic attempt) w {none} := by
  refine Contract.Safe.ite (fun _ => ⟨⟨_, rfl⟩, fun _ h => by cases h⟩) fun _ => ?_
  apply Contract.Safe.act
  intro w₁ _ _ others hI
  obtain ⟨hI', hl⟩ := Sound.broadcast hI
  refine ⟨{some w₁.sent}, hI', hl, ?_⟩
  refine Contract.Safe.ite (fun _ => ⟨⟨_, rfl⟩, fun _ h => by cases h⟩) fun _ => ?_
  apply Contract.Safe.look
  intro w₂ _ _ others hI
  cases he : w₂.executed.get w₁.sent with
  | none => exact ⟨⟨_, rfl⟩, fun _ h => by cases h⟩
  | some success =>
    cases success with
    | false => exact ⟨⟨_, rfl⟩, fun _ h => by cases h⟩
    | true =>
      refine ⟨⟨_, rfl⟩, fun tx h => ?_⟩
      cases h
      exact ⟨rfl, he, Sound.executed hI _ he⟩

-- The badge is issued.
theorem Sound.issue (h : Sound w ({some tx} + others)) (he : w.executed.get tx = some true)
    (hloaded : d.loaded.status = .processing) (hcurrent : d.current.status = .issued) :
    Sound (w.save d) others := by
  obtain ⟨rfl, hs, hphase⟩ := h.phase.of_held
  have hf : w.inFlight = [] := by
    generalize hown : ({some tx} : Multiset (Option ℕ)) = own at hphase
    cases hphase with
    | free hf => exact hf
    | claimed _ hf => exact hf
    | executed _ hf => exact hf
    | @sent tx' _ _ _ hnone =>
      obtain rfl : tx = tx' := by simpa using hown
      cases hnone.symm.trans he
  have hne : d.current.status ≠ d.loaded.status := by
    rw [hloaded, hcurrent]
    decide
  have hstatus : (savePurchase d w.purchase).status = .issued :=
    (Document.written_current hne).trans hcurrent
  refine h.save_of hstatus (.free hf fun _ => hstatus) ?_ fun _ => rfl
  rw [h.confirmed, hs]
  rfl

theorem issueClaimed_handles {purchase : BadgePurchase} (hs : purchase.status = .processing) :
    issuanceContract.Handles (issueClaimed attempt purchase) w {none} := by
  refine Contract.Safe.ite (fun _ => rollBack_handles hs) fun _ => ?_
  refine Contract.Safe.bind (issueBadgeFromMnemonic_safe.imp ?_)
  rintro txHash w₁ own ⟨⟨claim, hown⟩, hissued⟩
  cases txHash with
  | none =>
    rw [hown]
    exact rollBack_handles hs
  | some tx =>
    obtain ⟨rfl, he, hsucceeded⟩ := hissued tx rfl
    refine Contract.Safe.ite (fun _ => rollBack_of_succeeded hsucceeded) fun _ => ?_
    apply Contract.Safe.write
    intro w₂ hl₂ _ others hI
    refine ⟨0, ?_, .save, ?_⟩
    · rw [zero_add]
      exact Sound.issue hI (hl₂.executed _ _ he) hs rfl
    · exact Contract.Safe.ite (fun _ => rollBack_of_succeeded (hl₂.succeeded hsucceeded))
        fun _ => Contract.Handles.done

theorem issue_handles {walletAddress : Option String} :
    issuanceContract.Handles (issue walletAddress attempt) w 0 := by
  apply Contract.Safe.read
  intro w₁ _ _
  refine Contract.Safe.ite (fun _ => Contract.Handles.done) fun _ => ?_
  refine Contract.Safe.ite (fun _ => Contract.Handles.done) fun _ => ?_
  apply Contract.Safe.act
  intro w₂ _ _ others hI
  rw [zero_add] at hI
  by_cases hs : w₂.purchase.status = .confirmed
  case neg =>
    rw [World.claim, if_neg hs, World.claimed, if_neg hs]
    exact ⟨0, by rwa [zero_add], issuanceContract.refl w₂, Contract.Handles.done⟩
  case pos =>
    obtain ⟨rfl, hI', hl, _⟩ := Sound.claim hI hs
    rw [World.claimed, if_pos hs]
    exact ⟨{none}, by rwa [add_zero], hl, issueClaimed_handles rfl⟩

theorem handler_handles (config : Config) (request : Request) :
    issuanceContract.Handles (request.handler config) w 0 := by
  cases request with
  | mpesa receives saves => exact Contract.Handles.of_keeps initiateMpesaRequest_keeps
  | settle paymentId resultCode => exact Contract.Handles.of_keeps (.write fun _ _ _ hI => Sound.settle hI)
  | callback paymentId saves => exact callback_handles
  | issue walletAddress attempt => exact issue_handles
  | void saves => exact Contract.Handles.of_keeps void_keeps
  | execute tx blockTime fails => exact Contract.Handles.of_keeps (.write fun _ _ _ hI => Sound.execute hI)
  | deliverMsg blockTime msg => exact Contract.Handles.of_keeps (.write fun _ _ _ hI => Sound.deliverMsg hI)

end Handlers

-- What the provider has taken is kept, and the badge is issued once and stays issued.
theorem badge_issued_once (config : Config) {p : Pool Label World}
    (h : (purchaseSystem config).Run (fun p a => p.Meets issuanceGuard a) p) : IssuedOnce p := by
  have hinv : (purchaseSystem config).Invariant (fun p a => p.Meets issuanceContract.guard a)
      fun p => ∃ owned, issuanceContract.Holds p owned :=
    Contract.invariant_of_handles ?init ?handles
  case init =>
    rintro w ⟨walletAddress, chain, rfl⟩
    exact ⟨.free rfl fun hs => (by cases hs), rfl, fun hi => (by cases hi), rfl, fun _ _ => rfl,
      fun _ he => (by cases he), fun _ hm => (by cases hm)⟩
  case handles => exact fun request w => handler_handles config request
  obtain ⟨owned, hp⟩ := hinv.holds h
  have hI : Sound p.store (∑ i ∈ Finset.range p.running.length, owned i) := hp.invariant
  refine ⟨hI.issued, hI.rebroadcast, fun hi => ?_, fun paymentId hm hr => ?_⟩
  · exact (Sound.phase (hp.of_isIdle hi)).of_zero.2
  · obtain ⟨resultCode, hr', hc⟩ := hI.delivered paymentId hm
    cases hr.symm.trans hr'
    have hpaid : p.store.purchase.status.isPaid = true := hI.confirmed.symm.trans (hc rfl)
    constructor <;> intro hs <;> rw [hs] at hpaid <;> cases hpaid

instance : (label : Label) → (w : World) → Decidable (issuanceGuard label w)
  | .finding _, _             => inferInstanceAs (Decidable (_ = _))
  | .saving loaded current, w => inferInstanceAs (Decidable (current ≠ loaded → current ≠ .issued →
      if current = .confirmed then w.purchase.status ≠ .processing ∧ w.purchase.status ≠ .issued
      else w.wasConfirmed = false))
  | .rollingBack, _           => inferInstanceAs (Decidable (_ ∧ _))
  | .step, _                  => .isTrue trivial

namespace Sample

def issuer : Config where
  addressCodec address := some (.ofBytes (address.toList.map Char.toNat))
  operator             := "issuer"

def reserved : World where
  purchase := { walletAddress := "alice" }
  chain    := { params := some { badgeIssuer := "issuer" } }

def purchased (actions : List (Action Request)) : Pool Label World :=
  Pool.execs (Request.handler issuer) { store := reserved, running := [] } actions

-- A payment, and the steps of a request to issue up to the block of its transaction.
def broadcast (attempt : Attempt) : List (Action Request) :=
  inTurn 4 [.mpesa true true, .settle 0 0, .callback 0 true] ++ [.start (.issue none attempt)] ++
    List.replicate 3 (.run 3) ++ [.start (.execute 0 0 false), .run 4]

-- The result is found, and the purchase is saved.
def issued : List (Action Request) :=
  broadcast {} ++ List.replicate 3 (.run 3)

-- The records are not written.
def unrecorded : List (Action Request) :=
  broadcast { records := false } ++ List.replicate 3 (.run 3)

end Sample

theorem purchased_issued_once : IssuedOnce (Sample.purchased Sample.issued) :=
  badge_issued_once Sample.issuer (run_from ⟨_, _, rfl⟩ (by decide +kernel))

-- A claim is given back after the badge was issued, and the purchase stays confirmed.
theorem unrecorded_not_issued :
    ¬∀ config p, (purchaseSystem config).Reachable p → IssuedOnce p := by
  intro h
  have hstays := (h Sample.issuer (Sample.purchased Sample.unrecorded)
    (reachable_from ⟨_, _, rfl⟩)).stays (by decide +kernel)
  exact absurd hstays (by decide +kernel)

end Badge
