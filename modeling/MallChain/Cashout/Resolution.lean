import MallChain.Cashout.System

namespace Cashout

open Interleaving

namespace Event

variable (withdrawalId : String)

def isPaid : Event → Bool
  | paid id _ _ => id = withdrawalId
  | _           => false

def isResolved : Event → Bool
  | resolved id _ => id = withdrawalId
  | _             => false

-- A request to pay with this reference.
def pays (payoutRef : String) : Event → Bool
  | paid _ ref _ => ref = some payoutRef
  | _            => false

def delivers (payoutRef : String) : Event → Bool
  | delivered ref _ => ref = payoutRef
  | _               => false

end Event

namespace World

variable (w : World) (withdrawalId : String)

def hasStatus (status : WithdrawalStatus) : Bool :=
  (w.withdrawals.get withdrawalId).any (·.status = status)

-- The requests to pay a withdrawal since it has left failed for the last time.
def paidSinceLeft : ℕ :=
  (w.events.takeWhile (· ≠ .left withdrawalId)).countP (·.isPaid withdrawalId)

-- The requests to pay a withdrawal since it was resolved.
def paidSinceResolved : ℕ :=
  (w.events.takeWhile fun e => !e.isResolved withdrawalId).countP (·.isPaid withdrawalId)

end World

structure Resolved (withdrawalId : String) (w : World) : Prop where
  -- At most one payout is requested before the withdrawal leaves failed.
  once   : w.paidSinceLeft withdrawalId ≤ 1
  -- It keeps the outcome that an admin has given it, and is not paid again.
  final  : ∀ outcome, .resolved withdrawalId outcome ∈ w.events →
    w.hasStatus withdrawalId outcome.status = true ∧ w.paidSinceResolved withdrawalId = 0
  -- The result of a payout sets its status.
  result : ∀ {payoutRef resultCode amount}, .paid withdrawalId (some payoutRef) amount ∈ w.events →
    .acknowledged payoutRef resultCode ∈ w.events →
    w.hasStatus withdrawalId (withdrawalResult resultCode) = true

-- No admin looks at a failed withdrawal that another one is deciding, no request to pay is received that
-- fails, and no result of a retried payout arrives. A decision finds the withdrawal still failed when it is
-- saved, and nothing else is saved over one that is resolved.
def resolutionGuard : Label → World → Prop
  | .deciding withdrawalId, w => w.isFailed withdrawalId = true → withdrawalId ∉ w.deciding
  | .paying _ (.accepted ref), w => ref.all (fun ref => !w.events.any (·.delivers ref)) = true
  | .paying _ (.failed received _ _), _ => received = false
  | .delivering payoutRef _, w => w.events.any (·.pays payoutRef) = false
  | .savingWithdrawal .retry withdrawalId _, w | .savingWithdrawal .resolve withdrawalId _, w =>
    w.isFailed withdrawalId = true
  | .savingWithdrawal _ withdrawalId _, w => w.events.any (·.isResolved withdrawalId) = false
  | _, _ => True

variable {w w' : World} {withdrawalId id : String} {label : Label} {update : World → World}

section Events

variable {e : Event}

theorem paidSinceLeft_record (h : e.isPaid withdrawalId = false) :
    (w.record e).paidSinceLeft withdrawalId ≤ w.paidSinceLeft withdrawalId := by
  rw [World.paidSinceLeft, World.record, List.takeWhile_cons]
  split_ifs
  case pos => rw [List.countP_cons_of_neg (by simp [h]), World.paidSinceLeft]
  case neg => exact Nat.zero_le _

theorem paidSinceLeft_paid {payoutRef : Option String} {amount : ℚ} :
    (w.record (.paid withdrawalId payoutRef amount)).paidSinceLeft withdrawalId =
      w.paidSinceLeft withdrawalId + 1 := by
  rw [World.paidSinceLeft, World.record, List.takeWhile_cons_of_pos (by simp),
    List.countP_cons_of_pos (by simp [Event.isPaid]), World.paidSinceLeft]

theorem paidSinceLeft_left : (w.record (.left withdrawalId)).paidSinceLeft withdrawalId = 0 := by
  rw [World.paidSinceLeft, World.record, List.takeWhile_cons_of_neg (by simp)]
  rfl

theorem paidSinceResolved_record (h : e.isPaid withdrawalId = false) :
    (w.record e).paidSinceResolved withdrawalId ≤ w.paidSinceResolved withdrawalId := by
  rw [World.paidSinceResolved, World.record, List.takeWhile_cons]
  split_ifs
  case pos => rw [List.countP_cons_of_neg (by simp [h]), World.paidSinceResolved]
  case neg => exact Nat.zero_le _

theorem paidSinceResolved_resolved {outcome : Outcome} :
    (w.record (.resolved withdrawalId outcome)).paidSinceResolved withdrawalId = 0 := by
  rw [World.paidSinceResolved, World.record, List.takeWhile_cons_of_neg (by simp [Event.isResolved])]
  rfl

end Events

-- The programs that decide a withdrawal, those that have not yet requested a payout and those that have.
structure Resolving (withdrawalId : String) (w : World) (owned : ℕ × ℕ) : Prop where
  counted : w.deciding.count withdrawalId = owned.1 + owned.2
  single  : owned.1 + owned.2 ≤ 1
  budget  : w.paidSinceLeft withdrawalId + owned.1 ≤ 1
  clean   : owned.1 + owned.2 = 0 → w.paidSinceLeft withdrawalId = 0
  final   : ∀ outcome, .resolved withdrawalId outcome ∈ w.events → owned.1 + owned.2 = 0 ∧
    w.hasStatus withdrawalId outcome.status = true ∧ w.paidSinceResolved withdrawalId = 0
  unpaid  : ∀ {payoutRef resultCode amount}, .delivered payoutRef resultCode ∈ w.events →
    .paid withdrawalId (some payoutRef) amount ∉ w.events
  arrived : ∀ {payoutRef resultCode}, .acknowledged payoutRef resultCode ∈ w.events →
    .delivered payoutRef resultCode ∈ w.events

def resolutionContract (withdrawalId : String) : Contract Label World (ℕ × ℕ) where
  invariant       := Resolving withdrawalId
  grows w w'      := ∀ e ∈ w.events, e ∈ w'.events
  guard           := resolutionGuard
  refl _ _ h      := h
  trans h h' e he := h' e (h e he)

-- What happens that has no part in how a withdrawal is decided.
structure Event.Foreign (withdrawalId : String) (w : World) (e : Event) : Prop where
  unpaid     : e.isPaid withdrawalId = false
  unresolved : e.isResolved withdrawalId = false
  delivered  : ∀ {payoutRef resultCode}, e = .delivered payoutRef resultCode →
    ∀ amount, .paid withdrawalId (some payoutRef) amount ∉ w.events
  arrived    : ∀ {payoutRef resultCode}, e = .acknowledged payoutRef resultCode →
    .delivered payoutRef resultCode ∈ w.events

namespace Resolving

variable {owned : ℕ × ℕ}

-- A step that has no part in how the withdrawal is decided.
theorem congr (h : Resolving withdrawalId w owned)
    (hdeciding : w'.deciding.count withdrawalId = w.deciding.count withdrawalId)
    (hevents : w'.events = w.events)
    (hstatus : ∀ outcome, .resolved withdrawalId outcome ∈ w.events →
      w'.hasStatus withdrawalId outcome.status = w.hasStatus withdrawalId outcome.status) :
    Resolving withdrawalId w' owned where
  counted := hdeciding.trans h.counted
  single  := h.single
  budget  := by
    rw [World.paidSinceLeft, hevents]
    exact h.budget
  clean hz := by
    rw [World.paidSinceLeft, hevents]
    exact h.clean hz
  final outcome hmem := by
    rw [hevents] at hmem
    rw [hstatus outcome hmem, World.paidSinceResolved, hevents]
    exact h.final outcome hmem
  unpaid := by
    rw [hevents]
    exact h.unpaid
  arrived := by
    rw [hevents]
    exact h.arrived

theorem record {e : Event} (h : Resolving withdrawalId w owned) (he : e.Foreign withdrawalId w) :
    Resolving withdrawalId (w.record e) owned where
  counted := h.counted
  single  := h.single
  budget  := by
    have hle := paidSinceLeft_record (w := w) he.unpaid
    have hbudget := h.budget
    omega
  clean hz := by
    have hle := paidSinceLeft_record (w := w) he.unpaid
    have hclean := h.clean hz
    omega
  final outcome hmem := by
    rcases List.mem_cons.mp hmem with heq | hmem
    · have hresolved := he.unresolved
      rw [← heq, Event.isResolved, decide_eq_false_iff_not] at hresolved
      exact absurd rfl hresolved
    · obtain ⟨hz, hstatus, hpaid⟩ := h.final outcome hmem
      have hle := paidSinceResolved_record (w := w) he.unpaid
      exact ⟨hz, hstatus, by omega⟩
  unpaid := by
    intro payoutRef resultCode amount hd hp
    rcases List.mem_cons.mp hp with heq | hp
    · have hpaid := he.unpaid
      rw [← heq, Event.isPaid, decide_eq_false_iff_not] at hpaid
      exact hpaid rfl
    · rcases List.mem_cons.mp hd with heq | hd
      · exact he.delivered heq.symm amount hp
      · exact h.unpaid hd hp
  arrived := by
    intro payoutRef resultCode ha
    rcases List.mem_cons.mp ha with heq | ha
    · exact List.mem_cons_of_mem _ (he.arrived heq.symm)
    · exact List.mem_cons_of_mem _ (h.arrived ha)

theorem hasStatus_congr {status : WithdrawalStatus}
    (h : w'.withdrawals.get withdrawalId = w.withdrawals.get withdrawalId) :
    w'.hasStatus withdrawalId status = w.hasStatus withdrawalId status := by
  rw [World.hasStatus, World.hasStatus, h]

theorem record_left (h : Resolving withdrawalId w owned) :
    Resolving withdrawalId (w.record (.left id)) owned :=
  h.record { unpaid := rfl, unresolved := rfl, delivered := by simp, arrived := by simp }

-- A save of another withdrawal, or of one that is not resolved.
theorem updateWithdrawal {f : WithdrawalRequest → WithdrawalRequest} (h : Resolving withdrawalId w owned)
    (hid : id = withdrawalId → ∀ outcome, .resolved withdrawalId outcome ∉ w.events) :
    Resolving withdrawalId (w.updateWithdrawal id f) owned := by
  rw [World.updateWithdrawal]
  cases hget : w.withdrawals.get id with
  | none => exact h
  | some stored =>
    have hset : Resolving withdrawalId
        { w with withdrawals := w.withdrawals.set id (f stored) } owned := by
      refine h.congr rfl rfl fun outcome hmem => hasStatus_congr (KVStore.get_set_ne ?_)
      intro heq
      exact hid heq.symm outcome hmem
    dsimp only
    split_ifs
    case pos => exact hset.record_left
    case neg => exact hset

theorem unresolved_of_any (h : w.events.any (·.isResolved withdrawalId) = false) (outcome : Outcome) :
    .resolved withdrawalId outcome ∉ w.events := by
  intro hmem
  have hn := List.any_eq_false.mp h _ hmem
  exact hn (by simp [Event.isResolved])

theorem outcome_ne_failed {outcome : Outcome} : outcome.status ≠ .failed := by
  cases outcome <;> simp [Outcome.status]

-- What is failed was not resolved.
theorem unresolved_of_isFailed (h : Resolving withdrawalId w owned)
    (hf : w.isFailed withdrawalId = true) (outcome : Outcome) :
    .resolved withdrawalId outcome ∉ w.events := by
  intro hmem
  have hstatus := (h.final outcome hmem).2.1
  rw [World.hasStatus] at hstatus
  rw [World.isFailed] at hf
  cases hget : w.withdrawals.get withdrawalId with
  | none =>
    rw [hget] at hf
    cases hf
  | some stored =>
    rw [hget, Option.any_some, decide_eq_true_eq] at hf hstatus
    exact outcome_ne_failed (hstatus.symm.trans hf)

theorem unresolved_of_guard {saver : Saver} {d : Document WithdrawalRequest}
    (h : Resolving withdrawalId w owned) (hg : resolutionGuard (.savingWithdrawal saver id d) w) :
    id = withdrawalId → ∀ outcome, .resolved withdrawalId outcome ∉ w.events := by
  rintro rfl
  cases saver with
  | retry => exact h.unresolved_of_isFailed hg
  | resolve => exact h.unresolved_of_isFailed hg
  | settlement => exact unresolved_of_any hg
  | hold => exact unresolved_of_any hg
  | resign => exact unresolved_of_any hg
  | callback => exact unresolved_of_any hg
  | status => exact unresolved_of_any hg

theorem decided_ne (h : Resolving withdrawalId w owned) (hne : id ≠ withdrawalId) :
    Resolving withdrawalId (w.decided id) owned :=
  h.congr (List.count_erase_of_ne (Ne.symm hne)) rfl fun _ _ => rfl

end Resolving

variable {D : String → Prop} {owned : ℕ × ℕ}

theorem resolution_keeps (hI : ∀ w owned, resolutionGuard label w → Resolving withdrawalId w owned →
      Resolving withdrawalId (update w) owned)
    (hgrows : ∀ w, ∀ e ∈ w.events, e ∈ (update w).events) :
    (resolutionContract withdrawalId).Keeps label update :=
  fun w owned hg h => ⟨hI w owned hg h, hgrows w⟩

theorem mem_events_updateWithdrawal {f : WithdrawalRequest → WithdrawalRequest} {e : Event}
    (h : e ∈ w.events) : e ∈ (w.updateWithdrawal id f).events := by
  rw [World.updateWithdrawal]
  split
  case h_2 => exact h
  case h_1 =>
    dsimp only
    split_ifs
    case pos => exact List.mem_cons_of_mem _ h
    case neg => exact h

theorem save_keeps {saver : Saver} {d : Document WithdrawalRequest} :
    (resolutionContract withdrawalId).Keeps (.savingWithdrawal saver id d)
      (·.updateWithdrawal id (saveWithdrawalOn d)) :=
  resolution_keeps (fun _ _ hg h => h.updateWithdrawal (h.unresolved_of_guard hg))
    fun _ _ he => mem_events_updateWithdrawal he

-- A step of a program that has no part in how the withdrawal is decided.
theorem Effect.keeps_resolution (he : Effect D label update) (hD : ¬D withdrawalId) :
    (resolutionContract withdrawalId).Keeps label update := by
  have hne : ∀ {id}, D id → id ≠ withdrawalId := by
    rintro id hid rfl
    exact hD hid
  have hsame : ∀ {w w' : World} {owned : ℕ × ℕ}, w'.deciding = w.deciding → w'.events = w.events →
      w'.withdrawals = w.withdrawals → Resolving withdrawalId w owned →
      Resolving withdrawalId w' owned ∧ ∀ e ∈ w.events, e ∈ w'.events := by
    intro w w' owned hdeciding hevents hwithdrawals h
    refine ⟨h.congr (by rw [hdeciding]) hevents fun _ _ => Resolving.hasStatus_congr (by rw [hwithdrawals]),
      ?_⟩
    rw [hevents]
    exact fun _ he => he
  intro w owned hg h
  cases he with
  | silent => exact ⟨h, fun _ he => he⟩
  | accept _ _ hu =>
    obtain ⟨accepted, hw⟩ := (hu w).only
    rw [hw]
    exact hsame rfl rfl rfl h
  | consume =>
    dsimp only [World.updateReview]
    split <;> exact hsame rfl rfl rfl h
  | deliver =>
    refine ⟨h.record { unpaid := rfl, unresolved := rfl, delivered := ?_, arrived := by simp },
      fun _ he => List.mem_cons_of_mem _ he⟩
    rintro payoutRef resultCode heq amount hmem
    cases heq
    have hn := List.any_eq_false.mp hg _ hmem
    exact hn (by simp [Event.pays])
  | createSale req =>
    rw [insertSale]
    split <;> exact hsame rfl rfl rfl h
  | saveSale d =>
    dsimp only [World.updateSale]
    split <;> exact hsame rfl rfl rfl h
  | create req phone estimatedKes reviewId =>
    rw [insertWithdrawal]
    split
    case h_1 => exact hsame rfl rfl rfl h
    case h_2 hget =>
      refine ⟨h.congr rfl rfl fun outcome hmem => Resolving.hasStatus_congr (KVStore.get_set_ne ?_),
        fun _ he => he⟩
      rintro rfl
      have hstatus := (h.final outcome hmem).2.1
      rw [World.hasStatus, hget] at hstatus
      cases hstatus
  | save d => exact save_keeps w owned hg h
  | createPayout =>
    rw [insertPayout]
    split <;> exact hsame rfl rfl rfl h
  | pay hid =>
    dsimp only
    split_ifs
    case neg => exact ⟨h, fun _ he => he⟩
    case pos =>
      refine ⟨h.record { unpaid := ?_, unresolved := rfl, delivered := by simp, arrived := by simp },
        fun _ he => List.mem_cons_of_mem _ he⟩
      rw [Event.isPaid, decide_eq_false_iff_not]
      exact hne hid
  | find hid =>
    rw [found]
    split_ifs
    case neg => exact ⟨h, fun _ he => he⟩
    case pos =>
      exact ⟨h.congr (List.count_cons_of_ne (hne hid)) rfl fun _ _ => rfl, fun _ he => he⟩
  | decided hid => exact ⟨h.decided_ne (hne hid), fun _ he => he⟩
  | saveDecision d hid =>
    have hsaved := h.updateWithdrawal (f := saveWithdrawalOn d) (h.unresolved_of_guard hg)
    exact ⟨hsaved.decided_ne (hne hid), fun _ he => mem_events_updateWithdrawal he⟩
  | saveResolve d hid =>
    have hf : resolutionGuard (.savingWithdrawal .resolve _ d) w := hg
    have hsaved := h.updateWithdrawal (f := saveWithdrawalOn d) (h.unresolved_of_guard hf)
    refine ⟨(hsaved.decided_ne (hne hid)).record
      { unpaid := rfl, unresolved := ?_, delivered := by simp, arrived := by simp },
      fun _ he => List.mem_cons_of_mem _ (mem_events_updateWithdrawal he)⟩
    rw [Event.isResolved, decide_eq_false_iff_not]
    exact hne hid

-- A callback that has arrived has no part in it either.
theorem CallbackEffect.keeps_resolution {payoutRef : String} {resultCode : ℤ}
    (he : CallbackEffect payoutRef resultCode label update) :
    (resolutionContract withdrawalId).KeepsWhere (.delivered payoutRef resultCode ∈ ·.events) label update := by
  intro w owned hK hg h
  cases he with
  | silent => exact ⟨h, fun _ he => he⟩
  | acknowledge =>
    refine ⟨h.record { unpaid := rfl, unresolved := rfl, delivered := by simp, arrived := ?_ },
      fun _ he => List.mem_cons_of_mem _ he⟩
    intro payoutRef' resultCode' heq
    cases heq
    exact hK
  | savePayout d =>
    dsimp only [World.updatePayout]
    split
    case h_2 => exact ⟨h, fun _ he => he⟩
    case h_1 => exact ⟨h.congr rfl rfl fun _ _ => rfl, fun _ he => he⟩
  | saveSale d =>
    dsimp only [World.updateSale]
    split
    case h_2 => exact ⟨h, fun _ he => he⟩
    case h_1 => exact ⟨h.congr rfl rfl fun _ _ => rfl, fun _ he => he⟩
  | save d => exact save_keeps w owned hg h

theorem handlePayoutCallback_handles {payoutRef : String} {resultCode : ℤ} {outcome : CallbackOutcome} :
    (resolutionContract withdrawalId).Handles (handlePayoutCallback payoutRef resultCode outcome) w 0 := by
  refine Contract.Safe.ite (fun _ => Contract.Handles.done) fun _ => ?_
  apply Contract.Safe.act
  intro w' _ hg others hI
  have hdeliver : (resolutionContract withdrawalId).Keeps (.delivering payoutRef resultCode)
      (·.record (.delivered payoutRef resultCode)) :=
    (Effect.deliver (D := fun _ => False)).keeps_resolution fun h => h
  obtain ⟨hI', hgrows⟩ := hdeliver w' _ hg hI
  refine ⟨0, hI', hgrows, ?_⟩
  have hK : ∀ {w w' : World}, (resolutionContract withdrawalId).grows w w' →
      .delivered payoutRef resultCode ∈ w.events → .delivered payoutRef resultCode ∈ w'.events :=
    fun hgrows h => hgrows _ h
  apply (Contract.Safe.of_keepsWhere hK (applyCallback_steps.mono CallbackEffect.keeps_resolution)
    (List.mem_cons_self ..)).imp
  intro _ _ _ hpost
  exact hpost.1

section Decide

variable {others : ℕ × ℕ} {stored : WithdrawalRequest}

namespace Resolving

-- Nothing was resolved as long as somebody decides.
theorem unresolved_of_deciding (h : Resolving withdrawalId w owned) (hown : 0 < owned.1 + owned.2)
    (outcome : Outcome) : .resolved withdrawalId outcome ∉ w.events := by
  intro hmem
  have hz := (h.final outcome hmem).1
  omega

-- A failed withdrawal is found by one admin, who may request one payout.
theorem find (h : Resolving withdrawalId w owned) (hf : w.isFailed withdrawalId = true)
    (hg : withdrawalId ∉ w.deciding) : Resolving withdrawalId (found withdrawalId w) ((1, 0) + owned) := by
  have hcounted := h.counted
  have hz : w.deciding.count withdrawalId = 0 := List.count_eq_zero.mpr hg
  have hclean := h.clean (by omega)
  rw [found, if_pos hf]
  constructor
  case counted =>
    rw [List.count_cons_self, hcounted, Prod.fst_add, Prod.snd_add]
    omega
  case single =>
    rw [Prod.fst_add, Prod.snd_add]
    omega
  case budget =>
    have hsame : World.paidSinceLeft { w with deciding := withdrawalId :: w.deciding } withdrawalId =
        w.paidSinceLeft withdrawalId := rfl
    rw [hsame, Prod.fst_add]
    omega
  case clean =>
    intro hn
    rw [Prod.fst_add] at hn
    omega
  case final => exact fun outcome hmem => absurd hmem (h.unresolved_of_isFailed hf outcome)
  case unpaid => exact h.unpaid
  case arrived => exact h.arrived

-- A payout is requested once by the one who decides.
theorem pay {payoutRef : Option String} {amount : ℚ} (h : Resolving withdrawalId w ((1, 0) + others))
    (href : ∀ ref, payoutRef = some ref → w.events.any (·.delivers ref) = false) :
    Resolving withdrawalId (w.record (.paid withdrawalId payoutRef amount)) ((0, 1) + others) := by
  have hbudget := h.budget
  have hsingle := h.single
  have hcounted := h.counted
  simp only [Prod.fst_add, Prod.snd_add] at hbudget hsingle hcounted
  constructor
  case counted =>
    have hsame : (w.record (.paid withdrawalId payoutRef amount)).deciding = w.deciding := rfl
    simp only [Prod.fst_add, Prod.snd_add, hsame]
    omega
  case single =>
    simp only [Prod.fst_add, Prod.snd_add]
    omega
  case budget =>
    rw [paidSinceLeft_paid]
    simp only [Prod.fst_add]
    omega
  case clean =>
    intro hn
    simp only [Prod.snd_add] at hn
    omega
  case final =>
    intro outcome hmem
    rcases List.mem_cons.mp hmem with heq | hmem
    · cases heq
    · exact absurd hmem (h.unresolved_of_deciding (by simp only [Prod.fst_add]; omega) outcome)
  case unpaid =>
    intro ref resultCode amount' hd hp
    have hd' : .delivered ref resultCode ∈ w.events := (List.mem_cons.mp hd).resolve_left (by simp)
    rcases List.mem_cons.mp hp with heq | hp
    · cases heq
      have hn := List.any_eq_false.mp (href ref rfl) _ hd'
      exact hn (by simp [Event.delivers])
    · exact h.unpaid hd' hp
  case arrived =>
    intro ref resultCode ha
    rcases List.mem_cons.mp ha with heq | ha
    · cases heq
    · exact List.mem_cons_of_mem _ (h.arrived ha)

-- A decision ends that leaves no payout behind in what is still failed.
theorem decide {own : ℕ × ℕ} (h : Resolving withdrawalId w (own + others)) (hown : own.1 + own.2 = 1)
    (hclean : w.paidSinceLeft withdrawalId = 0) : Resolving withdrawalId (w.decided withdrawalId) others := by
  have hsingle := h.single
  have hcounted := h.counted
  simp only [Prod.fst_add, Prod.snd_add] at hsingle hcounted
  have hsame : (w.decided withdrawalId).paidSinceLeft withdrawalId = w.paidSinceLeft withdrawalId := rfl
  constructor
  case counted =>
    have hcount : (w.decided withdrawalId).deciding.count withdrawalId =
        w.deciding.count withdrawalId - 1 := List.count_erase_self
    omega
  case single => omega
  case budget => omega
  case clean => exact fun _ => hclean
  case final =>
    intro outcome hmem
    exact absurd hmem
      (h.unresolved_of_deciding (by simp only [Prod.fst_add, Prod.snd_add]; omega) outcome)
  case unpaid => exact h.unpaid
  case arrived => exact h.arrived

-- A withdrawal is resolved with its first outcome.
theorem resolve {outcome : Outcome} (h : Resolving withdrawalId w owned) (hz : owned.1 + owned.2 = 0)
    (hstatus : w.hasStatus withdrawalId outcome.status = true)
    (hfirst : ∀ outcome, .resolved withdrawalId outcome ∉ w.events) :
    Resolving withdrawalId (w.record (.resolved withdrawalId outcome)) owned := by
  constructor
  case counted => exact h.counted
  case single => exact h.single
  case budget =>
    have hle : (w.record (.resolved withdrawalId outcome)).paidSinceLeft withdrawalId ≤
        w.paidSinceLeft withdrawalId := paidSinceLeft_record rfl
    have hbudget := h.budget
    omega
  case clean =>
    intro hn
    have hle : (w.record (.resolved withdrawalId outcome)).paidSinceLeft withdrawalId ≤
        w.paidSinceLeft withdrawalId := paidSinceLeft_record rfl
    have hclean := h.clean hn
    omega
  case final =>
    intro outcome' hmem
    rcases List.mem_cons.mp hmem with heq | hmem
    · cases heq
      exact ⟨hz, hstatus, paidSinceResolved_resolved⟩
    · exact absurd hmem (hfirst outcome')
  case unpaid =>
    intro ref resultCode amount hd hp
    exact h.unpaid ((List.mem_cons.mp hd).resolve_left (by simp))
      ((List.mem_cons.mp hp).resolve_left (by simp))
  case arrived =>
    intro ref resultCode ha
    exact List.mem_cons_of_mem _ (h.arrived ((List.mem_cons.mp ha).resolve_left (by simp)))

-- The withdrawal leaves failed with the save of a decision.
theorem paidSinceLeft_leave {f : WithdrawalRequest → WithdrawalRequest} (hf : w.isFailed withdrawalId = true)
    (hstatus : ∀ stored, stored.status = .failed → (f stored).status ≠ .failed) :
    (w.updateWithdrawal withdrawalId f).paidSinceLeft withdrawalId = 0 := by
  rw [World.isFailed] at hf
  rw [World.updateWithdrawal]
  cases hget : w.withdrawals.get withdrawalId with
  | none =>
    rw [hget] at hf
    cases hf
  | some stored =>
    rw [hget, Option.any_some, decide_eq_true_eq] at hf
    dsimp only
    rw [if_pos ⟨hf, hstatus stored hf⟩]
    exact paidSinceLeft_left

end Resolving

-- What a decision writes over the status of a failed withdrawal.
theorem saveWithdrawalOn_status {f : WithdrawalRequest → WithdrawalRequest} {status : WithdrawalStatus}
    {read : WithdrawalRequest} (hread : read.status = .failed) (hf : (f read).status = status)
    (hne : status ≠ .failed) :
    (saveWithdrawalOn ((Document.read read).modify f) stored).status = status := by
  have hw : (f read).status ≠ read.status := by
    rw [hf, hread]
    exact hne
  exact (Document.written_current hw).trans hf

-- Requests that fail are not received.
theorem postEach_failed {pesaAmount : ℚ} {attempts : List Payout.Attempt} {own : ℕ × ℕ}
    (h : attempts.countP (·.isAccepted) = 0) :
    (resolutionContract withdrawalId).Safe (fun _ _ own' => own' = own)
      (postEach withdrawalId pesaAmount attempts) w own := by
  induction attempts generalizing w with
  | nil => rfl
  | cons attempt attempts ih =>
    cases attempt with
    | accepted ref =>
      rw [List.countP_cons_of_pos rfl] at h
      omega
    | failed received status message =>
      rw [List.countP_cons_of_neg Bool.false_ne_true] at h
      apply Contract.Safe.write
      intro w' _ hg others hI
      have hreceived : received = false := hg
      rw [if_neg (by rw [Payout.Attempt.received, hreceived]; exact Bool.false_ne_true)]
      exact ⟨own, hI, fun _ he => he, ih h⟩

theorem postEach_safe {pesaAmount : ℚ} {attempts : List Payout.Attempt}
    (h : attempts.countP (·.isAccepted) ≤ 1) :
    (resolutionContract withdrawalId).Safe
      (fun _ _ own => own = if attempts.countP (·.isAccepted) = 0 then (1, 0) else (0, 1))
      (postEach withdrawalId pesaAmount attempts) w (1, 0) := by
  induction attempts generalizing w with
  | nil => rfl
  | cons attempt attempts ih =>
    cases attempt with
    | failed received status message =>
      rw [List.countP_cons_of_neg Bool.false_ne_true] at h ⊢
      apply Contract.Safe.write
      intro w' _ hg others hI
      have hreceived : received = false := hg
      rw [if_neg (by rw [Payout.Attempt.received, hreceived]; exact Bool.false_ne_true)]
      exact ⟨(1, 0), hI, fun _ he => he, ih h⟩
    | accepted ref =>
      rw [List.countP_cons_of_pos rfl] at h ⊢
      apply Contract.Safe.write
      intro w' _ hg others hI
      refine ⟨(0, 1), hI.pay ?_, fun _ he => List.mem_cons_of_mem _ he, ?_⟩
      case refine_1 =>
        rintro ref' heq
        have hnew : ref.all (fun ref => !w'.events.any (·.delivers ref)) = true := hg
        have heq : ref = some ref' := heq
        rwa [heq, Option.all_some, Bool.not_eq_true'] at hnew
      case refine_2 =>
        rw [if_neg (Nat.succ_ne_zero _)]
        exact postEach_failed (by omega)

-- A payout is requested just if it is initiated.
theorem initiateB2CPayout_safe {cfg : Payout.Config} {env : Payout.Environment} {mlcnsAmount : ℚ} :
    (resolutionContract withdrawalId).Safe
      (fun result _ own => own = match result with | .ok _ => (0, 1) | .error _ => (1, 0))
      (initiateB2CPayout cfg env withdrawalId mlcnsAmount) w (1, 0) := by
  rw [initiateB2CPayout]
  split
  case h_1 => exact Eq.refl ((1, 0) : ℕ × ℕ)
  case h_2 kes hprepare =>
    have hcount : (List.map env.provider
        (List.range (Payout.initiateB2CPayout cfg env mlcnsAmount).2)).countP (·.isAccepted) =
          match (Payout.initiateB2CPayout cfg env mlcnsAmount).1 with | .ok _ => 1 | .error _ => 0 := by
      rw [List.countP_map]
      split
      case h_1 payout hok => exact Payout.accepted_of_ok hprepare hok
      case h_2 error herror => exact Payout.accepted_of_error hprepare herror
    have hle : (List.map env.provider
        (List.range (Payout.initiateB2CPayout cfg env mlcnsAmount).2)).countP (·.isAccepted) ≤ 1 := by
      rw [hcount]
      split <;> omega
    apply Contract.Safe.bind
    apply (postEach_safe hle).imp
    intro _ w' own hpost
    rw [hcount] at hpost
    change own = match (Payout.initiateB2CPayout cfg env mlcnsAmount).1 with
      | .ok _    => (0, 1)
      | .error _ => (1, 0)
    rw [hpost]
    cases (Payout.initiateB2CPayout cfg env mlcnsAmount).1 <;> rfl

theorem findFailed_handles {f : Option WithdrawalRequest → Handler Unit} (hnone : f none = return)
    (hsome : ∀ w stored, stored.status = .failed →
      (resolutionContract withdrawalId).Handles (f (some stored)) w (1, 0)) :
    (resolutionContract withdrawalId).Handles (findFailed withdrawalId >>= f) w 0 := by
  apply Contract.Safe.act
  intro w' _ hg others hI
  rw [zero_add] at hI
  cases hget : (w'.withdrawals.get withdrawalId).filter (·.status = .failed) with
  | none =>
    have hf : w'.isFailed withdrawalId = false := by
      rw [World.isFailed]
      cases hstored : w'.withdrawals.get withdrawalId with
      | none => rfl
      | some stored =>
        rw [hstored, Option.filter_some] at hget
        split_ifs at hget with hstatus
        rw [Option.any_some]
        exact Bool.eq_false_of_not_eq_true hstatus
    rw [found, hf, if_neg Bool.false_ne_true, hnone]
    exact ⟨0, by rwa [zero_add], fun _ he => he, Contract.Handles.done⟩
  | some stored =>
    obtain ⟨hstored, hstatus⟩ := Option.filter_eq_some_iff.mp hget
    have hf : w'.isFailed withdrawalId = true := by
      rw [World.isFailed, hstored]
      exact hstatus
    refine ⟨(1, 0), hI.find hf (hg hf), fun e he => ?_, hsome _ _ (of_decide_eq_true hstatus)⟩
    rw [found, if_pos hf]
    exact he

theorem retry_handles {cfg : Payout.Config} {env : Payout.Environment} :
    (resolutionContract withdrawalId).Handles (retry cfg env withdrawalId) w 0 := by
  apply findFailed_handles (Eq.refl _)
  intro w₁ read hread
  apply Contract.Safe.bind
  apply initiateB2CPayout_safe.imp
  intro result w₂ own hown
  -- The withdrawal is still to be paid in what follows a result that is an error.
  have hsave : ∀ {f : WithdrawalRequest → WithdrawalRequest} {w : World},
      (resolutionContract withdrawalId).Handles
        (saveDecision .retry withdrawalId ((Document.read read).modify f)) w (1, 0) := by
    intro f w
    apply Contract.Handles.write
    intro w' _ hg others hI
    have hf : w'.isFailed withdrawalId = true := hg
    have hsaved : Resolving withdrawalId (w'.updateWithdrawal withdrawalId
        (saveWithdrawalOn ((Document.read read).modify f))) ((1, 0) + others) :=
      hI.updateWithdrawal fun _ => hI.unresolved_of_isFailed hf
    have hbudget := hsaved.budget
    simp only [Prod.fst_add] at hbudget
    exact ⟨hsaved.decide rfl (by omega), fun _ he => mem_events_updateWithdrawal he⟩
  cases result with
  | error error =>
    have hown : own = (1, 0) := hown
    rw [hown]
    cases error with
    | thrown =>
      apply Contract.Handles.write
      intro w' _ _ others hI
      have hbudget := hI.budget
      simp only [Prod.fst_add] at hbudget
      exact ⟨hI.decide rfl (by omega), fun _ he => he⟩
    | _ => exact hsave
  | ok payoutResult =>
    have hown : own = (0, 1) := hown
    rw [hown]
    apply Contract.Handles.write
    intro w' _ hg others hI
    have hf : w'.isFailed withdrawalId = true := hg
    have hsaved : Resolving withdrawalId (w'.updateWithdrawal withdrawalId
        (saveWithdrawalOn ((Document.read read).modify ({ · with
          status    := .payoutInitiated
          payoutRef := some payoutResult.payoutRef
        })))) ((0, 1) + others) :=
      hI.updateWithdrawal fun _ => hI.unresolved_of_isFailed hf
    refine ⟨hsaved.decide rfl (Resolving.paidSinceLeft_leave hf fun stored _ => ?_),
      fun _ he => mem_events_updateWithdrawal he⟩
    rw [saveWithdrawalOn_status hread rfl (by simp)]
    simp

theorem resolve_handles {outcome : Outcome} :
    (resolutionContract withdrawalId).Handles (resolve withdrawalId outcome) w 0 := by
  apply findFailed_handles (Eq.refl _)
  intro w₁ read hread
  apply Contract.Handles.write
  intro w₂ _ hg others hI
  have hstatus : ∀ stored, (saveWithdrawalOn ((Document.read read).modify
      ({ · with status := outcome.status })) stored).status = outcome.status :=
    fun stored => saveWithdrawalOn_status hread rfl Resolving.outcome_ne_failed
  have hf : w₂.isFailed withdrawalId = true := hg
  have hsaved : Resolving withdrawalId (w₂.updateWithdrawal withdrawalId (saveWithdrawalOn
      ((Document.read read).modify ({ · with status := outcome.status })))) ((1, 0) + others) :=
    hI.updateWithdrawal fun _ => hI.unresolved_of_isFailed hf
  have hleave := Resolving.paidSinceLeft_leave (f := saveWithdrawalOn ((Document.read read).modify
    ({ · with status := outcome.status }))) hf fun stored _ => by
      rw [hstatus]
      exact Resolving.outcome_ne_failed
  have hz : others.1 + others.2 = 0 := by
    have hsingle := hsaved.single
    simp only [Prod.fst_add, Prod.snd_add] at hsingle
    omega
  have hfirst := hsaved.unresolved_of_deciding (by simp only [Prod.fst_add, Prod.snd_add]; omega)
  refine ⟨(hsaved.decide rfl hleave).resolve hz ?_ hfirst,
    fun _ he => List.mem_cons_of_mem _ (mem_events_updateWithdrawal he)⟩
  rw [World.isFailed] at hf
  have hget : (w₂.updateWithdrawal withdrawalId (saveWithdrawalOn ((Document.read read).modify
      ({ · with status := outcome.status })))).hasStatus withdrawalId outcome.status = true := by
    rw [World.updateWithdrawal, World.hasStatus]
    cases hstored : w₂.withdrawals.get withdrawalId with
    | none =>
      rw [hstored] at hf
      cases hf
    | some stored =>
      dsimp only
      have hset : ∀ w' : World, w'.withdrawals = w₂.withdrawals.set withdrawalId
          (saveWithdrawalOn ((Document.read read).modify ({ · with status := outcome.status })) stored) →
          (w'.withdrawals.get withdrawalId).any (·.status = outcome.status) = true := by
        intro w' hw'
        rw [hw', KVStore.get_set_self, Option.any_some, hstatus, decide_eq_true rfl]
      split_ifs <;> exact hset _ rfl
  exact hget

end Decide

-- The requests that the claim of a resolution is about: not those that create or settle withdrawals.
def Request.settles : Request → Bool
  | .sell _ | .resign _ _ | .processQueued _ _ => true
  | _ => false

def resolutionSystem (cfg : Config) :
    TransitionSystem (Pool Label World) (Action { request : Request // request.settles = false }) :=
  system (fun w => w.events = [] ∧ w.deciding = []) fun request => request.1.handler cfg

instance decidableResolutionGuard : (label : Label) → (w : World) → Decidable (resolutionGuard label w)
  | .deciding _, _ => inferInstanceAs (Decidable (_ → _))
  | .paying _ (.accepted _), _ => inferInstanceAs (Decidable (_ = _))
  | .paying _ (.failed _ _ _), _ => inferInstanceAs (Decidable (_ = _))
  | .delivering _ _, _ => inferInstanceAs (Decidable (_ = _))
  | .savingWithdrawal .retry _ _, _ | .savingWithdrawal .resolve _ _, _
  | .savingWithdrawal .settlement _ _, _ | .savingWithdrawal .hold _ _, _
  | .savingWithdrawal .resign _ _, _ | .savingWithdrawal .callback _ _, _
  | .savingWithdrawal .status _ _, _ => inferInstanceAs (Decidable (_ = _))
  | .read, _ | .write, _ | .creatingSale _ _, _ | .savingSale _ _ _, _ | .creating _ _, _
  | .creatingPayout _ _, _ | .savingPayout _ _, _ | .failing, _ => .isTrue trivial

namespace Sample

def unpaid : World where
  withdrawals := KVStore.empty.set "withdrawal" {
    walletAddress := "alice"
    phone         := "254700000000"
    amountMlcns   := 1000
    amountKes     := 1000
    status        := .failed
    createdAt     := 0
  }

def payable : Config where
  payout := { configured := true }

def accepting (payoutRef : String) : Payout.Environment where
  sellPriceKes := 1
  provider _   := .accepted (some payoutRef)

def deciding (actions : List (Action { request : Request // request.settles = false })) :
    Pool Label World :=
  Pool.execs (fun request => request.1.handler payable) { store := unpaid, running := [] } actions

def retried : List (Action { request : Request // request.settles = false }) :=
  inTurn 4 [⟨.retry "withdrawal" (accepting "first"), rfl⟩, ⟨.resolve "withdrawal" .refunded, rfl⟩]

-- Two admins retry the same withdrawal.
def retriedTwice : List (Action { request : Request // request.settles = false }) :=
  [.start ⟨.retry "withdrawal" (accepting "first"), rfl⟩,
    .start ⟨.retry "withdrawal" (accepting "second"), rfl⟩, .run 0, .run 1, .run 0, .run 1]

end Sample

-- A withdrawal is paid at most once for each time it leaves failed, and what was resolved stays.
theorem resolved_finally (cfg : Config) (withdrawalId : String) (p : Pool Label World)
    (h : (resolutionSystem cfg).Run (fun p a => p.Meets resolutionGuard a) p) :
    Resolved withdrawalId p.store := by
  have hinv : (resolutionSystem cfg).Invariant
      (fun p a => p.Meets (resolutionContract withdrawalId).guard a)
      fun p => ∃ owned, (resolutionContract withdrawalId).Holds p owned :=
    Contract.invariant_of_handles ?init ?handles
  case init =>
    intro w hw
    have hpaid : w.paidSinceLeft withdrawalId = 0 := by
      rw [World.paidSinceLeft, hw.1]
      rfl
    refine { counted := ?_, single := Nat.zero_le _, budget := ?_, clean := fun _ => hpaid, final := ?_,
             unpaid := ?_, arrived := ?_ }
    · rw [hw.2]
      rfl
    · rw [hpaid]
      exact Nat.zero_le _
    all_goals simp [hw.1]
  case handles =>
    intro request w
    obtain ⟨request, hsettles⟩ := request
    have hkeeps : ∀ {q : Handler Unit} {D : String → Prop}, q.Steps (Effect D) → ¬D withdrawalId →
        (resolutionContract withdrawalId).Handles q w 0 :=
      fun hsteps hD => Contract.Handles.of_keeps (hsteps.mono fun he => he.keeps_resolution hD)
    cases request with
    | sell req => cases hsettles
    | resign saleId txBytes => cases hsettles
    | processQueued reserveKes outcome => cases hsettles
    | callback payoutRef resultCode outcome => exact handlePayoutCallback_handles
    | status id => exact hkeeps (syncWithdrawalStatus_steps (D := fun _ => False)) fun h => h
    | retry id payout =>
      by_cases heq : withdrawalId = id
      case pos =>
        subst heq
        exact retry_handles
      case neg => exact hkeeps (retry_steps (D := (· = id)) rfl) heq
    | resolve id outcome =>
      by_cases heq : withdrawalId = id
      case pos =>
        subst heq
        exact resolve_handles
      case neg => exact hkeeps (resolve_steps (D := (· = id)) rfl) heq
  obtain ⟨owned, hp⟩ := hinv.holds h
  have hI := hp.invariant
  constructor
  case once =>
    have hbudget := hI.budget
    omega
  case final => exact fun outcome hmem => (hI.final outcome hmem).2
  case result =>
    intro payoutRef resultCode amount hpaid hack
    exact absurd hpaid (hI.unpaid (hI.arrived hack))

theorem sample_resolved_finally : Resolved "withdrawal" (Sample.deciding Sample.retried).store :=
  resolved_finally Sample.payable "withdrawal" _ (run_from ⟨rfl, rfl⟩ (by decide +kernel))

-- Overlapping retries both pay.
theorem retries_pay_twice :
    ¬∀ (cfg : Config) (withdrawalId : String) (p : Pool Label World),
      (resolutionSystem cfg).Reachable p → Resolved withdrawalId p.store := by
  intro h
  have honce := (h Sample.payable "withdrawal" (Sample.deciding Sample.retriedTwice)
    (reachable_from ⟨rfl, rfl⟩)).once
  exact absurd honce (by decide +kernel)

end Cashout
