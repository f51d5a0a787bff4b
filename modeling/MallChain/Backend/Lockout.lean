import MallChain.Backend.Login

namespace Login

open Interleaving
open Settings (Security)

def User.answersTo (user : User) (identifier : String) : Bool :=
  user.email = identifier || user.username = some identifier

namespace Event

def isFailedAfter (now : ℕ) : Event → Bool
  | failed time => now < time + failedLoginWindow
  | _           => false

def countedAt (identifier : String) : Event → Option ℕ
  | counted i time => if i = identifier then some time else none
  | _              => none

end Event

namespace World

variable (w : World)

-- The failed attempts that were evaluated since the last login that succeeded, and in the last window.
def recentFailures : ℕ :=
  (w.events.takeWhile (· ≠ .succeeded)).countP (·.isFailedAfter w.now)

def lastCounted (identifier : String) : Option ℕ :=
  w.events.findSome? (·.countedAt identifier)

end World

structure Guarded (w : World) : Prop where
  attempts : w.recentFailures ≤ failedLoginLimit
  locks    : ∀ identifier counter, w.counter identifier = some counter →
    failedLoginLimit ≤ counter.count → ∃ expiry time, counter.expiresAt = some expiry ∧
      w.lastCounted identifier = some time ∧ expiry ≤ time + failedLoginWindow

-- All attempts at the account use one identifier, and one is admitted only if the limit is not reached with
-- those that are under way. Where there is no counter, no failure that one has counted is recent. A counter
-- has been set to expire before it locks, no code is wrong.
def lockoutGuard (crypto : Crypto) (identifier : String) : Label → World → Prop
  | .checking id, w => w.user.answersTo id = true → w.isLocked id = false →
    id = identifier ∧ w.count id + w.pending + w.uncounted < failedLoginLimit ∧
      (w.counter id = none → w.recentFailures ≤ w.uncounted)
  | .counting id, w => (w.counter id = none → id = identifier → w.recentFailures ≤ w.uncounted) ∧
    (failedLoginLimit ≤ w.count id + 1 → ((w.counter id).bind (·.expiresAt)).isSome = true)
  | .expiring id, w => w.isLocked id = false
  | .verifying otp, w => verdict crypto w.settings otp w.now ≠ .invalid
  | _, _ => True

def lockoutSystem (crypto : Crypto) : TransitionSystem (Pool Label World) (Action Request) :=
  system (fun w => w.events = [] ∧ w.failedLogins = .empty ∧ w.pending = 0 ∧ w.uncounted = 0)
    (Request.handler crypto)

-- Programs own the attempts that are not evaluated, and those that are not counted.
structure Limited (identifier : String) (w : World) (owned : ℕ × ℕ) : Prop where
  pending   : w.pending = owned.1
  uncounted : w.uncounted = owned.2
  budget    : w.recentFailures + w.pending ≤ failedLoginLimit
  counted   : ∀ counter ∈ w.counter identifier, w.recentFailures ≤ counter.count + w.uncounted

-- A counter expires before a window is over, and one that locks before the window after the failure that it
-- has counted last is.
structure Expires (w : World) : Prop where
  within : ∀ identifier counter expiry, w.failedLogins.get identifier = some counter →
    counter.expiresAt = some expiry → expiry ≤ w.now + failedLoginWindow
  locks  : ∀ identifier counter, w.counter identifier = some counter →
    failedLoginLimit ≤ counter.count → ∃ expiry time, counter.expiresAt = some expiry ∧
      w.lastCounted identifier = some time ∧ expiry ≤ time + failedLoginWindow

def lockoutContract (crypto : Crypto) (identifier : String) : Contract Label World (ℕ × ℕ) where
  invariant w owned := Limited identifier w owned ∧ Expires w
  grows w w'        := w'.user = w.user
  guard             := lockoutGuard crypto identifier
  refl _            := rfl
  trans h h'        := h'.trans h

variable {crypto : Crypto} {identifier id password otp : String} {w w' : World} {owned others : ℕ × ℕ}
  {found : User → Bool}

section Events

theorem recentFailures_record {e : Event} (h : e ≠ .succeeded) (hf : ∀ now, e.isFailedAfter now = false) :
    (w.record e).recentFailures = w.recentFailures := by
  have hnot : e.isFailedAfter w.now = false := hf w.now
  rw [World.recentFailures, World.record, List.takeWhile_cons_of_pos (by simpa using h),
    List.countP_cons_of_neg (by simp [hnot]), World.recentFailures]

theorem recentFailures_fail : w.fail.recentFailures = w.recentFailures + 1 := by
  have hrecent : (Event.failed w.now).isFailedAfter w.now = true := by
    rw [Event.isFailedAfter, decide_eq_true_eq]
    exact Nat.lt_add_of_pos_right (by decide)
  have hevents : w.fail.events.takeWhile (· ≠ .succeeded) =
      .failed w.now :: w.events.takeWhile (· ≠ .succeeded) := List.takeWhile_cons_of_pos (by simp)
  have hnow : w.fail.now = w.now := rfl
  rw [World.recentFailures, hevents, hnow, List.countP_cons_of_pos hrecent, World.recentFailures]

theorem recentFailures_tick {duration : ℕ} :
    ({ w with now := w.now + duration } : World).recentFailures ≤ w.recentFailures := by
  apply List.countP_mono_left
  intro e _ h
  cases e with
  | failed time =>
    simp only [Event.isFailedAfter, decide_eq_true_eq] at h ⊢
    omega
  | _ => cases h

theorem lastCounted_record {e : Event} (h : e.countedAt id = none) :
    (w.record e).lastCounted id = w.lastCounted id := by
  rw [World.lastCounted, World.record, List.findSome?_cons, h]
  rfl

theorem counter_of_live {counter : Counter} (h : w.counter id = some counter) :
    w.failedLogins.get id = some counter ∧ counter.expiresAt.all (w.now < ·) = true :=
  Option.filter_eq_some_iff.mp h

theorem counter_congr (hlogins : w'.failedLogins.get id = w.failedLogins.get id) (hnow : w'.now = w.now) :
    w'.counter id = w.counter id := by
  rw [World.counter, World.counter, hlogins, hnow]

theorem count_eq {counter : Counter} (h : w.counter id = some counter) : w.count id = counter.count := by
  rw [World.count, h]
  rfl

theorem count_eq_zero (h : w.counter id = none) : w.count id = 0 := by
  rw [World.count, h]
  rfl

theorem expire_now : (w.expire id).now = w.now := by
  rw [World.expire]
  split <;> rfl

theorem get_expire_ne {i : String} (h : i ≠ id) :
    (w.expire id).failedLogins.get i = w.failedLogins.get i := by
  rw [World.expire]
  split
  case h_1 => exact KVStore.get_set_ne h
  case h_2 => rfl

theorem get_expire_self {c : Counter} (h : w.counter id = some c) :
    (w.expire id).failedLogins.get id = some { c with expiresAt := some (w.now + failedLoginWindow) } := by
  rw [World.expire, h]
  exact KVStore.get_set_self

theorem get_incr_ne {i : String} {evaluated : Bool} (h : i ≠ id) :
    (w.incr id evaluated).failedLogins.get i = w.failedLogins.get i :=
  KVStore.get_set_ne h

theorem get_incr_self {evaluated : Bool} : (w.incr id evaluated).failedLogins.get id = some {
      count     := w.count id + 1
      expiresAt := (w.counter id).bind (·.expiresAt)
    } :=
  KVStore.get_set_self

end Events

section Steps

namespace Expires

theorem congr (h : Expires w) (hlogins : w'.failedLogins = w.failedLogins) (hnow : w'.now = w.now)
    (hcounted : ∀ id, w'.lastCounted id = w.lastCounted id) : Expires w' where
  within := by rw [hlogins, hnow]; exact h.within
  locks id counter hget hlocked := by
    rw [counter_congr (by rw [hlogins]) hnow] at hget
    rw [hcounted]
    exact h.locks id counter hget hlocked

theorem tick {duration : ℕ} (h : Expires w) : Expires { w with now := w.now + duration } where
  within id counter expiry hget hexpires :=
    (h.within id counter expiry hget hexpires).trans (Nat.add_le_add_right (Nat.le_add_right _ _) _)
  locks id counter hget hlocked := by
    obtain ⟨hget, hlive⟩ := counter_of_live hget
    refine h.locks id counter (Option.filter_eq_some_iff.mpr ⟨hget, ?_⟩) hlocked
    cases hexpires : counter.expiresAt with
    | none => rfl
    | some expiry =>
      rw [hexpires] at hlive
      simp only [Option.all_some, decide_eq_true_eq] at hlive ⊢
      omega

theorem clear (h : Expires w) : Expires (w.clear id) where
  within i counter expiry hget hexpires := by
    rw [World.clear, KVStore.get_remove] at hget
    split_ifs at hget
    exact h.within i counter expiry hget hexpires
  locks i counter hget hlocked := by
    have hne : i ≠ id := by
      rintro rfl
      have hnone := (counter_of_live hget).1
      rw [World.clear, KVStore.get_remove_self] at hnone
      cases hnone
    have hsame : (w.clear id).counter i = w.counter i :=
      counter_congr (KVStore.get_remove_ne hne) rfl
    rw [hsame] at hget
    exact h.locks i counter hget hlocked

theorem expire (h : Expires w) (hg : w.isLocked id = false) : Expires (w.expire id) := by
  cases hcounter : w.counter id with
  | none =>
    have hsame : w.expire id = w := by rw [World.expire, hcounter]
    rwa [hsame]
  | some c =>
    constructor
    case within =>
      intro i counter expiry hi hexpires
      rw [expire_now]
      by_cases heq : i = id
      case pos =>
        rw [heq, get_expire_self hcounter] at hi
        cases hi
        exact (Option.some.inj hexpires).ge
      case neg =>
        rw [get_expire_ne heq] at hi
        exact h.within i counter expiry hi hexpires
    case locks =>
      intro i counter hi hlocked
      have hcounted : (w.expire id).lastCounted i = w.lastCounted i := by
        rw [World.expire, hcounter]
        rfl
      by_cases heq : i = id
      case pos =>
        have hi := (counter_of_live hi).1
        rw [heq, get_expire_self hcounter] at hi
        cases hi
        rw [World.isLocked, count_eq hcounter, decide_eq_false_iff_not] at hg
        exact absurd hlocked hg
      case neg =>
        have hsame : (w.expire id).counter i = w.counter i := counter_congr (get_expire_ne heq) expire_now
        rw [hsame] at hi
        rw [hcounted]
        exact h.locks i counter hi hlocked

theorem incr {evaluated : Bool} (h : Expires w)
    (hg : failedLoginLimit ≤ w.count id + 1 → ((w.counter id).bind (·.expiresAt)).isSome = true) :
    Expires (w.incr id evaluated) := by
  have hbound : ∀ expiry, (w.counter id).bind (·.expiresAt) = some expiry →
      expiry ≤ w.now + failedLoginWindow := by
    intro expiry hexpires
    obtain ⟨c, hc, hexpires⟩ := Option.bind_eq_some_iff.mp hexpires
    exact h.within id c expiry (counter_of_live hc).1 hexpires
  constructor
  case within =>
    intro i counter expiry hi hexpires
    by_cases heq : i = id
    case pos =>
      rw [heq, get_incr_self] at hi
      cases hi
      exact hbound expiry hexpires
    case neg =>
      rw [get_incr_ne heq] at hi
      exact h.within i counter expiry hi hexpires
  case locks =>
    intro i counter hi hlocked
    by_cases heq : i = id
    case pos =>
      have hi := (counter_of_live hi).1
      rw [heq, get_incr_self] at hi
      cases hi
      obtain ⟨expiry, hexpires⟩ := Option.isSome_iff_exists.mp (hg hlocked)
      refine ⟨expiry, w.now, hexpires, ?_, hbound expiry hexpires⟩
      simp [World.lastCounted, World.incr, Event.countedAt, heq]
    case neg =>
      have hsame : (w.incr id evaluated).counter i = w.counter i := counter_congr (get_incr_ne heq) rfl
      rw [hsame] at hi
      obtain ⟨expiry, time, hexpires, htime, hle⟩ := h.locks i counter hi hlocked
      refine ⟨expiry, time, hexpires, ?_, hle⟩
      rw [← htime]
      exact lastCounted_record (by rw [Event.countedAt, if_neg (Ne.symm heq)])

end Expires

namespace Limited

theorem congr (h : Limited identifier w owned) (hlogins : w'.failedLogins = w.failedLogins)
    (hnow : w'.now = w.now) (hpending : w'.pending = w.pending) (huncounted : w'.uncounted = w.uncounted)
    (hrecent : w'.recentFailures = w.recentFailures) : Limited identifier w' owned where
  pending   := hpending.trans h.pending
  uncounted := huncounted.trans h.uncounted
  budget    := by rw [hrecent, hpending]; exact h.budget
  counted   := by rw [counter_congr (by rw [hlogins]) hnow, hrecent, huncounted]; exact h.counted

-- An attempt ends without being evaluated as failed.
theorem leave (h : Limited identifier w ((1, 0) + others)) : Limited identifier w.leave others where
  pending   := by
    have hpending := h.pending
    simp only [Prod.fst_add] at hpending
    rw [World.leave, hpending, Nat.add_sub_cancel_left]
  uncounted := by
    have huncounted := h.uncounted
    simp only [Prod.snd_add, zero_add] at huncounted
    exact huncounted
  budget    := by
    have hbudget := h.budget
    have hrecent : w.leave.recentFailures = w.recentFailures := rfl
    have hpending : w.leave.pending = w.pending - 1 := rfl
    omega
  counted   := h.counted

theorem enter (h : Limited identifier w owned) (hn : w.count identifier + w.pending + w.uncounted <
      failedLoginLimit) (hnone : w.counter identifier = none → w.recentFailures ≤ w.uncounted) :
    Limited identifier (w.enter true) ((1, 0) + owned) where
  pending   := by
    rw [Prod.fst_add, ← h.pending, add_comm]
    rfl
  uncounted := by
    rw [Prod.snd_add, ← h.uncounted, zero_add]
    rfl
  budget    := by
    have hrecent : (w.enter true).recentFailures = w.recentFailures := rfl
    have hpending : (w.enter true).pending = w.pending + 1 := rfl
    cases hcounter : w.counter identifier with
    | none =>
      have hle := hnone hcounter
      omega
    | some counter =>
      have hle := h.counted counter hcounter
      rw [count_eq hcounter] at hn
      omega
  counted   := h.counted

theorem fail (h : Limited identifier w ((1, 0) + others)) :
    Limited identifier { w.fail with uncounted := w.uncounted + 1 } ((0, 1) + others) where
  pending   := by
    have hpending := h.pending
    simp only [Prod.fst_add] at hpending ⊢
    have hleft : w.fail.pending = w.pending - 1 := rfl
    omega
  uncounted := by
    have huncounted := h.uncounted
    simp only [Prod.snd_add] at huncounted ⊢
    omega
  budget    := by
    have hrecent : ({ w.fail with uncounted := w.uncounted + 1 } : World).recentFailures =
        w.recentFailures + 1 := recentFailures_fail
    have hbudget := h.budget
    have hpending := h.pending
    simp only [Prod.fst_add] at hpending
    have hleft : ({ w.fail with uncounted := w.uncounted + 1 } : World).pending = w.pending - 1 := rfl
    omega
  counted   := by
    intro counter hcounter
    have hrecent : ({ w.fail with uncounted := w.uncounted + 1 } : World).recentFailures =
        w.recentFailures + 1 := recentFailures_fail
    have hleft : ({ w.fail with uncounted := w.uncounted + 1 } : World).uncounted = w.uncounted + 1 := rfl
    have hle := h.counted counter hcounter
    omega

theorem clear (h : Limited identifier w ((1, 0) + others)) : Limited identifier (w.clear id) others where
  pending   := h.leave.pending
  uncounted := h.leave.uncounted
  budget    := by
    have hbudget := h.leave.budget
    have hrecent : (w.clear id).recentFailures = 0 := by simp [World.recentFailures, World.clear]
    have hpending : (w.clear id).pending = w.leave.pending := rfl
    omega
  counted   := by
    intro counter _
    have hrecent : (w.clear id).recentFailures = 0 := by simp [World.recentFailures, World.clear]
    omega

theorem tick {duration : ℕ} (h : Limited identifier w owned) :
    Limited identifier { w with now := w.now + duration } owned where
  pending   := h.pending
  uncounted := h.uncounted
  budget    := (Nat.add_le_add_right recentFailures_tick _).trans h.budget
  counted   := by
    intro counter hcounter
    obtain ⟨hget, hlive⟩ := counter_of_live hcounter
    refine recentFailures_tick.trans (h.counted counter (Option.filter_eq_some_iff.mpr ⟨hget, ?_⟩))
    cases hexpires : counter.expiresAt with
    | none => rfl
    | some expiry =>
      rw [hexpires] at hlive
      simp only [Option.all_some, decide_eq_true_eq] at hlive ⊢
      omega

theorem expire (h : Limited identifier w owned) : Limited identifier (w.expire id) owned := by
  cases hcounter : w.counter id with
  | none =>
    have hsame : w.expire id = w := by rw [World.expire, hcounter]
    rwa [hsame]
  | some c =>
    have hrest : (w.expire id).pending = w.pending ∧ (w.expire id).uncounted = w.uncounted ∧
        (w.expire id).recentFailures = w.recentFailures := by
      rw [World.expire, hcounter]
      exact ⟨rfl, rfl, rfl⟩
    obtain ⟨hpending, huncounted, hrecent⟩ := hrest
    refine { pending := hpending.trans h.pending, uncounted := huncounted.trans h.uncounted,
             budget := by rw [hrecent, hpending]; exact h.budget, counted := ?_ }
    intro counter hget
    rw [hrecent, huncounted]
    by_cases heq : identifier = id
    case neg =>
      have hsame : (w.expire id).counter identifier = w.counter identifier :=
        counter_congr (get_expire_ne heq) expire_now
      rw [Option.mem_def, hsame] at hget
      exact h.counted counter hget
    case pos =>
      have hset := (counter_of_live hget).1
      rw [heq, get_expire_self hcounter] at hset
      cases hset
      rw [← heq] at hcounter
      exact h.counted c hcounter

-- A failure is counted that was evaluated, or one that is not about the account.
theorem incr {evaluated : Bool} (h : Limited identifier w ((if evaluated then (0, 1) else 0) + others))
    (hid : evaluated = true → id = identifier)
    (hg : w.counter id = none → id = identifier → w.recentFailures ≤ w.uncounted) :
    Limited identifier (w.incr id evaluated) others where
  pending   := by
    have hpending := h.pending
    have hsame : (w.incr id evaluated).pending = w.pending := rfl
    cases evaluated <;> simpa [hsame] using hpending
  uncounted := by
    have huncounted := h.uncounted
    cases evaluated with
    | true =>
      simp only [if_true, Prod.snd_add] at huncounted
      rw [World.incr, if_pos rfl]
      dsimp only
      omega
    | false => simpa [World.incr] using huncounted
  budget    := by
    have hrecent : (w.incr id evaluated).recentFailures = w.recentFailures :=
      recentFailures_record (by simp) fun _ => rfl
    rw [hrecent]
    exact h.budget
  counted   := by
    intro counter hget
    have hrecent : (w.incr id evaluated).recentFailures = w.recentFailures :=
      recentFailures_record (by simp) fun _ => rfl
    have huncounted := h.uncounted
    have hleft : (w.incr id evaluated).uncounted = if evaluated then w.uncounted - 1 else w.uncounted := rfl
    rw [hrecent, hleft]
    by_cases heq : identifier = id
    case neg =>
      have hsame : (w.incr id evaluated).counter identifier = w.counter identifier :=
        counter_congr (get_incr_ne heq) rfl
      rw [Option.mem_def, hsame] at hget
      have hle := h.counted counter hget
      cases evaluated with
      | true  => exact absurd (hid rfl).symm heq
      | false => exact hle
    case pos =>
      have hset := (counter_of_live hget).1
      rw [heq, get_incr_self] at hset
      cases hset
      have hle : w.recentFailures ≤ w.count id + w.uncounted := by
        cases hcounter : w.counter id with
        | none =>
          rw [count_eq_zero hcounter, zero_add]
          exact hg hcounter heq.symm
        | some c =>
          rw [count_eq hcounter]
          exact h.counted c (heq ▸ hcounter)
      cases evaluated with
      | false =>
        simp only [Bool.false_eq_true, if_false]
        omega
      | true =>
        simp only [if_true, Prod.snd_add] at huncounted ⊢
        omega

end Limited

theorem saveSettings_limited {d : Document Security} {accepted : Option String}
    (h : Limited identifier w owned) : Limited identifier (w.saveSettings d accepted) owned := by
  refine h.congr rfl rfl rfl rfl ?_
  cases accepted with
  | none      => rfl
  | some hash => exact recentFailures_record (by simp) fun _ => rfl

theorem saveSettings_expires {d : Document Security} {accepted : Option String} (h : Expires w) :
    Expires (w.saveSettings d accepted) := by
  refine h.congr rfl rfl fun id => ?_
  cases accepted with
  | none      => rfl
  | some hash => exact lastCounted_record rfl

end Steps

section Requests

theorem recordFailedLogin_safe {evaluated : Bool} (hid : evaluated = true → id = identifier) :
    (lockoutContract crypto identifier).Safe (fun _ _ own => own = 0) (recordFailedLogin id evaluated) w
      (if evaluated then (0, 1) else 0) := by
  apply Contract.Safe.act
  intro w₁ _ hg others hI
  refine ⟨0, ?_, rfl, ?_⟩
  case refine_1 =>
    rw [zero_add]
    exact ⟨hI.1.incr hid hg.1, hI.2.incr hg.2⟩
  case refine_2 =>
    refine Contract.Safe.ite (fun _ => ?_) fun _ => rfl
    apply Contract.Handles.write
    intro w₂ _ hg others hI
    rw [zero_add] at hI
    refine ⟨⟨hI.1.expire, hI.2.expire hg⟩, ?_⟩
    simp only [lockoutContract]
    rw [World.expire]
    split <;> rfl

theorem counted (hid : id = identifier) :
    (lockoutContract crypto identifier).Safe (fun _ _ own => own = 0) (recordFailedLogin id true) w (0, 1) :=
  recordFailedLogin_safe fun _ => hid

theorem uncounted :
    (lockoutContract crypto identifier).Safe (fun _ _ own => own = 0) (recordFailedLogin id false) w 0 :=
  recordFailedLogin_safe (by simp)

-- An attempt that fails by its code is not counted, so that none is to fail in this way.
theorem checkTwoFactor_safe :
    (lockoutContract crypto identifier).Safe
      (fun result _ own => result ≠ .invalid ∧
        own = match result with | .requires2fa | .thrown => 0 | _ => (1, 0))
      (checkTwoFactor crypto otp) w (1, 0) := by
  apply Contract.Safe.act
  intro w₁ _ hg others hI
  have hleave : Limited identifier w₁.leave (0 + others) ∧ Expires w₁.leave := by
    rw [zero_add]
    exact ⟨hI.1.leave, hI.2.congr rfl rfl fun _ => rfl⟩
  cases hv : verdict crypto w₁.settings otp w₁.now with
  | passed      => exact ⟨(1, 0), hI, rfl, by simp, rfl⟩
  | requires2fa => exact ⟨0, hleave, rfl, by simp, rfl⟩
  | thrown      => exact ⟨0, hleave, rfl, by simp, rfl⟩
  | invalid     => exact absurd hv hg
  | backup read hash =>
    refine ⟨(1, 0), hI, rfl, ?_⟩
    apply Contract.Safe.write
    intro w₂ _ _ others hI
    exact ⟨(1, 0), ⟨saveSettings_limited hI.1, saveSettings_expires hI.2⟩, rfl, by simp, rfl⟩

theorem secondFactor_safe :
    (lockoutContract crypto identifier).Safe (fun _ _ own => own = 0)
      (secondFactor crypto id otp) w (1, 0) := by
  apply Contract.Safe.bind
  apply checkTwoFactor_safe.imp
  intro result w₁ own hpost
  obtain ⟨hvalid, hown⟩ := hpost
  have hclear : (lockoutContract crypto identifier).Safe (fun _ _ own => own = 0)
      (do clearFailedLogins id; return Response.loggedIn) w₁ (1, 0) := by
    apply Contract.Safe.write
    intro w₂ _ _ others hI
    refine ⟨0, ?_, rfl, rfl⟩
    rw [zero_add]
    exact ⟨hI.1.clear, hI.2.clear⟩
  rw [hown]
  cases result with
  | passed      => exact hclear
  | backup _ _  => exact hclear
  | invalid     => exact absurd rfl hvalid
  | requires2fa => rfl
  | thrown      => rfl

theorem credentials_unknown {user : User} (h : credentials crypto found password user = .unknown) :
    found user = false := by
  rw [credentials] at h
  split_ifs at h with hfound
  case neg => exact Bool.eq_false_of_not_eq_true hfound
  case pos =>
    split at h
    case h_1 => cases h
    case h_2 => split_ifs at h

theorem found_of_credentials {user : User} (h : credentials crypto found password user ≠ .unknown) :
    found user = true := by
  by_contra hn
  exact h (if_neg hn)

theorem evaluate_safe (hid : found w.user = true → id = identifier) :
    (lockoutContract crypto identifier).Safe (fun _ _ own => own = 0)
      (evaluate crypto found id password otp) w (if found w.user then (1, 0) else 0) := by
  apply Contract.Safe.act
  intro w₁ hgrows _ others hI
  have huser : w₁.user = w.user := hgrows
  rw [← huser] at hid hI
  cases hc : credentials crypto found password w₁.user with
  | unknown =>
    have hfound := credentials_unknown hc
    rw [hfound] at hI
    refine ⟨0, hI, rfl, ?_⟩
    apply Contract.Safe.bind
    exact uncounted.imp fun h => h
  | oauth =>
    have hfound : found w₁.user = true := found_of_credentials (by rw [hc]; simp)
    rw [hfound] at hI
    refine ⟨0, ?_, rfl, rfl⟩
    rw [zero_add]
    exact ⟨hI.1.leave, hI.2.congr rfl rfl fun _ => rfl⟩
  | invalid =>
    have hfound : found w₁.user = true := found_of_credentials (by rw [hc]; simp)
    rw [hfound] at hI
    refine ⟨(0, 1), ⟨hI.1.fail, ?_⟩, rfl, ?_⟩
    case refine_1 => exact hI.2.congr rfl rfl fun _ => lastCounted_record rfl
    case refine_2 =>
      apply Contract.Safe.bind
      exact (counted (hid hfound)).imp fun h => h
  | valid =>
    have hfound : found w₁.user = true := found_of_credentials (by rw [hc]; simp)
    rw [hfound] at hI
    exact ⟨(1, 0), hI, rfl, secondFactor_safe⟩

theorem checkAccountLock_safe (hfound : ∀ user, found user = true → user.answersTo id = true) :
    (lockoutContract crypto identifier).Safe
      (fun result w own => match result with
        | some _ => own = 0
        | none   => (found w.user = true → id = identifier) ∧ own = if found w.user then (1, 0) else 0)
      (checkAccountLock id found) w 0 := by
  apply Contract.Safe.act
  intro w₁ _ hg others hI
  cases hlocked : w₁.isLocked id with
  | true =>
    refine ⟨0, by rwa [if_pos rfl], by rw [if_pos rfl]; rfl, ?_⟩
    rw [if_pos rfl]
    apply Contract.Safe.read
    intro w₂ _ _
    exact Eq.refl (0 : ℕ × ℕ)
  | false =>
    rw [if_neg Bool.false_ne_true, if_neg Bool.false_ne_true]
    cases hf : found w₁.user with
    | false =>
      refine ⟨0, hI, rfl, ?_⟩
      have hsame : found (w₁.enter false).user = false := hf
      refine ⟨fun h => ?_, ?_⟩
      · rw [hsame] at h
        cases h
      · rw [hsame]
        rfl
    | true =>
      obtain ⟨hid, hn, hnone⟩ := hg (hfound _ hf) hlocked
      rw [hid] at hn hnone
      rw [zero_add] at hI
      refine ⟨(1, 0), ⟨hI.1.enter hn hnone, hI.2.congr rfl rfl fun _ => rfl⟩, rfl, ?_⟩
      have hsame : found (w₁.enter true).user = true := hf
      exact ⟨fun _ => hid, by rw [hsame]; rfl⟩

theorem loginWith_safe (hfound : ∀ user, found user = true → user.answersTo id = true) :
    (lockoutContract crypto identifier).Safe (fun _ _ own => own = 0)
      (loginWith crypto found id password otp) w 0 := by
  refine Contract.Safe.ite (fun _ => rfl) fun _ => ?_
  apply Contract.Safe.bind
  apply (checkAccountLock_safe hfound).imp
  intro result w₁ own hown
  cases result with
  | some _ => exact hown
  | none =>
    obtain ⟨hid, hown⟩ := hown
    rw [hown]
    exact evaluate_safe hid

theorem disable_handles {code : String} :
    (lockoutContract crypto identifier).Handles (disable crypto code) w 0 := by
  apply Contract.Safe.read
  intro w₁ _ _
  dsimp only
  split
  case h_1 => exact Contract.Handles.done
  case h_2 security _ =>
    have hsave : ∀ {label : Label} {accepted : Option String},
        (lockoutContract crypto identifier).Handles (.write label
          (·.saveSettings ((Document.read security).modify disabled) accepted)) w₁ 0 := by
      intro label accepted
      apply Contract.Handles.write
      intro w₂ _ _ others hI
      rw [zero_add] at hI
      exact ⟨⟨saveSettings_limited hI.1, saveSettings_expires hI.2⟩, rfl⟩
    split
    case h_1 => exact hsave
    case h_2 => exact hsave
    case h_3 => exact Contract.Handles.done

theorem handler_handles (request : Request) :
    (lockoutContract crypto identifier).Handles (request.handler crypto) w 0 := by
  cases request with
  | login email password otp =>
    apply Contract.Safe.bind
    apply (loginWith_safe fun user hfound => ?_).imp
    case _ => exact fun h => h
    rw [User.answersTo, hfound, Bool.true_or]
  | loginUsername username password otp =>
    apply Contract.Safe.bind
    apply (loginWith_safe fun user hfound => ?_).imp
    case _ => exact fun h => h
    rw [User.answersTo, hfound, Bool.or_true]
  | disable code => exact disable_handles
  | tick duration =>
    apply Contract.Handles.write
    intro w' _ _ others hI
    rw [zero_add] at hI
    exact ⟨⟨hI.1.tick, hI.2.tick⟩, rfl⟩

end Requests

instance decidableLockoutGuard (crypto : Crypto) (identifier : String) :
    (label : Label) → (w : World) → Decidable (lockoutGuard crypto identifier label w)
  | .checking _, _  => inferInstanceAs (Decidable (_ → _ → _ ∧ _ ∧ (_ → _)))
  | .counting _, _  => inferInstanceAs (Decidable ((_ → _ → _) ∧ (_ → _)))
  | .expiring _, _  => inferInstanceAs (Decidable (_ = _))
  | .verifying _, _ => inferInstanceAs (Decidable (_ ≠ _))
  | .step, _ | .savingCodes _, _ => .isTrue trivial

namespace Sample

def account : World where
  user := { email := "alice@mall", username := some "alice", password := some "password" }

def attempts (actions : List (Action Request)) : Pool Label World :=
  Pool.execs (Request.handler plain) { store := account, running := [] } actions

-- Failures that lock the account, an attempt that is refused, and one after the lock has ended.
def locking : List (Action Request) :=
  inTurn 4 (List.replicate 11 (.login "alice@mall" "guess" "") ++
    [.tick failedLoginWindow, .login "alice@mall" "guess" ""])

-- Failures under both identifiers.
def bothIdentifiers : List (Action Request) :=
  inTurn 4 (List.replicate 10 (.login "alice@mall" "guess" "") ++ [.loginUsername "alice" "guess" ""])

end Sample

-- In every order of their steps, logins that fail are bounded, and locks end.
theorem guessing_bounded (crypto : Crypto) (identifier : String) (p : Pool Label World)
    (h : (lockoutSystem crypto).Run (fun p a => p.Meets (lockoutGuard crypto identifier) a) p) :
    Guarded p.store := by
  have hinv : (lockoutSystem crypto).Invariant
      (fun p a => p.Meets (lockoutContract crypto identifier).guard a)
      fun p => ∃ owned, (lockoutContract crypto identifier).Holds p owned :=
    Contract.invariant_of_handles ?init fun request _ => handler_handles request
  case init =>
    intro w hw
    obtain ⟨hevents, hlogins, hpending, huncounted⟩ := hw
    have hrecent : w.recentFailures = 0 := by
      rw [World.recentFailures, hevents]
      rfl
    have hcounter : ∀ id, w.counter id = none := by
      intro id
      rw [World.counter, hlogins]
      rfl
    refine ⟨{ pending := hpending, uncounted := huncounted, budget := ?_, counted := ?_ },
      { within := ?_, locks := ?_ }⟩
    · rw [hrecent, hpending]
      exact Nat.zero_le _
    · simp [hcounter]
    · simp [hlogins]
    · simp [hcounter]
  obtain ⟨owned, hp⟩ := hinv.holds h
  obtain ⟨hlimited, hexpires⟩ := hp.invariant
  have hbudget := hlimited.budget
  exact ⟨by omega, hexpires.locks⟩

theorem sample_guessing_bounded : Guarded (Sample.attempts Sample.locking).store :=
  guessing_bounded Sample.plain "alice@mall" _ (run_from ⟨rfl, rfl, rfl, rfl⟩ (by decide +kernel))

-- The account is guessed at under its user name when its email is locked.
theorem guessed_under_both :
    ¬∀ (crypto : Crypto) (p : Pool Label World), (lockoutSystem crypto).Reachable p → Guarded p.store := by
  intro h
  have hattempts := (h Sample.plain (Sample.attempts Sample.bothIdentifiers)
    (reachable_from ⟨rfl, rfl, rfl, rfl⟩)).attempts
  exact absurd hattempts (by decide +kernel)

end Login
