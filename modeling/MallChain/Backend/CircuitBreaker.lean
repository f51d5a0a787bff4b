import MallChain.Lib.Transition

namespace Circuit

inductive CircuitState
  | closed
  | open
  | halfOpen
  deriving DecidableEq, Repr

structure Options where
  failureThreshold : Option ℤ := none
  successThreshold : Option ℤ := none
  timeout          : Option ℤ := none
  name             : Option String := none

-- `||` on a number, where 0 is falsy as well.
def numberOr (x : Option ℤ) (fallback : ℤ) : ℤ :=
  match x with
  | some n => if n = 0 then fallback else n
  | none   => fallback

def stringOr (x : Option String) (fallback : String) : String :=
  match x with
  | some s => if s = "" then fallback else s
  | none   => fallback

structure CircuitBreaker where
  state            : CircuitState := .closed
  failureCount     : ℕ := 0
  successCount     : ℕ := 0
  lastFailureTime  : Option ℤ := none
  nextAttemptTime  : Option ℤ := none
  failureThreshold : ℤ
  successThreshold : ℤ
  timeout          : ℤ
  name             : String
  deriving DecidableEq, Repr

structure AppError where
  errorCode    : String
  message      : String
  statusCode   : ℕ
  circuitState : CircuitState
  deriving DecidableEq, Repr

namespace CircuitBreaker

def new (options : Options) : CircuitBreaker where
  failureThreshold := numberOr options.failureThreshold 5
  successThreshold := numberOr options.successThreshold 2
  timeout          := numberOr options.timeout 30000
  name             := stringOr options.name "CircuitBreaker"

variable (b : CircuitBreaker)

-- The part of `execute` before the call. A time that is null counts as 0.
def beforeCall (now : ℤ) : Except AppError CircuitBreaker :=
  if b.state = .open then
    if now < b.nextAttemptTime.getD 0 then
      .error {
        errorCode    := "SERVICE_UNAVAILABLE"
        message      := s!"{b.name} service temporarily unavailable. Please try again later."
        statusCode   := 503
        circuitState := .open
      }
    else .ok { b with state := .halfOpen, successCount := 0 }
  else .ok b

def onSuccess : CircuitBreaker :=
  let b := { b with failureCount := 0 }
  if b.state = .halfOpen then
    let b := { b with successCount := b.successCount + 1 }
    if (b.successCount : ℤ) ≥ b.successThreshold then { b with state := .closed } else b
  else b

-- The clock is read once for each of the two times.
def onFailure (failedAt now : ℤ) : CircuitBreaker :=
  let b := { b with failureCount := b.failureCount + 1, lastFailureTime := some failedAt }
  if b.state = .halfOpen then
    { b with state := .open, nextAttemptTime := some (now + b.timeout) }
  else if (b.failureCount : ℤ) ≥ b.failureThreshold then
    { b with state := .open, nextAttemptTime := some (now + b.timeout) }
  else b

end CircuitBreaker

inductive Event
  -- the breaker goes from OPEN to HALF_OPEN
  | halfOpened
  | started (call : ℕ)
  | succeeded (call : ℕ)
  | failed (call : ℕ)
  deriving DecidableEq, Repr

-- The breaker with the calls that are under way, and what happened so far, the latest first.
structure World where
  breaker : CircuitBreaker
  running : Finset ℕ := ∅
  calls   : ℕ := 0
  history : List Event := []
  deriving DecidableEq

inductive Action
  | start (now : ℤ)
  | succeed (call : ℕ)
  | fail (call : ℕ) (failedAt now : ℤ)
  deriving DecidableEq, Repr

namespace World

variable (w : World)

-- `execute` until the call is under way. A call that is rejected leaves everything as it is.
def start (now : ℤ) : World :=
  match w.breaker.beforeCall now with
  | .error _    => w
  | .ok breaker => {
    breaker
    running := insert w.calls w.running
    calls   := w.calls + 1
    history := .started w.calls ::
      (if w.breaker.state = .open then .halfOpened :: w.history else w.history)
  }

def next : Action → Option World
  | .start now => some (w.start now)
  | .succeed call =>
    if call ∈ w.running then some { w with
      breaker := w.breaker.onSuccess
      running := w.running.erase call
      history := .succeeded call :: w.history
    }
    else none
  | .fail call failedAt now =>
    if call ∈ w.running then some { w with
      breaker := w.breaker.onFailure failedAt now
      running := w.running.erase call
      history := .failed call :: w.history
    }
    else none

end World

def system (options : Options) : TransitionSystem World Action where
  init w      := w = { breaker := .new options }
  step w a w' := w.next a = some w'

-- What happened since the breaker last entered HALF_OPEN.
def sinceEntry (history : List Event) : List Event :=
  history.takeWhile (· ≠ .halfOpened)

def Event.isSuccessOf (events : List Event) : Event → Bool
  | .succeeded call => .started call ∈ events
  | _               => false

-- The successes since then of calls that were started since then.
def ownSuccesses (history : List Event) : ℕ :=
  (sinceEntry history).countP (Event.isSuccessOf (sinceEntry history))

-- No call is started while the breaker is OPEN and its time has not come.
def StartsInTime (w : World) (a : Action) (w' : World) : Prop :=
  ∀ call ∈ w'.running, call ∉ w.running → ∃ now, a = .start now ∧
    ¬(w.breaker.state = .open ∧ ∃ time, w.breaker.nextAttemptTime = some time ∧ now < time)

-- The breaker is closed again only by enough successes of the calls that test the service.
def ClosesAfterTests (w w' : World) : Prop :=
  w.breaker.state = .halfOpen → w'.breaker.state = .closed →
    w.breaker.successThreshold ≤ ownSuccesses w'.history

-- No call from before the last entry of HALF_OPEN succeeds in that state.
def NoLateSuccess (w : World) (a : Action) : Prop :=
  ∀ call, a = .succeed call → w.breaker.state = .halfOpen → .started call ∈ sinceEntry w.history

variable {w w' : World} {a : Action} {call : ℕ} {now failedAt : ℤ} {history : List Event} {e : Event}
variable {options : Options}

section Counting

theorem sinceEntry_cons (h : e ≠ .halfOpened) : sinceEntry (e :: history) = e :: sinceEntry history :=
  List.takeWhile_cons_of_pos (by simpa using h)

-- A call that was started since the entry stays so, whatever else happens.
theorem ownSuccesses_le_countP (h : e ≠ .halfOpened) :
    ownSuccesses history ≤
      (sinceEntry history).countP (Event.isSuccessOf (sinceEntry (e :: history))) := by
  rw [sinceEntry_cons h]
  refine List.countP_mono_left fun e' _ he' => ?_
  cases e' with
  | succeeded call =>
    simp only [Event.isSuccessOf, decide_eq_true_eq] at he' ⊢
    exact List.mem_cons_of_mem _ he'
  | _ => cases he'

theorem ownSuccesses_le (h : e ≠ .halfOpened) :
    ownSuccesses history ≤ ownSuccesses (e :: history) := by
  refine (ownSuccesses_le_countP h).trans ?_
  rw [ownSuccesses, sinceEntry_cons h, List.countP_cons]
  exact Nat.le_add_right ..

theorem ownSuccesses_succeeded (h : .started call ∈ sinceEntry history) :
    ownSuccesses history + 1 ≤ ownSuccesses (.succeeded call :: history) := by
  have hne : Event.succeeded call ≠ .halfOpened := by simp
  refine (Nat.add_le_add_right (ownSuccesses_le_countP hne) 1).trans_eq ?_
  rw [ownSuccesses, sinceEntry_cons hne, List.countP_cons_of_pos (by simp [Event.isSuccessOf, h])]

end Counting

section Breaker

variable {b b' : CircuitBreaker}

theorem of_beforeCall (h : b.beforeCall now = .ok b') :
    b.state ≠ .open ∧ b' = b ∨ b.state = .open ∧ b.nextAttemptTime.getD 0 ≤ now ∧
      b' = { b with state := .halfOpen, successCount := 0 } := by
  rw [CircuitBreaker.beforeCall] at h
  split_ifs at h with ho hn
  · cases h
    exact .inr ⟨ho, not_lt.mp hn, rfl⟩
  · cases h
    exact .inl ⟨ho, rfl⟩

-- A success counts in HALF_OPEN only, and closes the breaker when there are enough.
theorem onSuccess_halfOpen (h : b.state = .halfOpen) :
    b.onSuccess.successCount = b.successCount + 1 ∧
      (b.onSuccess.state = .closed → b.successThreshold ≤ b.onSuccess.successCount) := by
  rw [CircuitBreaker.onSuccess]
  dsimp only
  rw [if_pos h]
  split_ifs with hs
  case pos => exact ⟨rfl, fun _ => hs⟩
  case neg =>
    refine ⟨rfl, fun hc => ?_⟩
    cases h.symm.trans hc

theorem onSuccess_of_ne (h : b.state ≠ .halfOpen) : b.onSuccess.state = b.state := by
  rw [CircuitBreaker.onSuccess]
  dsimp only
  rw [if_neg h]

theorem onFailure_state (b : CircuitBreaker) (failedAt now : ℤ) :
    (b.onFailure failedAt now).state = .open ∨
      b.state ≠ .halfOpen ∧ (b.onFailure failedAt now).state = b.state := by
  rw [CircuitBreaker.onFailure]
  dsimp only
  split_ifs with hh hf
  · exact .inl rfl
  · exact .inl rfl
  · exact .inr ⟨hh, rfl⟩

end Breaker

-- In HALF_OPEN the breaker counts no more than the successes of its own calls.
def CountsOwn (w : World) : Prop :=
  w.breaker.state = .halfOpen → w.breaker.successCount ≤ ownSuccesses w.history

theorem countsOwn_start (h : CountsOwn w) : CountsOwn (w.start now) := by
  rw [World.start]
  split
  case h_1 => exact h
  case h_2 b hb =>
    rcases of_beforeCall hb with ⟨ho, rfl⟩ | ⟨ho, _, rfl⟩
    case inl =>
      intro hh
      dsimp only
      rw [if_neg ho]
      exact (h hh).trans (ownSuccesses_le (by simp))
    case inr => exact fun _ => Nat.zero_le _

theorem countsOwn_succeed (hg : NoLateSuccess w (.succeed call)) (h : CountsOwn w)
    (hw : w.breaker.state = .halfOpen) :
    w.breaker.onSuccess.successCount ≤ ownSuccesses (.succeeded call :: w.history) := by
  rw [(onSuccess_halfOpen hw).1]
  exact (Nat.add_le_add_right (h hw) 1).trans (ownSuccesses_succeeded (hg call rfl hw))

theorem countsOwn_invariant : (system options).Invariant NoLateSuccess CountsOwn where
  init := by
    rintro _ rfl h
    cases h
  step {w a w'} h hg hs := by
    cases a with
    | start now =>
      cases hs
      exact countsOwn_start h
    | succeed call =>
      simp only [system, World.next, Option.ite_none_right_eq_some, Option.some.injEq] at hs
      obtain ⟨-, rfl⟩ := hs
      intro hh
      by_cases hw : w.breaker.state = .halfOpen
      case pos => exact countsOwn_succeed hg h hw
      case neg => exact absurd ((onSuccess_of_ne hw).symm.trans hh) hw
    | fail call failedAt now =>
      simp only [system, World.next, Option.ite_none_right_eq_some, Option.some.injEq] at hs
      obtain ⟨-, rfl⟩ := hs
      intro hh
      rcases onFailure_state w.breaker failedAt now with ho | ⟨hne, ho⟩
      case inl => cases ho.symm.trans hh
      case inr => exact absurd (ho.symm.trans hh) hne

theorem startsInTime (hs : w.next a = some w') : StartsInTime w a w' := by
  intro call hcall hnew
  cases a with
  | start now =>
    refine ⟨now, rfl, ?_⟩
    rintro ⟨ho, time, ht, hlt⟩
    cases hs
    rw [World.start] at hcall
    split at hcall
    case h_1 => exact hnew hcall
    case h_2 b hb =>
      rcases of_beforeCall hb with ⟨hne, -⟩ | ⟨-, hle, -⟩
      case inl => exact hne ho
      case inr =>
        rw [ht] at hle
        exact hlt.not_ge hle
  | succeed c | fail c =>
    simp only [World.next, Option.ite_none_right_eq_some, Option.some.injEq] at hs
    obtain ⟨-, rfl⟩ := hs
    exact absurd (Finset.mem_of_mem_erase hcall) hnew

theorem closesAfterTests (h : CountsOwn w) (hg : NoLateSuccess w a) (hs : w.next a = some w') :
    ClosesAfterTests w w' := by
  intro ho hc
  cases a with
  | start now =>
    cases hs
    rw [World.start] at hc
    split at hc
    case h_1 => cases ho.symm.trans hc
    case h_2 b hb =>
      rcases of_beforeCall hb with ⟨-, rfl⟩ | ⟨-, -, rfl⟩
      case inl => cases ho.symm.trans hc
      case inr => cases hc
  | succeed call =>
    simp only [World.next, Option.ite_none_right_eq_some, Option.some.injEq] at hs
    obtain ⟨-, rfl⟩ := hs
    have hcount := countsOwn_succeed hg h ho
    exact ((onSuccess_halfOpen ho).2 hc).trans (by exact_mod_cast hcount)
  | fail call failedAt now =>
    simp only [World.next, Option.ite_none_right_eq_some, Option.some.injEq] at hs
    obtain ⟨-, rfl⟩ := hs
    rcases onFailure_state w.breaker failedAt now with hf | ⟨hne, -⟩
    case inl => cases hf.symm.trans hc
    case inr => exact absurd ho hne

namespace Sample

-- Two of seven calls outlast the outage that the five others report.
def outage : List Action :=
  List.replicate 7 (.start 0) ++ (List.range 5).map (.fail · 0 0) ++ [.start 30000, .succeed 5]

def initial : World where
  breaker := .new {}

def run (w : World) (as : List Action) : World :=
  as.foldl (fun w a => (w.next a).getD w) w

theorem run_reachable {as : List Action} (h : (system options).Reachable w) :
    (system options).Reachable (run w as) := by
  induction as generalizing w with
  | nil => exact h
  | cons a as ih =>
    rw [run, List.foldl_cons]
    refine ih ?_
    cases hs : w.next a with
    | none => exact h
    | some w' => exact .step h trivial hs

end Sample

end Circuit
