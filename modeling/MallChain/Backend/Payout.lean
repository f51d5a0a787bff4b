import MallChain.Backend.Number

namespace Payout

open Backend

section Backoff

-- An error that is thrown. A caller can mark it as one that a retry cannot fix.
structure Failure where
  message   : String := ""
  retryable : Bool := true
  deriving DecidableEq, Repr

variable {α : Type} (fn : ℕ → Except Failure α)

-- The rest of the loop, with the result and the number of calls. The last error is thrown at the end.
def executeFrom : (remaining attempt : ℕ) → (lastError : Failure) → Except Failure α × ℕ
  | 0, attempt, lastError         => (.error lastError, attempt)
  | remaining + 1, attempt, _     =>
    match fn attempt with
    | .ok result   => (.ok result, attempt + 1)
    | .error error =>
      if error.retryable then executeFrom remaining (attempt + 1) error
      else (.error error, attempt + 1)

-- `ExponentialBackoff.execute`
def execute (maxRetries : ℕ) : Except Failure α × ℕ :=
  executeFrom fn maxRetries 0 {}

variable {fn} {remaining k m i : ℕ} {lastError : Failure} {result : α}

theorem le_calls : k ≤ (executeFrom fn remaining k lastError).2 := by
  induction remaining generalizing k lastError with
  | zero => exact le_rfl
  | succ remaining ih =>
    rw [executeFrom]
    split
    case h_1 => exact Nat.le_succ k
    case h_2 =>
      split_ifs
      case pos => exact (Nat.le_succ k).trans ih
      case neg => exact Nat.le_succ k

-- A call is made if there are attempts left and all calls before it failed in a way to be retried.
theorem lt_calls_iff (hk : k ≤ i) : i < (executeFrom fn remaining k lastError).2 ↔
    i < k + remaining ∧ ∀ j, k ≤ j → j < i → ∃ e, fn j = .error e ∧ e.retryable = true := by
  induction remaining generalizing k lastError with
  | zero =>
    rw [executeFrom]
    simp only [add_zero]
    omega
  | succ remaining ih =>
    rw [executeFrom]
    split
    case h_1 result hfn =>
      refine ⟨fun h => ⟨by omega, fun j _ _ => by omega⟩, fun h => ?_⟩
      by_contra hn
      obtain ⟨e, he, _⟩ := h.2 k le_rfl (by omega)
      rw [hfn] at he
      cases he
    case h_2 error hfn =>
      split_ifs with hretry
      case neg =>
        refine ⟨fun h => ⟨by omega, fun j _ _ => by omega⟩, fun h => ?_⟩
        by_contra hn
        obtain ⟨e, he, hr⟩ := h.2 k le_rfl (by omega)
        rw [hfn] at he
        cases he
        exact hretry hr
      case pos =>
        cases Nat.eq_or_lt_of_le hk with
        | inl heq =>
          subst heq
          refine ⟨fun _ => ⟨by omega, fun j _ _ => by omega⟩, fun _ => Nat.lt_of_succ_le le_calls⟩
        | inr hlt =>
          rw [ih hlt]
          refine and_congr (by omega) ⟨fun h j hj hji => ?_, fun h j hj hji => h j (by omega) hji⟩
          cases Nat.eq_or_lt_of_le hj with
          | inl heq => exact ⟨error, heq ▸ hfn, hretry⟩
          | inr hkj => exact h j hkj hji

-- A result is the one of the last call.
theorem of_executeFrom_ok (h : (executeFrom fn remaining k lastError).1 = .ok result) :
    ∃ m, k ≤ m ∧ (executeFrom fn remaining k lastError).2 = m + 1 ∧ fn m = .ok result := by
  induction remaining generalizing k lastError with
  | zero => cases h
  | succ remaining ih =>
    rw [executeFrom] at h ⊢
    split at h
    case h_1 result' hfn =>
      cases h
      exact ⟨k, le_rfl, rfl, hfn⟩
    case h_2 error hfn =>
      split_ifs at h ⊢ with hretry
      obtain ⟨m, hm, hcalls, hfm⟩ := ih h
      exact ⟨m, by omega, hcalls, hfm⟩

theorem of_executeFrom_error {e : Failure} (h : (executeFrom fn remaining k lastError).1 = .error e)
    (hk : k ≤ i) (hi : i < (executeFrom fn remaining k lastError).2) : ∃ e, fn i = .error e := by
  induction remaining generalizing k lastError with
  | zero =>
    rw [executeFrom] at hi
    omega
  | succ remaining ih =>
    rw [executeFrom] at h hi
    split at h
    case h_1 => cases h
    case h_2 error hfn =>
      simp only [hfn] at hi
      split_ifs at h hi with hretry
      case neg =>
        have heq : i = k := by omega
        exact ⟨error, heq ▸ hfn⟩
      case pos =>
        cases Nat.eq_or_lt_of_le hk with
        | inl heq => exact ⟨error, heq ▸ hfn⟩
        | inr hlt => exact ih h hlt hi

end Backoff

-- What becomes of a request to the provider. One that it has received is executed, whatever it answers.
inductive Attempt
  | accepted (conversationId : Option String)
  | failed (received : Bool) (status : Option ℕ) (message : String)
  deriving DecidableEq, Repr

def Attempt.received : Attempt → Bool
  | .accepted _          => true
  | .failed received _ _ => received

def Attempt.isAccepted : Attempt → Bool
  | .accepted _   => true
  | .failed _ _ _ => false

-- The POST in the loop. An error below 500 is not tried again.
def post : Attempt → Except Failure (Option String)
  | .accepted conversationId  => .ok conversationId
  | .failed _ status message  => .error { message, retryable := ¬status.any (· < 500) }

inductive PayoutError
  | invalidPesaAmount
  | notConfigured
  | perTransactionLimit (pesaAmountKes limit : ℚ)
  | perDayLimit (limit todayTotal : ℚ)
  | noToken
  | initiationFailed (message : String)
  -- an error that is thrown to the caller
  | thrown
  deriving DecidableEq, Repr

structure InitiatedPayout where
  payoutRef  : String
  pesaAmount : ℚ
  deriving DecidableEq, Repr

-- What the environment sets. A limit of zero is none.
structure Config where
  configured : Bool
  maxPerTx   : Option ℚ := none
  maxPerDay  : Option ℚ := none

-- What a call finds: the price, what was paid out today (unless that cannot be read), whether there is
-- a token, what becomes of each request, and the time.
structure Environment where
  sellPriceKes : ℚ
  todayTotal   : Option ℚ := some 0
  token        : Bool := true
  provider     : ℕ → Attempt
  now          : ℕ := 0

def defaultPesaPriceKes : ℚ := Binary64.round (58 / 100)
def paymentMaxRetries : ℕ := 3

variable (cfg : Config) (env : Environment) (mlcnsAmount : ℚ)

def pesaAmount : ℤ :=
  let effectiveSellPriceKes := if env.sellPriceKes = 0 then defaultPesaPriceKes else env.sellPriceKes
  mathRound (Binary64.mul (Binary64.mul mlcnsAmount effectiveSellPriceKes) 100)

def checkPayoutLimits (pesaAmountKes : ℚ) : Except PayoutError Unit :=
  match cfg.maxPerTx.filter (· ≠ 0) with
  | some perTx =>
    if pesaAmountKes > perTx then .error (.perTransactionLimit pesaAmountKes perTx) else perDay
  | none => perDay
where
  perDay : Except PayoutError Unit :=
    match cfg.maxPerDay.filter (· ≠ 0), env.todayTotal with
    | none, _                     => .ok ()
    | some _, none                => .error .thrown
    | some perDay, some todayTotal =>
      if Binary64.add todayTotal pesaAmountKes > perDay then .error (.perDayLimit perDay todayTotal)
      else .ok ()

def PayoutError.requiresApproval : PayoutError → Bool
  | .perTransactionLimit _ _ | .perDayLimit _ _ => true
  | _ => false

-- The part before the request to the provider.
def preparePayout : Except PayoutError ℚ := do
  let pesaAmount := pesaAmount env mlcnsAmount
  if pesaAmount ≤ 0 then .error .invalidPesaAmount
  if !cfg.configured then .error .notConfigured
  let pesaAmountKes := Binary64.div pesaAmount 100
  checkPayoutLimits cfg env pesaAmountKes
  if !env.token then .error .noToken
  return pesaAmountKes

-- The result of a call, with the number of requests that are sent.
def initiateB2CPayout : Except PayoutError InitiatedPayout × ℕ :=
  match preparePayout cfg env mlcnsAmount with
  | .error error      => (.error error, 0)
  | .ok pesaAmountKes =>
    let (result, calls) := execute (fun attempt => post (env.provider attempt)) paymentMaxRetries
    match result with
    | .ok conversationId =>
      (.ok {
        payoutRef  := conversationId.getD ("B2C" ++ toString env.now)
        pesaAmount := pesaAmountKes
      }, calls)
    | .error error => (.error (.initiationFailed error.message), calls)

-- How many requests of a call the provider has received, and so executed.
def payments : ℕ :=
  (List.range (initiateB2CPayout cfg env mlcnsAmount).2).countP fun i => (env.provider i).received

-- A call pays at most once, and if it reports a failure that needs no approval, it has not paid.
def PaysOnce : Prop :=
  payments cfg env mlcnsAmount ≤ 1 ∧
    ∀ error, (initiateB2CPayout cfg env mlcnsAmount).1 = .error error → error.requiresApproval = false →
      payments cfg env mlcnsAmount = 0

-- No request is received that fails, as far as the requests are sent.
def FailsUnreceived : Prop :=
  ∀ i < paymentMaxRetries, (∀ j < i, ∃ error, post (env.provider j) = .error error ∧
    error.retryable = true) → ∀ status message, env.provider i ≠ .failed true status message

variable {cfg env mlcnsAmount} {kes : ℚ}

-- The attempts of a call that reaches the provider.
def attempts (env : Environment) : Except Failure (Option String) × ℕ :=
  execute (fun attempt => post (env.provider attempt)) paymentMaxRetries

theorem calls_of_prepare (h : preparePayout cfg env mlcnsAmount = .ok kes) :
    (initiateB2CPayout cfg env mlcnsAmount).2 = (attempts env).2 := by
  rw [initiateB2CPayout, h, attempts]
  dsimp only
  split <;> rfl

theorem error_of_attempts {error : Failure} (h : preparePayout cfg env mlcnsAmount = .ok kes)
    (he : (attempts env).1 = .error error) :
    (initiateB2CPayout cfg env mlcnsAmount).1 = .error (.initiationFailed error.message) := by
  rw [attempts] at he
  rw [initiateB2CPayout, h]
  dsimp only
  rw [he]

theorem attempts_error_of_error {error : PayoutError} (h : preparePayout cfg env mlcnsAmount = .ok kes)
    (he : (initiateB2CPayout cfg env mlcnsAmount).1 = .error error) :
    ∃ e, (attempts env).1 = .error e := by
  rw [initiateB2CPayout, h] at he
  dsimp only at he
  rw [attempts]
  split at he
  case h_1 => cases he
  case h_2 e hexecute => exact ⟨e, hexecute⟩

theorem lt_attempts_iff {i : ℕ} : i < (attempts env).2 ↔ i < paymentMaxRetries ∧
    ∀ j < i, ∃ e, post (env.provider j) = .error e ∧ e.retryable = true := by
  rw [attempts, execute, lt_calls_iff (Nat.zero_le i), Nat.zero_add]
  exact and_congr_right fun _ => ⟨fun h j hj => h j (Nat.zero_le j) hj, fun h j _ hj => h j hj⟩

-- The provider is asked no more after it has accepted.
theorem last_of_accepted {m : ℕ} {conversationId : Option String} (hm : m < (attempts env).2)
    (ha : env.provider m = .accepted conversationId) : (attempts env).2 = m + 1 := by
  refine le_antisymm (not_lt.mp fun hlt => ?_) hm
  obtain ⟨e, he, _⟩ := (lt_attempts_iff.mp hlt).2 m (Nat.lt_succ_self m)
  rw [ha] at he
  cases he

theorem isAccepted_of_post {attempt : Attempt} {conversationId : Option String}
    (h : post attempt = .ok conversationId) : attempt.isAccepted = true := by
  cases attempt with
  | accepted _ => rfl
  | failed _ _ _ => cases h

theorem not_isAccepted_of_post {attempt : Attempt} {error : Failure} (h : post attempt = .error error) :
    attempt.isAccepted = false := by
  cases attempt with
  | accepted _ => cases h
  | failed _ _ _ => rfl

-- A payout is initiated with the one request that the provider has accepted.
theorem accepted_of_ok {payout : InitiatedPayout} (hp : preparePayout cfg env mlcnsAmount = .ok kes)
    (h : (initiateB2CPayout cfg env mlcnsAmount).1 = .ok payout) :
    (List.range (initiateB2CPayout cfg env mlcnsAmount).2).countP (fun i => (env.provider i).isAccepted) =
      1 := by
  rw [calls_of_prepare hp]
  cases hres : (attempts env).1 with
  | error error =>
    rw [error_of_attempts hp hres] at h
    cases h
  | ok result =>
    obtain ⟨m, _, hcalls, hm⟩ := of_executeFrom_ok hres
    have hcalls : (attempts env).2 = m + 1 := hcalls
    have hz : (List.range m).countP (fun i => (env.provider i).isAccepted) = 0 := by
      rw [List.countP_eq_zero]
      intro i hi
      have hlt : m < (attempts env).2 := by omega
      obtain ⟨error, hpost, _⟩ := (lt_attempts_iff.mp hlt).2 i (List.mem_range.mp hi)
      rw [not_isAccepted_of_post hpost]
      exact Bool.false_ne_true
    rw [hcalls, List.range_succ, List.countP_append, hz, zero_add, List.countP_singleton,
      if_pos (isAccepted_of_post hm)]

theorem accepted_of_error {error : PayoutError} (hp : preparePayout cfg env mlcnsAmount = .ok kes)
    (h : (initiateB2CPayout cfg env mlcnsAmount).1 = .error error) :
    (List.range (initiateB2CPayout cfg env mlcnsAmount).2).countP (fun i => (env.provider i).isAccepted) =
      0 := by
  obtain ⟨e, he⟩ := attempts_error_of_error hp h
  rw [calls_of_prepare hp, List.countP_eq_zero]
  intro i hi
  obtain ⟨error, hpost⟩ := of_executeFrom_error he (Nat.zero_le i) (List.mem_range.mp hi)
  rw [not_isAccepted_of_post hpost]
  exact Bool.false_ne_true

theorem received_accepted {i : ℕ} (h : FailsUnreceived env) (hi : i < (attempts env).2)
    (hr : (env.provider i).received = true) : ∃ conversationId, env.provider i = .accepted conversationId := by
  obtain ⟨hlt, hretried⟩ := lt_attempts_iff.mp hi
  cases ha : env.provider i with
  | accepted conversationId => exact ⟨conversationId, rfl⟩
  | failed received status message =>
    rw [ha, Attempt.received] at hr
    subst hr
    exact absurd ha (h i hlt hretried status message)

theorem paysOnce_of_failsUnreceived (hp : preparePayout cfg env mlcnsAmount = .ok kes)
    (h : FailsUnreceived env) : PaysOnce cfg env mlcnsAmount := by
  rw [PaysOnce, payments, calls_of_prepare hp]
  refine ⟨?_, ?_⟩
  case refine_1 =>
    cases hn : (attempts env).2 with
    | zero   => exact Nat.zero_le 1
    | succ m =>
      have hz : (List.range m).countP (fun i => (env.provider i).received) = 0 := by
        rw [List.countP_eq_zero]
        intro i hi hr
        have hi := List.mem_range.mp hi
        have hlt : i < (attempts env).2 := by omega
        obtain ⟨conversationId, ha⟩ := received_accepted h hlt hr
        have hlast := last_of_accepted hlt ha
        omega
      rw [List.range_succ, List.countP_append, hz, zero_add]
      exact List.countP_le_length
  case refine_2 =>
    intro error he _
    obtain ⟨e, herror⟩ := attempts_error_of_error hp he
    rw [List.countP_eq_zero]
    intro i hi hr
    have hi := List.mem_range.mp hi
    obtain ⟨conversationId, ha⟩ := received_accepted h hi hr
    obtain ⟨e', he'⟩ := of_executeFrom_error herror (Nat.zero_le i) hi
    rw [ha] at he'
    cases he'

-- A call pays at most once, and none that fails, just if it is refused before the provider is asked or
-- the provider has received no request that fails.
theorem paysOnce_iff (cfg : Config) (env : Environment) (mlcnsAmount : ℚ) :
    PaysOnce cfg env mlcnsAmount ↔
      ((∃ kes, preparePayout cfg env mlcnsAmount = .ok kes) → FailsUnreceived env) := by
  refine ⟨fun h hp => ?_, fun h => ?_⟩
  case refine_1 =>
    obtain ⟨kes, hp⟩ := hp
    rw [PaysOnce, payments, calls_of_prepare hp] at h
    obtain ⟨hle, hnone⟩ := h
    intro i hi hretried status message ha
    have hlt : i < (attempts env).2 := lt_attempts_iff.mpr ⟨hi, hretried⟩
    have hr : (env.provider i).received = true := by
      rw [ha]
      rfl
    cases hres : (attempts env).1 with
    | error error =>
      have hz := hnone _ (error_of_attempts hp hres) rfl
      exact List.countP_eq_zero.mp hz i (List.mem_range.mpr hlt) hr
    | ok result =>
      -- The request that is accepted is the second one that pays.
      obtain ⟨m, _, hcalls, hm⟩ := of_executeFrom_ok hres
      have hcalls : (attempts env).2 = m + 1 := hcalls
      have hne : i ≠ m := by
        intro heq
        rw [← heq, ha] at hm
        cases hm
      have hm : (env.provider m).received = true := by
        cases hp : env.provider m with
        | accepted conversationId        => rfl
        | failed received status message =>
          rw [hp] at hm
          cases hm
      have hpos : 0 < (List.range m).countP fun i => (env.provider i).received :=
        List.countP_pos_iff.mpr ⟨i, List.mem_range.mpr (by omega), hr⟩
      rw [hcalls, List.range_succ, List.countP_append, List.countP_singleton, if_pos hm] at hle
      omega
  case refine_2 =>
    cases hp : preparePayout cfg env mlcnsAmount with
    | ok kes => exact paysOnce_of_failsUnreceived hp (h ⟨kes, hp⟩)
    | error error =>
      have hz : payments cfg env mlcnsAmount = 0 := by
        rw [payments, initiateB2CPayout, hp]
        rfl
      exact ⟨hz.le.trans (Nat.zero_le 1), fun _ _ _ => hz⟩

namespace Sample

def live : Config where
  configured := true

-- The response to the first request is lost, the second one is accepted.
def lostResponse : Environment where
  sellPriceKes := Binary64.round (58 / 100)
  provider
    | 0 => .failed true none "timeout of 10000ms exceeded"
    | _ => .accepted (some "AG_1")

end Sample

-- A lost response makes the provider pay twice.
theorem lost_response_pays_twice :
    ¬∀ (cfg : Config) (env : Environment) (mlcnsAmount : ℚ), PaysOnce cfg env mlcnsAmount := by
  intro h
  have hle := (h Sample.live Sample.lostResponse 100).1
  have hn : ¬payments Sample.live Sample.lostResponse 100 ≤ 1 := by
    decide +kernel
  exact hn hle

end Payout
