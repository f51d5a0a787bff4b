import MallChain.Lib.KVStore
import MallChain.Lib.Transition

namespace Frontend.Api

inductive Method
  | get
  | post
  | put
  | patch
  | delete
  deriving DecidableEq, Repr

def Method.text : Method → String
  | get    => "GET"
  | post   => "POST"
  | put    => "PUT"
  | patch  => "PATCH"
  | delete => "DELETE"

-- `MUTATING_METHODS`
def Method.isMutating : Method → Bool
  | get                           => false
  | post | put | patch | delete => true

structure Call where
  method : Method
  path   : String
  body   : Option String := none
  deriving DecidableEq, Repr

-- The body has no part in it.
def getCacheKey (call : Call) : String :=
  call.method.text ++ ":" ++ call.path

-- A token is valid for the secret that it was made from, which the browser holds in a cookie.
abbrev Secret := ℕ

def csrfError : String :=
  "invalid or missing CSRF token"

structure Response where
  status : ℕ
  error  : Option String := none
  data   : Option String := none
  deriving DecidableEq, Repr

def Response.isOk (r : Response) : Bool :=
  200 ≤ r.status && r.status < 300

-- What is not answered by the CSRF check does not have its text.
structure Reply extends Response where
  plain : error ≠ some csrfError

structure Refusal extends Reply where
  failed : toResponse.isOk = false

structure ApiResult where
  ok    : Bool
  data  : Option String := none
  error : Option String := none
  code  : Option ℕ := none
  deriving DecidableEq, Repr

-- The CSRF token as it was found at once, or a request for one.
inductive Wait
  | token (token : Option Secret)
  | fetch (id : ℕ)
  deriving DecidableEq, Repr

inductive Stage
  | waiting (wait : Wait)
  | sent (message : ℕ)
  | done (result : ApiResult)
  deriving DecidableEq, Repr

-- A run of `performRequest`, with the message that it has sent last.
structure Task where
  call        : Call
  isCsrfRetry : Bool := false
  stage       : Stage
  last        : Option ℕ := none
  deriving DecidableEq, Repr

-- A request on its way with what the browser attaches to it, and what the server makes of it.
structure Message where
  task    : ℕ
  call    : Call
  token   : Option Secret
  cookie  : Option Secret
  answer  : Option Response := none
  handled : Bool := false
  deriving DecidableEq, Repr

-- A request to `GET /api/csrf-token`. Its answer sets the cookie where there was none.
inductive Fetch
  | sent (cookie : Option Secret)
  | answered (cookie : Option Secret) (token : Secret)
  | done (token : Option Secret)
  deriving DecidableEq, Repr

structure State where
  pendingRequests  : KVStore String ℕ := .empty
  csrfToken        : Option Secret := none
  csrfFetchPromise : Option ℕ := none
  tasks            : List Task := []
  calls            : List (Call × ℕ) := []
  messages         : List Message := []
  fetches          : List Fetch := []
  cookie           : Option Secret := none

namespace State

def setTask (t : ℕ) (task : Task) (s : State) : State :=
  { s with tasks := s.tasks.set t task }

-- Concurrent callers share one request.
def getCsrfToken (s : State) : State × Wait :=
  match s.csrfToken with
  | some token => (s, .token (some token))
  | none       =>
    match s.csrfFetchPromise with
    | some id => (s, .fetch id)
    | none    =>
      ({ s with fetches := s.fetches ++ [.sent s.cookie], csrfFetchPromise := some s.fetches.length },
        .fetch s.fetches.length)

def invalidateCsrfToken (s : State) : State :=
  { s with csrfToken := none }

def clearSession (s : State) : State :=
  { s with csrfToken := none, csrfFetchPromise := none }

def fetch (t : ℕ) (task : Task) (token : Option Secret) (s : State) : State :=
  { s with
    messages := s.messages ++ [{ task := t, call := task.call, token, cookie := s.cookie }]
    tasks    := s.tasks.set t
      { task with stage := .sent s.messages.length, last := some s.messages.length } }

-- Up to the first `await`
def performRequest (t : ℕ) (task : Task) (s : State) : State :=
  if task.call.method.isMutating then
    s.getCsrfToken.1.setTask t { task with stage := .waiting s.getCsrfToken.2 }
  else s.fetch t task none

-- A call that finds its key is given the promise that is there.
def request (call : Call) (s : State) : State :=
  match s.pendingRequests.get (getCacheKey call) with
  | some t => { s with calls := (call, t) :: s.calls }
  | none   =>
    let task : Task := { call, stage := .waiting (.token none) }
    performRequest s.tasks.length task
      { s with
        tasks           := s.tasks ++ [task]
        pendingRequests := s.pendingRequests.set (getCacheKey call) s.tasks.length
        calls           := (call, s.tasks.length) :: s.calls }

def finish (t : ℕ) (task : Task) (result : ApiResult) (s : State) : State :=
  { s.setTask t { task with stage := .done result } with
    pendingRequests := s.pendingRequests.remove (getCacheKey task.call) }

-- The token that a task waits for, once it is there.
def tokenOf (s : State) : Wait → Option (Option Secret)
  | .token token => some token
  | .fetch id    =>
    match s.fetches[id]? with
    | some (.done token) => some token
    | _                  => none

def resume (t : ℕ) (s : State) : State :=
  match s.tasks[t]? with
  | some task =>
    match task.stage with
    | .waiting wait =>
      match s.tokenOf wait with
      | some token => s.fetch t task token
      | none       => s
    | _ => s
  | none => s

end State

-- What the server has in store for a request: it is turned away before the route, or the route would
-- answer it.
inductive Ruling
  | refused (refusal : Refusal)
  | handled (reply : Reply)

def csrfRefusal : Response where
  status := 403
  error  := some csrfError

-- `checkCsrf`: the token belongs to the secret of the cookie.
def Message.isVerified (message : Message) : Bool :=
  message.token.isSome && message.token = message.cookie

-- A route behind `requireAuth` handles only requests that pass the check.
def Message.ruled (guarded : String → Bool) (message : Message) : Ruling → Message
  | .refused refusal => { message with answer := some refusal.toResponse }
  | .handled reply =>
    if message.call.method.isMutating && guarded message.call.path && !message.isVerified then
      { message with answer := some csrfRefusal }
    else { message with answer := some reply.toResponse, handled := true }

namespace State

def serve (guarded : String → Bool) (m : ℕ) (ruling : Ruling) (s : State) : State :=
  match s.messages[m]? with
  | some message =>
    if message.answer.isSome then s
    else { s with messages := s.messages.set m (message.ruled guarded ruling) }
  | none => s

-- The message that a task has sent, with its answer.
def answerOf (s : State) (task : Task) : Option Response :=
  match task.stage with
  | .sent m => (s.messages[m]?).bind (·.answer)
  | _       => none

def isSent (task : Task) : Bool :=
  match task.stage with
  | .sent _ => true
  | _       => false

-- The connection fails. The message may be served all the same.
def fail (t : ℕ) (errorMessage : String) (s : State) : State :=
  match s.tasks[t]? with
  | some task =>
    if isSent task then s.finish t task { ok := false, error := some errorMessage } else s
  | none => s

def errorResult (r : Response) : ApiResult where
  ok    := false
  code  := some r.status
  error := some (((r.error.filter (· ≠ ""))).getD ("HTTP " ++ toString r.status))

def handleResponse (t : ℕ) (task : Task) (r : Response) (s : State) : State :=
  if r.status = 401 then
    s.clearSession.finish t task
      { ok := false, code := some 401, error := some "Session expired. Please log in again." }
  else if r.status = 403 ∧ task.isCsrfRetry = false ∧ task.call.method.isMutating = true ∧
      r.error = some csrfError then
    s.invalidateCsrfToken.performRequest t { task with isCsrfRetry := true }
  else if r.isOk then s.finish t task { ok := true, data := r.data }
  else s.finish t task (errorResult r)

def receive (t : ℕ) (s : State) : State :=
  match s.tasks[t]? with
  | some task =>
    match s.answerOf task with
    | some r => s.handleResponse t task r
    | none   => s
  | none => s

-- The server makes a token, and a secret where there is none.
def serveToken (id : ℕ) (fresh : Secret) (s : State) : State :=
  match s.fetches[id]? with
  | some (.sent cookie) => { s with fetches := s.fetches.set id (.answered cookie (cookie.getD fresh)) }
  | _                   => s

def receiveToken (id : ℕ) (s : State) : State :=
  match s.fetches[id]? with
  | some (.answered cookie token) =>
    { s with
      fetches          := s.fetches.set id (.done (some token))
      csrfToken        := some token
      csrfFetchPromise := none
      cookie           := if cookie.isNone then some token else s.cookie }
  | _ => s

-- An answer that fails or has no token. A token that is there stays unless the answer itself has none.
def failToken (id : ℕ) (emptied : Bool) (s : State) : State :=
  match s.fetches[id]? with
  | some (.done _) | none => s
  | _                     =>
    { s with
      fetches          := s.fetches.set id (.done none)
      csrfToken        := if emptied then none else s.csrfToken
      csrfFetchPromise := none }

end State

-- `getCsrfToken` is also called for uploads, which do not go through `request`.
inductive Action
  | request (call : Call)
  | resume (t : ℕ)
  | serve (m : ℕ) (ruling : Ruling)
  | fail (t : ℕ) (errorMessage : String)
  | receive (t : ℕ)
  | serveToken (id : ℕ) (fresh : Secret)
  | receiveToken (id : ℕ)
  | failToken (id : ℕ) (emptied : Bool)
  | getCsrfToken
  | setCookie (cookie : Option Secret)
  | clearSession

def Action.exec (guarded : String → Bool) (s : State) : Action → State
  | request call            => s.request call
  | resume t                => s.resume t
  | serve m ruling          => s.serve guarded m ruling
  | fail t errorMessage     => s.fail t errorMessage
  | receive t               => s.receive t
  | serveToken id fresh     => s.serveToken id fresh
  | receiveToken id         => s.receiveToken id
  | failToken id emptied    => s.failToken id emptied
  | getCsrfToken            => s.getCsrfToken.1
  | setCookie cookie        => { s with cookie }
  | clearSession            => s.clearSession

-- A page without a call at first, whatever it has of tokens and cookies.
def Start (s : State) : Prop :=
  s.tasks = [] ∧ s.messages = [] ∧ s.calls = [] ∧ s.pendingRequests = .empty

def system (guarded : String → Bool) (init : State → Prop) : TransitionSystem State Action where
  init     := init
  step s a s' := s' = a.exec guarded s

-- The server has turned the message away.
def Message.Refused (message : Message) : Prop :=
  message.answer.isSome = true ∧ message.handled = false

-- What a message says of its answer.
structure Message.Fair (message : Message) : Prop where
  answered : message.handled = true → message.answer.isSome = true
  granted  : ∀ r : Response, message.answer = some r → r.isOk = true → message.handled = true
  plain    : ∀ r : Response, message.answer = some r → r.error = some csrfError →
    message.handled = false ∧ message.call.method.isMutating = true ∧ message.isVerified = false

def Task.isDone (task : Task) : Bool :=
  match task.stage with
  | .done _ => true
  | _       => false

def ApiResult.isCsrfRefusal (result : ApiResult) : Bool :=
  !result.ok && result.code = some 403 && result.error = some csrfError

-- Nothing that the task has sent so far was handled, or will be.
def State.Unhandled (s : State) (t : ℕ) : Prop :=
  ∀ (m : ℕ) (message : Message), s.messages[m]? = some message → message.task = t → message.Refused

-- What is known of the messages of a task.
structure Task.Fits (s : State) (t : ℕ) (task : Task) : Prop where
  waiting : ∀ wait : Wait, task.stage = .waiting wait → s.Unhandled t
  sent    : ∀ m : ℕ, task.stage = .sent m → task.last = some m ∧
    ∃ message : Message, s.messages[m]? = some message ∧ message.task = t
  served  : ∀ result : ApiResult, task.stage = .done result → result.ok = true →
    ∃ (m : ℕ) (message : Message), s.messages[m]? = some message ∧ message.task = t ∧
      message.handled = true
  refused : ∀ result : ApiResult, task.stage = .done result → result.isCsrfRefusal = true →
    s.Unhandled t

structure Sound (s : State) : Prop where
  fair     : ∀ (m : ℕ) (message : Message), s.messages[m]? = some message → message.Fair
  -- All messages of a task but the last were turned away.
  messages : ∀ (m : ℕ) (message : Message), s.messages[m]? = some message →
    ∃ task : Task, s.tasks[message.task]? = some task ∧ message.call = task.call ∧
      (task.last = some m ∨ message.Refused)
  tasks    : ∀ (t : ℕ) (task : Task), s.tasks[t]? = some task → task.Fits s t
  pending  : ∀ (t : ℕ) (task : Task), s.tasks[t]? = some task → task.isDone = false →
    s.pendingRequests.get (getCacheKey task.call) = some t
  keys     : ∀ (key : String) (t : ℕ), s.pendingRequests.get key = some t →
    ∃ task : Task, s.tasks[t]? = some task ∧ getCacheKey task.call = key
  calls    : ∀ (call : Call) (t : ℕ), (call, t) ∈ s.calls →
    ∃ task : Task, s.tasks[t]? = some task ∧ getCacheKey task.call = getCacheKey call

variable {s s' : State} {t m : ℕ} {task old : Task} {message : Message} {guarded : String → Bool}

section Steps

theorem getElem?_set_of_some {α : Type} {l : List α} {i j : ℕ} {a b : α} (h : l[i]? = some a) :
    (l.set i b)[j]? = if j = i then some b else l[j]? := by
  obtain ⟨hlt, _⟩ := List.getElem?_eq_some_iff.mp h
  rw [List.getElem?_set]
  split_ifs with heq hne
  case pos => rfl
  case neg => exact absurd heq.symm hne
  case pos heq' => exact absurd heq'.symm heq
  case neg => rfl

theorem getElem?_concat {α : Type} {l : List α} {a b : α} {j : ℕ} :
    (l ++ [a])[j]? = some b ↔ l[j]? = some b ∨ j = l.length ∧ a = b := by
  rcases lt_trichotomy j l.length with hlt | heq | hgt
  case inl => simp [List.getElem?_append_left hlt, hlt.ne]
  case inr.inl => simp [heq]
  case inr.inr =>
    have hnone : (l ++ [a])[j]? = none := by simp; omega
    have hnone' : l[j]? = none := by simp; omega
    simp [hnone, hnone', hgt.ne']

theorem Task.Fits.congr (h : task.Fits s t) (hmessages : s'.messages = s.messages) : task.Fits s' t := by
  obtain ⟨hwaiting, hsent, hserved, hrefused⟩ := h
  constructor <;> simp only [State.Unhandled, hmessages] <;> assumption

-- Only what tasks and messages say counts.
theorem Sound.congr (h : Sound s) (htasks : s'.tasks = s.tasks) (hmessages : s'.messages = s.messages)
    (hcalls : s'.calls = s.calls) (hpending : s'.pendingRequests = s.pendingRequests) : Sound s' where
  fair     := by
    rw [hmessages]
    exact h.fair
  messages := by
    rw [hmessages, htasks]
    exact h.messages
  tasks    := by
    intro t task hget
    rw [htasks] at hget
    exact (h.tasks t task hget).congr hmessages
  pending  := by
    rw [htasks, hpending]
    exact h.pending
  keys     := by
    rw [htasks, hpending]
    exact h.keys
  calls    := by
    rw [htasks, hcalls]
    exact h.calls

-- A task may change its stage and remains who it is.
theorem exists_set {P : Task → Prop} {i : ℕ} (hget : s.tasks[t]? = some old)
    (hP : P old → P task) (h : ∃ task' : Task, s.tasks[i]? = some task' ∧ P task') :
    ∃ task' : Task, (s.tasks.set t task)[i]? = some task' ∧ P task' := by
  obtain ⟨task', hget', htask'⟩ := h
  rw [getElem?_set_of_some hget]
  split_ifs with heq
  case pos =>
    rw [heq, hget, Option.some.injEq] at hget'
    exact ⟨task, rfl, hP (hget' ▸ htask')⟩
  case neg => exact ⟨task', hget', htask'⟩

theorem Sound.setTask (h : Sound s) (hget : s.tasks[t]? = some old) (hcall : task.call = old.call)
    (hlast : task.last = old.last) (hfits : task.Fits s t)
    (hopen : task.isDone = false → s.pendingRequests.get (getCacheKey task.call) = some t) :
    Sound (s.setTask t task) where
  fair     := h.fair
  messages := by
    intro m message hmessage
    refine exists_set hget ?_ (h.messages m message hmessage)
    rw [hcall, hlast]
    exact id
  tasks    := by
    intro t' task' hget'
    change (s.tasks.set t task)[t']? = some task' at hget'
    rw [getElem?_set_of_some hget] at hget'
    split_ifs at hget' with heq
    case pos =>
      obtain rfl := Option.some.inj hget'
      rw [heq]
      exact hfits.congr rfl
    case neg => exact (h.tasks t' task' hget').congr rfl
  pending  := by
    intro t' task' hget' hdone
    change (s.tasks.set t task)[t']? = some task' at hget'
    rw [getElem?_set_of_some hget] at hget'
    split_ifs at hget' with heq
    case pos =>
      obtain rfl := Option.some.inj hget'
      rw [heq]
      exact hopen hdone
    case neg => exact h.pending t' task' hget' hdone
  keys     := by
    intro key t' hkey
    refine exists_set hget ?_ (h.keys key t' hkey)
    rw [hcall]
    exact id
  calls    := by
    intro call t' hmem
    refine exists_set hget ?_ (h.calls call t' hmem)
    rw [hcall]
    exact id

theorem Task.isDone_waiting {wait : Wait} (h : task.stage = .waiting wait) : task.isDone = false := by
  rw [Task.isDone, h]

theorem Task.isDone_sent (h : task.stage = .sent m) : task.isDone = false := by
  rw [Task.isDone, h]

theorem State.answerOf_eq_some {r : Response} (h : s.answerOf task = some r) :
    ∃ (m : ℕ) (message : Message), task.stage = .sent m ∧ s.messages[m]? = some message ∧
      message.answer = some r := by
  rw [State.answerOf] at h
  split at h
  next m hstage =>
    obtain ⟨message, hmessage, hr⟩ := Option.bind_eq_some_iff.mp h
    exact ⟨m, message, hstage, hmessage, hr⟩
  next => cases h

theorem Task.Fits.of_waiting {wait : Wait} (hstage : task.stage = .waiting wait)
    (h : s.Unhandled t) : task.Fits s t where
  waiting _ _ := h
  sent    := by
    intro m hsent
    rw [hstage] at hsent
    cases hsent
  served  := by
    intro result hdone
    rw [hstage] at hdone
    cases hdone
  refused := by
    intro result hdone
    rw [hstage] at hdone
    cases hdone

-- The key of a task that ends is free again.
theorem Sound.finish (h : Sound s) (hget : s.tasks[t]? = some task) (hopen : task.isDone = false)
    {result : ApiResult}
    (hserved : result.ok = true → ∃ (m : ℕ) (message : Message), s.messages[m]? = some message ∧
      message.task = t ∧ message.handled = true)
    (hrefused : result.isCsrfRefusal = true → s.Unhandled t) : Sound (s.finish t task result) := by
  have hfits : Task.Fits s t { task with stage := .done result } := by
    constructor
    case waiting => intro wait hstage; cases hstage
    case sent => intro m hstage; cases hstage
    case served => intro result' hstage hok; cases hstage; exact hserved hok
    case refused => intro result' hstage hcsrf; cases hstage; exact hrefused hcsrf
  have hset : Sound (s.setTask t { task with stage := .done result }) :=
    h.setTask hget rfl rfl hfits (fun hdone => by cases hdone)
  refine ⟨hset.fair, hset.messages, ?tasks, ?pending, ?keys, hset.calls⟩
  case tasks =>
    intro t' task' hget'
    exact (hset.tasks t' task' hget').congr rfl
  case pending =>
    intro t' task' hget' hdone
    have hkey := hset.pending t' task' hget' hdone
    have hne : getCacheKey task'.call ≠ getCacheKey task.call := by
      intro heq
      have hsame : t' = t := by
        have hkey' := h.pending t task hget hopen
        rw [← heq] at hkey'
        exact Option.some.inj (hkey.symm.trans hkey')
      change (s.tasks.set t _)[t']? = some task' at hget'
      rw [hsame, getElem?_set_of_some hget, if_pos rfl] at hget'
      obtain rfl := Option.some.inj hget'
      cases hdone
    exact (KVStore.get_remove_ne hne).trans hkey
  case keys =>
    intro key t' hkey
    rw [State.finish, KVStore.get_remove] at hkey
    split_ifs at hkey
    exact hset.keys key t' hkey

-- A message is sent only when nothing that was sent before it counts any more.
theorem Sound.fetch (h : Sound s) (hget : s.tasks[t]? = some old) (hcall : task.call = old.call)
    (hopen : s.pendingRequests.get (getCacheKey task.call) = some t) (hunhandled : s.Unhandled t)
    {token : Option Secret} : Sound (s.fetch t task token) := by
  have hold : ∀ {m : ℕ} {message : Message}, s.messages[m]? = some message →
      (s.fetch t task token).messages[m]? = some message := by
    intro m message hmessage
    exact getElem?_concat.mpr (.inl hmessage)
  constructor
  case fair =>
    intro m message hmessage
    rcases getElem?_concat.mp hmessage with hmessage' | ⟨_, rfl⟩
    case inl => exact h.fair m message hmessage'
    case inr => constructor <;> intros <;> contradiction
  case messages =>
    intro m message hmessage
    rcases getElem?_concat.mp hmessage with hmessage' | ⟨rfl, rfl⟩
    case inl =>
      obtain ⟨task', hget', hcall', hlast⟩ := h.messages m message hmessage'
      rw [State.fetch, getElem?_set_of_some hget]
      split_ifs with heq
      case pos =>
        rw [heq, hget, Option.some.injEq] at hget'
        exact ⟨_, rfl, by rw [hcall', ← hget', hcall], .inr (hunhandled m message hmessage' heq)⟩
      case neg => exact ⟨task', hget', hcall', hlast⟩
    case inr =>
      rw [State.fetch, getElem?_set_of_some hget, if_pos rfl]
      exact ⟨_, rfl, rfl, .inl rfl⟩
  case tasks =>
    intro t' task' hget'
    rw [State.fetch, getElem?_set_of_some hget] at hget'
    split_ifs at hget' with heq
    case pos =>
      obtain rfl := Option.some.inj hget'
      constructor
      case waiting => intro wait hstage; cases hstage
      case sent =>
        intro m hstage
        cases hstage
        exact ⟨rfl, _, getElem?_concat.mpr (.inr ⟨rfl, rfl⟩), heq.symm⟩
      case served => intro result hstage; cases hstage
      case refused => intro result hstage; cases hstage
    case neg =>
      -- The new message is of another task.
      obtain ⟨hwaiting, hsent, hserved, hrefused⟩ := h.tasks t' task' hget'
      have hothers : s.Unhandled t' → (s.fetch t task token).Unhandled t' := by
        intro hall m message hmessage htask
        rcases getElem?_concat.mp hmessage with hmessage' | ⟨_, rfl⟩
        case inl => exact hall m message hmessage' htask
        case inr => exact absurd htask.symm heq
      constructor
      case waiting => exact fun wait hstage => hothers (hwaiting wait hstage)
      case sent =>
        intro m hstage
        obtain ⟨hlast, message, hmessage, htask⟩ := hsent m hstage
        exact ⟨hlast, message, hold hmessage, htask⟩
      case served =>
        intro result hstage hok
        obtain ⟨m, message, hmessage, hrest⟩ := hserved result hstage hok
        exact ⟨m, message, hold hmessage, hrest⟩
      case refused => exact fun result hstage hcsrf => hothers (hrefused result hstage hcsrf)
  case pending =>
    intro t' task' hget' hdone
    rw [State.fetch, getElem?_set_of_some hget] at hget'
    split_ifs at hget' with heq
    case pos =>
      obtain rfl := Option.some.inj hget'
      rw [heq]
      exact hopen
    case neg => exact h.pending t' task' hget' hdone
  case keys =>
    intro key t' hkey
    refine exists_set hget ?_ (h.keys key t' hkey)
    rw [hcall]
    exact id
  case calls =>
    intro call t' hmem
    refine exists_set hget ?_ (h.calls call t' hmem)
    rw [hcall]
    exact id

theorem getCsrfToken_eq (s : State) : ∃ (fetches : List Fetch) (promise : Option ℕ),
    s.getCsrfToken.1 = { s with fetches, csrfFetchPromise := promise } := by
  rw [State.getCsrfToken]
  split
  next => exact ⟨_, _, rfl⟩
  next =>
    split
    next => exact ⟨_, _, rfl⟩
    next => exact ⟨_, _, rfl⟩

theorem Sound.performRequest (h : Sound s) (hget : s.tasks[t]? = some old)
    (hcall : task.call = old.call) (hlast : task.last = old.last)
    (hopen : s.pendingRequests.get (getCacheKey task.call) = some t) (hunhandled : s.Unhandled t) :
    Sound (s.performRequest t task) := by
  rw [State.performRequest]
  split_ifs
  case pos =>
    obtain ⟨fetches, promise, heq⟩ := getCsrfToken_eq s
    rw [heq]
    have hfits : Task.Fits s t { task with stage := .waiting s.getCsrfToken.2 } :=
      .of_waiting rfl hunhandled
    exact Sound.setTask (h.congr rfl rfl rfl rfl) hget hcall hlast (hfits.congr rfl) (fun _ => hopen)
  case neg => exact h.fetch hget hcall hopen hunhandled

theorem Sound.request (h : Sound s) (call : Call) : Sound (s.request call) := by
  rw [State.request]
  split
  next t hkey =>
    obtain ⟨task, hget, hcall⟩ := h.keys _ _ hkey
    refine ⟨h.fair, h.messages, fun t' task' hget' => (h.tasks t' task' hget').congr rfl, h.pending,
      h.keys, ?_⟩
    intro call' t' hmem
    rcases List.mem_cons.mp hmem with heq | hmem'
    case inl =>
      obtain ⟨rfl, rfl⟩ := Prod.mk.inj heq
      exact ⟨task, hget, hcall⟩
    case inr => exact h.calls call' t' hmem'
  next hkey =>
    extract_lets task
    have hold : ∀ {t' : ℕ} {task' : Task}, s.tasks[t']? = some task' →
        (s.tasks ++ [task])[t']? = some task' :=
      fun hget => getElem?_concat.mpr (.inl hget)
    have hnew : (s.tasks ++ [task])[s.tasks.length]? = some task :=
      getElem?_concat.mpr (.inr ⟨rfl, rfl⟩)
    -- No message is of a task that was not there.
    have hunhandled : s.Unhandled s.tasks.length := by
      intro m message hmessage htask
      obtain ⟨task', hget, _⟩ := h.messages m message hmessage
      simp [htask] at hget
    refine Sound.performRequest ?_ hnew rfl rfl KVStore.get_set_self hunhandled
    constructor
    case fair => exact h.fair
    case messages =>
      intro m message hmessage
      obtain ⟨task', hget, hrest⟩ := h.messages m message hmessage
      exact ⟨task', hold hget, hrest⟩
    case tasks =>
      intro t' task' hget
      rcases getElem?_concat.mp hget with hget' | ⟨rfl, rfl⟩
      case inl => exact (h.tasks t' task' hget').congr rfl
      case inr => exact .of_waiting rfl hunhandled
    case pending =>
      intro t' task' hget hdone
      rcases getElem?_concat.mp hget with hget' | ⟨rfl, rfl⟩
      case inl =>
        have hkey' := h.pending t' task' hget' hdone
        refine (KVStore.get_set_ne ?_).trans hkey'
        intro heq
        rw [heq, hkey] at hkey'
        cases hkey'
      case inr => exact KVStore.get_set_self
    case keys =>
      intro key t' hkey'
      rw [KVStore.get_set] at hkey'
      split_ifs at hkey' with heq
      case pos =>
        obtain rfl := Option.some.inj hkey'
        exact ⟨task, hnew, heq.symm⟩
      case neg =>
        obtain ⟨task', hget, hcall⟩ := h.keys key t' hkey'
        exact ⟨task', hold hget, hcall⟩
    case calls =>
      intro call' t' hmem
      rcases List.mem_cons.mp hmem with heq | hmem'
      case inl =>
        obtain ⟨rfl, rfl⟩ := Prod.mk.inj heq
        exact ⟨task, hnew, rfl⟩
      case inr =>
        obtain ⟨task', hget, hcall⟩ := h.calls call' t' hmem'
        exact ⟨task', hold hget, hcall⟩

theorem Sound.resume (h : Sound s) (t : ℕ) : Sound (s.resume t) := by
  rw [State.resume]
  split
  next task hget =>
    split
    next wait hstage =>
      split
      next token _ =>
        have hpending := h.pending t task hget (Task.isDone_waiting hstage)
        exact h.fetch hget rfl hpending ((h.tasks t task hget).waiting wait hstage)
      next => exact h
    next => exact h
  next => exact h

theorem ruled_fair (hanswer : message.answer = none) (hfair : message.Fair) (ruling : Ruling) :
    (message.ruled guarded ruling).Fair := by
  have hhandled : message.handled = false := by
    by_contra hne
    have := hfair.answered (Bool.eq_true_of_not_eq_false hne)
    rw [hanswer] at this
    cases this
  cases ruling with
  | refused refusal =>
    rw [Message.ruled]
    constructor
    case answered => exact fun _ => rfl
    case granted =>
      rintro r ⟨⟩ hok
      exact absurd hok (Bool.eq_false_iff.mp refusal.failed)
    case plain =>
      rintro r ⟨⟩ hcsrf
      exact absurd hcsrf refusal.plain
  | handled reply =>
    rw [Message.ruled]
    split_ifs with hcsrf
    case pos =>
      simp only [Bool.and_eq_true, Bool.not_eq_true'] at hcsrf
      constructor
      case answered => exact fun _ => rfl
      case granted => rintro r ⟨⟩ hok; cases hok
      case plain => rintro r ⟨⟩ _; exact ⟨hhandled, hcsrf.1.1, hcsrf.2⟩
    case neg =>
      constructor
      case answered => exact fun _ => rfl
      case granted => exact fun _ _ _ => rfl
      case plain => rintro r ⟨⟩ hcsrf'; exact absurd hcsrf' reply.plain

theorem ruled_frame (guarded : String → Bool) (message : Message) (ruling : Ruling) :
    (message.ruled guarded ruling).task = message.task ∧
      (message.ruled guarded ruling).call = message.call := by
  cases ruling with
  | refused refusal => exact ⟨rfl, rfl⟩
  | handled reply =>
    rw [Message.ruled]
    split_ifs
    case pos => exact ⟨rfl, rfl⟩
    case neg => exact ⟨rfl, rfl⟩

theorem ruled_isVerified (guarded : String → Bool) (message : Message) (ruling : Ruling) :
    (message.ruled guarded ruling).isVerified = message.isVerified := by
  cases ruling with
  | refused refusal => rfl
  | handled reply =>
    rw [Message.ruled]
    split_ifs
    case pos => rfl
    case neg => rfl

theorem Sound.serve (h : Sound s) (m : ℕ) (ruling : Ruling) : Sound (s.serve guarded m ruling) := by
  rw [State.serve]
  split
  next message hmessage =>
    split_ifs with hanswer
    case pos => exact h
    case neg =>
      have hanswer' : message.answer = none := by simpa using hanswer
      obtain ⟨htask, hcall⟩ := ruled_frame guarded message ruling
      have hfair : (message.ruled guarded ruling).Fair :=
        ruled_fair hanswer' (h.fair m message hmessage) ruling
      -- What was turned away or handled already is another message.
      have hpast : ∀ {m' : ℕ} {message' : Message}, s.messages[m']? = some message' →
          message'.answer.isSome = true →
          (s.messages.set m (message.ruled guarded ruling))[m']? = some message' := by
        intro m' message' hmessage' hsome
        rw [getElem?_set_of_some hmessage]
        split_ifs with heq
        case pos =>
          rw [heq, hmessage] at hmessage'
          obtain rfl := Option.some.inj hmessage'
          exact absurd hsome hanswer
        case neg => exact hmessage'
      have hunhandled : ∀ t : ℕ, s.Unhandled t → State.Unhandled
          { s with messages := s.messages.set m (message.ruled guarded ruling) } t := by
        intro t hall m' message' hmessage' htask'
        dsimp only at hmessage'
        rw [getElem?_set_of_some hmessage] at hmessage'
        split_ifs at hmessage' with heq
        case pos =>
          obtain rfl := Option.some.inj hmessage'
          exact absurd (hall m message hmessage (htask ▸ htask')).1 hanswer
        case neg => exact hall m' message' hmessage' htask'
      refine ⟨?fair, ?messages, ?tasks, h.pending, h.keys, h.calls⟩
      case fair =>
        intro m' message' hmessage'
        dsimp only at hmessage'
        rw [getElem?_set_of_some hmessage] at hmessage'
        split_ifs at hmessage' with heq
        case pos =>
          obtain rfl := Option.some.inj hmessage'
          exact hfair
        case neg => exact h.fair m' message' hmessage'
      case messages =>
        intro m' message' hmessage'
        dsimp only at hmessage'
        rw [getElem?_set_of_some hmessage] at hmessage'
        split_ifs at hmessage' with heq
        case pos =>
          obtain rfl := Option.some.inj hmessage'
          obtain ⟨task, hget, hcall', hlast⟩ := h.messages m message hmessage
          rw [htask, hcall, heq]
          exact ⟨task, hget, hcall', hlast.imp_right fun href => absurd href.1 hanswer⟩
        case neg => exact h.messages m' message' hmessage'
      case tasks =>
        intro t task hget
        obtain ⟨hwaiting, hsent, hserved, hrefused⟩ := h.tasks t task hget
        constructor
        case waiting => exact fun wait hstage => hunhandled t (hwaiting wait hstage)
        case sent =>
          intro m' hstage
          obtain ⟨hlast, message', hmessage', htask'⟩ := hsent m' hstage
          refine ⟨hlast, ?_⟩
          dsimp only
          rw [getElem?_set_of_some hmessage]
          split_ifs with heq
          case pos =>
            rw [heq, hmessage, Option.some.injEq] at hmessage'
            exact ⟨_, rfl, htask.trans (hmessage' ▸ htask')⟩
          case neg => exact ⟨message', hmessage', htask'⟩
        case served =>
          intro result hstage hok
          obtain ⟨m', message', hmessage', htask', hhandled⟩ := hserved result hstage hok
          have hsome := (h.fair m' message' hmessage').answered hhandled
          exact ⟨m', message', hpast hmessage' hsome, htask', hhandled⟩
        case refused => exact fun result hstage hcsrf => hunhandled t (hrefused result hstage hcsrf)
  next => exact h

theorem errorResult_csrf {r : Response} (h : (State.errorResult r).isCsrfRefusal = true) :
    r.status = 403 ∧ r.error = some csrfError := by
  simp only [ApiResult.isCsrfRefusal, State.errorResult, Bool.and_eq_true, Bool.not_false,
    decide_eq_true_eq, Option.some.injEq, true_and] at h
  refine ⟨h.1, ?_⟩
  have herror := h.2
  rw [h.1] at herror
  cases hfilter : r.error.filter (· ≠ "") with
  | none =>
    rw [hfilter] at herror
    exact absurd herror (by decide)
  | some text =>
    rw [hfilter] at herror
    rw [Option.filter_eq_some_iff] at hfilter
    exact hfilter.1.trans (congrArg some herror)

-- Everything that a task has sent was turned away once its last message was.
theorem Sound.unhandled_of_refused (h : Sound s) (hget : s.tasks[t]? = some task)
    (hlast : task.last = some m) (hmessage : s.messages[m]? = some message)
    (hrefused : message.Refused) : s.Unhandled t := by
  intro m' message' hmessage' htask
  obtain ⟨task', hget', _, hlast' | hrefused'⟩ := h.messages m' message' hmessage'
  case inl =>
    rw [htask, hget, Option.some.injEq] at hget'
    rw [← hget', hlast, Option.some.injEq] at hlast'
    rw [← hlast', hmessage, Option.some.injEq] at hmessage'
    exact hmessage' ▸ hrefused
  case inr => exact hrefused'

theorem Sound.last_of_handled (h : Sound s) (hmessage : s.messages[m]? = some message)
    (hhandled : message.handled = true) :
    ∃ task : Task, s.tasks[message.task]? = some task ∧ task.last = some m := by
  obtain ⟨task, hget, _, hlast | hrefused⟩ := h.messages m message hmessage
  case inl => exact ⟨task, hget, hlast⟩
  case inr => exact absurd hrefused.2 (by simp [hhandled])

theorem Sound.receive (h : Sound s) (t : ℕ) : Sound (s.receive t) := by
  rw [State.receive]
  split
  next task hget =>
    split
    next r hanswer =>
      obtain ⟨m, message, hstage, hmessage, hr⟩ := State.answerOf_eq_some hanswer
      obtain ⟨hlast, message', hmessage', htask⟩ := (h.tasks t task hget).sent m hstage
      obtain rfl : message = message' := Option.some.inj (hmessage.symm.trans hmessage')
      have hfair := h.fair m message hmessage
      have hopen := Task.isDone_sent hstage
      have hcsrf : r.error = some csrfError → s.Unhandled t := by
        intro herror
        refine h.unhandled_of_refused hget hlast hmessage ⟨?_, (hfair.plain r hr herror).1⟩
        rw [hr]
        rfl
      rw [State.handleResponse]
      split_ifs with h401 hretry hok
      case pos =>
        have hcleared : Sound s.clearSession := h.congr rfl rfl rfl rfl
        refine hcleared.finish hget hopen ?_ ?_
        case refine_1 => intro heq; cases heq
        case refine_2 => intro heq; cases heq
      case pos =>
        exact Sound.performRequest (h.congr rfl rfl rfl rfl) hget rfl rfl (h.pending t task hget hopen)
          (hcsrf hretry.2.2.2)
      case pos =>
        exact h.finish hget hopen
          (fun _ => ⟨m, message, hmessage, htask, hfair.granted r hr hok⟩) (fun heq => by cases heq)
      case neg =>
        refine h.finish hget hopen ?_ (fun heq => hcsrf (errorResult_csrf heq).2)
        intro heq
        cases heq
    next => exact h
  next => exact h

theorem Sound.fail (h : Sound s) (t : ℕ) (errorMessage : String) : Sound (s.fail t errorMessage) := by
  rw [State.fail]
  split
  next task hget =>
    split_ifs with hsent
    case pos =>
      have hopen : task.isDone = false := by
        rw [State.isSent] at hsent
        split at hsent
        next m hstage => exact Task.isDone_sent hstage
        next => cases hsent
      exact h.finish hget hopen (fun heq => by cases heq) (fun heq => by cases heq)
    case neg => exact h
  next => exact h

-- What concerns tokens only. Neither tasks nor messages have a part in it.
def Action.IsToken : Action → Prop
  | .request _ | .resume _ | .serve _ _ | .fail _ _ | .receive _ => False
  | _                                                          => True

theorem exec_of_isToken {a : Action} (ha : a.IsToken) :
    ∃ (csrfToken : Option Secret) (promise : Option ℕ) (fetches : List Fetch) (cookie : Option Secret),
      a.exec guarded s = { s with csrfToken, csrfFetchPromise := promise, fetches, cookie } := by
  cases a with
  | request | resume | serve | fail | receive => exact ha.elim
  | serveToken id fresh                       =>
    rw [Action.exec, State.serveToken]
    split
    next => exact ⟨_, _, _, _, rfl⟩
    next => exact ⟨_, _, _, _, rfl⟩
  | receiveToken id                           =>
    rw [Action.exec, State.receiveToken]
    split
    next => exact ⟨_, _, _, _, rfl⟩
    next => exact ⟨_, _, _, _, rfl⟩
  | failToken id emptied                      =>
    rw [Action.exec, State.failToken]
    split
    next => exact ⟨_, _, _, _, rfl⟩
    next => exact ⟨_, _, _, _, rfl⟩
    next => exact ⟨_, _, _, _, rfl⟩
  | getCsrfToken                              =>
    obtain ⟨fetches, promise, heq⟩ := getCsrfToken_eq s
    exact ⟨_, _, _, _, heq⟩
  | setCookie cookie                          => exact ⟨_, _, _, _, rfl⟩
  | clearSession                              => exact ⟨_, _, _, _, rfl⟩

theorem Sound.of_isToken (h : Sound s) {a : Action} (ha : a.IsToken) : Sound (a.exec guarded s) := by
  obtain ⟨csrfToken, promise, fetches, cookie, heq⟩ := exec_of_isToken ha
  rw [heq]
  exact h.congr rfl rfl rfl rfl

theorem Sound.exec (h : Sound s) (a : Action) : Sound (a.exec guarded s) := by
  cases a with
  | request call         => exact h.request call
  | resume t             => exact h.resume t
  | serve m ruling       => exact h.serve m ruling
  | fail t errorMessage  => exact h.fail t errorMessage
  | receive t            => exact h.receive t
  | _                    => exact h.of_isToken trivial

end Steps

theorem Start.sound (h : Start s) : Sound s := by
  obtain ⟨htasks, hmessages, hcalls, hpending⟩ := h
  constructor
  case fair => simp [hmessages]
  case messages => simp [hmessages]
  case tasks => simp [htasks]
  case pending => simp [htasks]
  case keys => simp [hpending]
  case calls => simp [hcalls]

variable {init : State → Prop} {guard : State → Action → Prop}

theorem sound_invariant (hinit : ∀ s : State, init s → Start s) :
    (system guarded init).Invariant guard Sound where
  init hi    := (hinit _ hi).sound
  step h _ e := by
    rw [show _ = _ from e]
    exact h.exec _

-- The method of a key ends at its colon.
theorem getCacheKey_inj {c c' : Call} (h : getCacheKey c = getCacheKey c') :
    c.method = c'.method ∧ c.path = c'.path := by
  have hchars := congrArg String.toList h
  simp only [getCacheKey, String.toList_append] at hchars
  have hmethod : c.method = c'.method := by
    cases hm : c.method <;> cases hm' : c'.method <;> rw [hm, hm'] at hchars <;>
      first | rfl | exact absurd hchars (by simp [Method.text])
  refine ⟨hmethod, ?_⟩
  rw [hmethod] at hchars
  exact String.toList_inj.mp (List.append_cancel_left hchars)

-- Of everything that a task sends one message at most is handled, and it is the task's own call. Who
-- is told of success has had it handled, and who is told of the CSRF check has not. Whoever calls
-- shares a task of the same method and path, of which there is one at a time.
theorem answered_as_served (h : (system guarded Start).Reachable s) :
    (∀ (m m' : ℕ) (message message' : Message), s.messages[m]? = some message →
      s.messages[m']? = some message' → message.handled = true → message'.handled = true →
      message.task = message'.task → m = m') ∧
    (∀ (t : ℕ) (task : Task) (result : ApiResult), s.tasks[t]? = some task → task.stage = .done result →
      (result.ok = true → ∃ (m : ℕ) (message : Message), s.messages[m]? = some message ∧
        message.task = t ∧ message.call = task.call ∧ message.handled = true) ∧
      (result.isCsrfRefusal = true → ∀ (m : ℕ) (message : Message), s.messages[m]? = some message →
        message.task = t → message.handled = false)) ∧
    (∀ (call : Call) (t : ℕ), (call, t) ∈ s.calls → ∃ task : Task, s.tasks[t]? = some task ∧
      task.call.method = call.method ∧ task.call.path = call.path) ∧
    ∀ (t t' : ℕ) (task task' : Task), s.tasks[t]? = some task → s.tasks[t']? = some task' →
      task.isDone = false → task'.isDone = false → task.call.method = task'.call.method →
      task.call.path = task'.call.path → t = t' := by
  have hsound : Sound s := (sound_invariant fun _ => id).holds h
  refine ⟨?once, ?told, ?shared, ?alone⟩
  case once =>
    intro m m' message message' hmessage hmessage' hhandled hhandled' htask
    obtain ⟨task, hget, hlast⟩ := hsound.last_of_handled hmessage hhandled
    obtain ⟨task', hget', hlast'⟩ := hsound.last_of_handled hmessage' hhandled'
    rw [htask, hget', Option.some.injEq] at hget
    rw [hget, hlast, Option.some.injEq] at hlast'
    exact hlast'
  case told =>
    intro t task result hget hstage
    have hfits := hsound.tasks t task hget
    constructor
    case left =>
      intro hok
      obtain ⟨m, message, hmessage, htask, hhandled⟩ := hfits.served result hstage hok
      obtain ⟨task', hget', hcall, _⟩ := hsound.messages m message hmessage
      rw [htask, hget, Option.some.injEq] at hget'
      exact ⟨m, message, hmessage, htask, hget' ▸ hcall, hhandled⟩
    case right =>
      intro hcsrf m message hmessage htask
      exact (hfits.refused result hstage hcsrf m message hmessage htask).2
  case shared =>
    intro call t hmem
    obtain ⟨task, hget, hkey⟩ := hsound.calls call t hmem
    exact ⟨task, hget, getCacheKey_inj hkey⟩
  case alone =>
    intro t t' task task' hget hget' hopen hopen' hmethod hpath
    have hkey := hsound.pending t task hget hopen
    have hkey' := hsound.pending t' task' hget' hopen'
    rw [getCacheKey, hmethod, hpath] at hkey
    exact Option.some.inj (hkey.symm.trans hkey')

def State.execs (guarded : String → Bool) (s : State) (actions : List Action) : State :=
  actions.foldl (Action.exec guarded) s

theorem run_execs : {actions : List Action} → {s : State} → (system guarded init).Run guard s →
    (∀ a ∈ actions, ∀ s : State, guard s a) →
    (system guarded init).Run guard (s.execs guarded actions)
  | [], _, h, _              => h
  | a :: actions, s, h, hall => by
    obtain ⟨ha, hall'⟩ := List.forall_mem_cons.mp hall
    have hnext : (system guarded init).Run guard (a.exec guarded s) := .step h (ha s) rfl
    have hrest := run_execs hnext hall'
    exact hrest

namespace Sample

def pay (amount : String) : Call where
  method := .post
  path   := "/api/tx"
  body   := some amount

def accepted : Reply where
  status := 200
  data   := some "done"
  plain  := by decide

def sent : List Action := [
  .request (pay "1"), .request (pay "2"), .serveToken 0 7, .receiveToken 0, .resume 0,
  .serve 0 (.handled accepted), .receive 0]

def refused : List Action := [
  .request (pay "1"), .resume 0, .serve 0 (.handled accepted), .receive 0, .serveToken 0 9,
  .receiveToken 0, .resume 0, .serve 1 (.handled accepted), .receive 0]

end Sample

theorem sample_answered_as_served : ∃ (m : ℕ) (message : Message),
    (State.execs (fun _ => true) {} Sample.sent).messages[m]? = some message ∧ message.task = 0 ∧
      message.call = Sample.pay "1" ∧ message.handled = true := by
  have hrun : (system (fun _ => true) Start).Reachable (State.execs (fun _ => true) {} Sample.sent) :=
    run_execs (.init ⟨rfl, rfl, rfl, rfl⟩) fun _ _ _ => trivial
  obtain ⟨_, htold, _⟩ := answered_as_served hrun
  exact (htold 0 ⟨Sample.pay "1", false, .done { ok := true, data := some "done" }, some 0⟩ _ rfl rfl).1 rfl

-- The second of two payments of different amounts is told of the first one's success, and never sent.
theorem joined_call_unsent :
    (Sample.pay "2", 0) ∈ (State.execs (fun _ => true) {} Sample.sent).calls ∧
    (State.execs (fun _ => true) {} Sample.sent).tasks.map (·.stage) =
      [.done { ok := true, data := some "done" }] ∧
    ∀ message ∈ (State.execs (fun _ => true) {} Sample.sent).messages, message.call ≠ Sample.pay "2" := by
  decide +kernel

def State.sentBy (s : State) (t : ℕ) : ℕ :=
  (s.messages.map (·.task)).count t

-- What a task is about to send.
def Task.due (task : Task) : ℕ :=
  match task.stage with
  | .waiting _ => 1
  | _          => 0

def Task.allowance (task : Task) : ℕ :=
  if task.isCsrfRetry then 2 else 1

structure Task.Spares (s : State) (t : ℕ) (task : Task) : Prop where
  sent     : s.sentBy t + task.due ≤ task.allowance
  mutating : task.isCsrfRetry = true → task.call.method.isMutating = true

def Sparing (s : State) : Prop :=
  ∀ (t : ℕ) (task : Task), s.tasks[t]? = some task → task.Spares s t

section Spares

theorem Task.Spares.congr (h : task.Spares s t)
    (hmessages : s'.messages.map (·.task) = s.messages.map (·.task)) : task.Spares s' t where
  sent     := by
    rw [State.sentBy, hmessages]
    exact h.sent
  mutating := h.mutating

theorem Sparing.congr (h : Sparing s) (htasks : s'.tasks = s.tasks)
    (hmessages : s'.messages.map (·.task) = s.messages.map (·.task)) : Sparing s' := by
  intro t task hget
  rw [htasks] at hget
  exact (h t task hget).congr hmessages

theorem Sparing.setTask (h : Sparing s) (hget : s.tasks[t]? = some old) (hspares : task.Spares s t) :
    Sparing (s.setTask t task) := by
  intro t' task' hget'
  change (s.tasks.set t task)[t']? = some task' at hget'
  rw [getElem?_set_of_some hget] at hget'
  split_ifs at hget' with heq
  case pos =>
    obtain rfl := Option.some.inj hget'
    rw [heq]
    exact hspares.congr rfl
  case neg => exact (h t' task' hget').congr rfl

theorem Sparing.finish (h : Sparing s) (hget : s.tasks[t]? = some task) {result : ApiResult} :
    Sparing (s.finish t task result) := by
  have hspares := h t task hget
  have hdone : Task.Spares s t { task with stage := .done result } :=
    ⟨(Nat.add_le_add_left (Nat.zero_le _) _).trans hspares.sent, hspares.mutating⟩
  exact (h.setTask hget hdone).congr rfl rfl

theorem sentBy_fetch {t' : ℕ} {token : Option Secret} :
    (s.fetch t task token).sentBy t' = s.sentBy t' + if t' = t then 1 else 0 := by
  simp only [State.sentBy, State.fetch, List.map_append, List.map_singleton, List.count_append,
    List.count_singleton, beq_iff_eq]
  simp only [eq_comm]

theorem Sparing.fetch (h : Sparing s) (hget : s.tasks[t]? = some old) {token : Option Secret}
    (hsent : s.sentBy t + 1 ≤ task.allowance)
    (hmutating : task.isCsrfRetry = true → task.call.method.isMutating = true) :
    Sparing (s.fetch t task token) := by
  intro t' task' hget'
  rw [State.fetch, getElem?_set_of_some hget] at hget'
  split_ifs at hget' with heq
  case pos =>
    obtain rfl := Option.some.inj hget'
    refine ⟨?_, hmutating⟩
    rw [sentBy_fetch, if_pos heq, heq]
    exact hsent
  case neg =>
    obtain ⟨hsent', hmutating'⟩ := h t' task' hget'
    refine ⟨?_, hmutating'⟩
    rw [sentBy_fetch, if_neg heq]
    exact hsent'

theorem Sparing.performRequest (h : Sparing s) (hget : s.tasks[t]? = some old)
    (hsent : s.sentBy t + 1 ≤ task.allowance)
    (hmutating : task.isCsrfRetry = true → task.call.method.isMutating = true) :
    Sparing (s.performRequest t task) := by
  rw [State.performRequest]
  split_ifs
  case pos =>
    obtain ⟨fetches, promise, heq⟩ := getCsrfToken_eq s
    have hspares : Task.Spares s t { task with stage := .waiting s.getCsrfToken.2 } := ⟨hsent, hmutating⟩
    rw [heq]
    exact Sparing.setTask (h.congr rfl rfl) hget (hspares.congr rfl)
  case neg => exact h.fetch hget hsent hmutating

theorem Sparing.request (h : Sparing s) (hsound : Sound s) (call : Call) : Sparing (s.request call) := by
  rw [State.request]
  split
  next => exact h.congr rfl rfl
  next =>
    extract_lets task
    have hnew : (s.tasks ++ [task])[s.tasks.length]? = some task :=
      getElem?_concat.mpr (.inr ⟨rfl, rfl⟩)
    -- No message is of a task that was not there.
    have hnone : s.sentBy s.tasks.length = 0 := by
      apply List.count_eq_zero.mpr
      intro hmem
      obtain ⟨message, hmessage, htask⟩ := List.mem_map.mp hmem
      obtain ⟨m, hget⟩ := List.mem_iff_getElem?.mp hmessage
      obtain ⟨task', hget', _⟩ := hsound.messages m message hget
      simp [htask] at hget'
    have hsent : s.sentBy s.tasks.length + 1 ≤ task.allowance := by
      rw [hnone]
      exact le_rfl
    have hfirst : task.isCsrfRetry = true → task.call.method.isMutating = true := by
      intro hretry
      cases hretry
    refine Sparing.performRequest ?_ hnew hsent hfirst
    intro t' task' hget
    rcases getElem?_concat.mp hget with hget' | ⟨rfl, rfl⟩
    case inl => exact (h t' task' hget').congr rfl
    case inr => exact ⟨hsent, hfirst⟩

theorem Sparing.resume (h : Sparing s) (t : ℕ) : Sparing (s.resume t) := by
  rw [State.resume]
  split
  next task hget =>
    split
    next wait hstage =>
      split
      next token _ =>
        obtain ⟨hsent, hmutating⟩ := h t task hget
        rw [Task.due, hstage] at hsent
        exact h.fetch hget hsent hmutating
      next => exact h
    next => exact h
  next => exact h

theorem Sparing.serve (h : Sparing s) (m : ℕ) (ruling : Ruling) : Sparing (s.serve guarded m ruling) := by
  rw [State.serve]
  split
  next message hmessage =>
    split_ifs
    case pos => exact h
    case neg =>
      refine h.congr rfl ?_
      apply List.ext_getElem?
      intro i
      simp only [List.getElem?_map]
      rw [getElem?_set_of_some hmessage]
      split_ifs with heq
      case pos =>
        rw [heq, hmessage, Option.map_some, Option.map_some, (ruled_frame guarded message ruling).1]
      case neg => rfl
  next => exact h

theorem Sparing.receive (h : Sparing s) (t : ℕ) : Sparing (s.receive t) := by
  rw [State.receive]
  split
  next task hget =>
    split
    next r hanswer =>
      rw [State.handleResponse]
      split_ifs with h401 hretry hok
      case pos =>
        have hcleared : Sparing s.clearSession := h.congr rfl rfl
        exact hcleared.finish hget
      case pos =>
        have hinvalid : Sparing s.invalidateCsrfToken := h.congr rfl rfl
        refine hinvalid.performRequest hget ?_ fun _ => hretry.2.2.1
        have hsent := (h t task hget).sent
        rw [Task.allowance, hretry.2.1] at hsent
        exact Nat.succ_le_succ ((Nat.le_add_right _ _).trans hsent)
      case pos => exact h.finish hget
      case neg => exact h.finish hget
    next => exact h
  next => exact h

theorem Sparing.fail (h : Sparing s) (t : ℕ) (errorMessage : String) : Sparing (s.fail t errorMessage) := by
  rw [State.fail]
  split
  next task hget =>
    split_ifs
    case pos => exact h.finish hget
    case neg => exact h
  next => exact h

theorem Sparing.of_isToken (h : Sparing s) {a : Action} (ha : a.IsToken) : Sparing (a.exec guarded s) := by
  obtain ⟨csrfToken, promise, fetches, cookie, heq⟩ := exec_of_isToken ha
  rw [heq]
  exact h.congr rfl rfl

theorem Sparing.exec (h : Sparing s) (hsound : Sound s) (a : Action) : Sparing (a.exec guarded s) := by
  cases a with
  | request call         => exact h.request hsound call
  | resume t             => exact h.resume t
  | serve m ruling       => exact h.serve m ruling
  | fail t errorMessage  => exact h.fail t errorMessage
  | receive t            => exact h.receive t
  | _                    => exact h.of_isToken trivial

end Spares

-- A request is sent again once at most, and only if it changes something.
theorem sent_twice_at_most (h : (system guarded Start).Reachable s) (hget : s.tasks[t]? = some task) :
    s.sentBy t ≤ 2 ∧ (task.call.method.isMutating = false → s.sentBy t ≤ 1) := by
  have hinvariant : (system guarded Start).Invariant (fun _ _ => True) fun s => Sound s ∧ Sparing s := by
    apply (sound_invariant fun _ => id).strengthen
    case hi =>
      rintro s ⟨htasks, _⟩ t task hget
      simp [htasks] at hget
    case hs =>
      intro s a s' hsound h _ e
      rw [show s' = _ from e]
      exact h.exec hsound a
  obtain ⟨hsent, hmutating⟩ := (hinvariant.holds h).2 t task hget
  have hle : s.sentBy t ≤ task.allowance := (Nat.le_add_right _ _).trans hsent
  rw [Task.allowance] at hle
  split_ifs at hle with hretry
  case pos => exact ⟨hle, fun hsafe => absurd (hmutating hretry) (by simp [hsafe])⟩
  case neg => exact ⟨hle.trans (by decide), fun _ => hle⟩

theorem sample_sent_twice_at_most : (State.execs (fun _ => true) { csrfToken := some 3, cookie := some 7 }
    Sample.refused).sentBy 0 ≤ 2 := by
  have hrun : (system (fun _ => true) Start).Reachable
      (State.execs (fun _ => true) { csrfToken := some 3, cookie := some 7 } Sample.refused) :=
    run_execs (.init ⟨rfl, rfl, rfl, rfl⟩) fun _ _ _ => trivial
  have hget : (State.execs (fun _ => true) { csrfToken := some 3, cookie := some 7 }
      Sample.refused).tasks[0]? =
      some ⟨Sample.pay "1", true, .done { ok := true, data := some "done" }, some 1⟩ := rfl
  exact (sent_twice_at_most hrun hget).1

-- The answers to the requests for a token are of the secret of the cookie.
def Fetch.IsOf (σ : Secret) (f : Fetch) : Prop :=
  f = .sent (some σ) ∨ f = .answered (some σ) σ ∨ f = .done (some σ)

-- A task that asks again has a token that it asked for after it was refused.
structure Task.Heals (s : State) (task : Task) : Prop where
  waiting : task.isCsrfRetry = true → ∀ wait : Wait, task.stage = .waiting wait →
    ∃ id : ℕ, wait = .fetch id
  sent    : task.isCsrfRetry = true → ∀ m : ℕ, task.stage = .sent m →
    ∃ message : Message, s.messages[m]? = some message ∧ message.isVerified = true
  done    : ∀ result : ApiResult, task.stage = .done result → result.isCsrfRefusal = false

structure Calm (σ : Secret) (s : State) : Prop where
  cookie  : s.cookie = some σ
  fetches : ∀ f ∈ s.fetches, f.IsOf σ
  tasks   : ∀ task ∈ s.tasks, task.Heals s

variable {σ : Secret}

section Heals

theorem Task.Heals.mono (h : task.Heals s)
    (hmessages : ∀ (m : ℕ) (message : Message), s.messages[m]? = some message →
      message.isVerified = true →
      ∃ message' : Message, s'.messages[m]? = some message' ∧ message'.isVerified = true) :
    task.Heals s' where
  waiting := h.waiting
  sent    := by
    intro hretry m hstage
    obtain ⟨message, hmessage, hverified⟩ := h.sent hretry m hstage
    exact hmessages m message hmessage hverified
  done    := h.done

theorem Calm.congr (h : Calm σ s) (hcookie : s'.cookie = s.cookie) (hfetches : s'.fetches = s.fetches)
    (htasks : s'.tasks = s.tasks) (hmessages : s'.messages = s.messages) : Calm σ s' where
  cookie  := hcookie.trans h.cookie
  fetches := hfetches ▸ h.fetches
  tasks   := by
    rw [htasks]
    intro task hmem
    apply (h.tasks task hmem).mono
    rw [hmessages]
    exact fun m message hmessage hverified => ⟨message, hmessage, hverified⟩

theorem Calm.setTask (h : Calm σ s) (t : ℕ) (hheals : task.Heals s) : Calm σ (s.setTask t task) where
  cookie  := h.cookie
  fetches := h.fetches
  tasks   := by
    intro task' hmem
    rcases List.mem_or_eq_of_mem_set hmem with hmem' | rfl
    case inl => exact (h.tasks task' hmem').mono fun m message hget hv => ⟨message, hget, hv⟩
    case inr => exact hheals.mono fun m message hget hv => ⟨message, hget, hv⟩

theorem Calm.finish (h : Calm σ s) {result : ApiResult} (hresult : result.isCsrfRefusal = false) :
    Calm σ (s.finish t task result) := by
  have hheals : Task.Heals s { task with stage := .done result } := by
    constructor
    case waiting => intro _ wait hstage; cases hstage
    case sent => intro _ m hstage; cases hstage
    case done => intro result' hstage; cases hstage; exact hresult
  exact (h.setTask t hheals).congr rfl rfl rfl rfl

theorem Calm.fetch (h : Calm σ s) {token : Option Secret}
    (htoken : task.isCsrfRetry = true → token = some σ) : Calm σ (s.fetch t task token) where
  cookie  := h.cookie
  fetches := h.fetches
  tasks   := by
    intro task' hmem
    rcases List.mem_or_eq_of_mem_set hmem with hmem' | rfl
    case inl =>
      apply (h.tasks task' hmem').mono
      exact fun m message hget hv => ⟨message, getElem?_concat.mpr (.inl hget), hv⟩
    case inr =>
      constructor
      case waiting => intro _ wait hstage; cases hstage
      case sent =>
        intro hretry m hstage
        cases hstage
        refine ⟨_, getElem?_concat.mpr (.inr ⟨rfl, rfl⟩), ?_⟩
        simp [Message.isVerified, htoken hretry, h.cookie]
      case done => intro result hstage; cases hstage

theorem Calm.getCsrfToken (h : Calm σ s) : Calm σ s.getCsrfToken.1 := by
  rw [State.getCsrfToken]
  split
  next => exact h
  next =>
    split
    next => exact h
    next =>
      refine ⟨h.cookie, ?_, fun task hmem => (h.tasks task hmem).mono ?_⟩
      case refine_1 =>
        intro f hmem
        rcases List.mem_append.mp hmem with hmem' | hmem'
        case inl => exact h.fetches f hmem'
        case inr =>
          rw [List.mem_singleton.mp hmem', h.cookie]
          exact .inl rfl
      case refine_2 => exact fun m message hget hv => ⟨message, hget, hv⟩

-- Without a token that is known it is asked for.
theorem getCsrfToken_fetch (h : s.csrfToken = none) : ∃ id : ℕ, s.getCsrfToken.2 = .fetch id := by
  rw [State.getCsrfToken, h]
  dsimp only
  split
  next id _ => exact ⟨id, rfl⟩
  next => exact ⟨_, rfl⟩

theorem Calm.performRequest (h : Calm σ s)
    (hretry : task.isCsrfRetry = true → task.call.method.isMutating = true ∧ s.csrfToken = none) :
    Calm σ (s.performRequest t task) := by
  rw [State.performRequest]
  split_ifs with hmutating
  case pos =>
    apply h.getCsrfToken.setTask
    constructor
    case waiting =>
      intro hretry' wait hstage
      cases hstage
      exact getCsrfToken_fetch (hretry hretry').2
    case sent => intro _ m hstage; cases hstage
    case done => intro result hstage; cases hstage
  case neg => exact h.fetch fun hretry' => absurd (hretry hretry').1 hmutating

theorem Calm.request (h : Calm σ s) (call : Call) : Calm σ (s.request call) := by
  rw [State.request]
  split
  next => exact h.congr rfl rfl rfl rfl
  next =>
    refine Calm.performRequest ⟨h.cookie, h.fetches, ?_⟩ (fun hretry => by cases hretry)
    intro task hmem
    rcases List.mem_append.mp hmem with hmem' | hmem'
    case inl => exact (h.tasks task hmem').mono fun m message hget hv => ⟨message, hget, hv⟩
    case inr =>
      rw [List.mem_singleton.mp hmem']
      constructor
      case waiting => intro hretry; cases hretry
      case sent => intro hretry; cases hretry
      case done => intro result hstage; cases hstage

theorem Calm.resume (h : Calm σ s) (t : ℕ) : Calm σ (s.resume t) := by
  rw [State.resume]
  split
  next task hget =>
    split
    next wait hstage =>
      split
      next token htoken =>
        apply h.fetch
        intro hretry
        obtain ⟨id, rfl⟩ := (h.tasks task (List.mem_of_getElem? hget)).waiting hretry wait hstage
        rw [State.tokenOf] at htoken
        split at htoken
        next token' hfetch =>
          obtain rfl := Option.some.inj htoken
          have hof := h.fetches _ (List.mem_of_getElem? hfetch)
          simpa [Fetch.IsOf] using hof
        next => cases htoken
      next => exact h
    next => exact h
  next => exact h

theorem Calm.serve (h : Calm σ s) (m : ℕ) (ruling : Ruling) : Calm σ (s.serve guarded m ruling) := by
  rw [State.serve]
  split
  next message hmessage =>
    split_ifs
    case pos => exact h
    case neg =>
      refine ⟨h.cookie, h.fetches, fun task hmem => (h.tasks task hmem).mono ?_⟩
      intro m' message' hmessage' hverified
      dsimp only
      rw [getElem?_set_of_some hmessage]
      split_ifs with heq
      case pos =>
        rw [heq, hmessage, Option.some.injEq] at hmessage'
        refine ⟨_, rfl, ?_⟩
        rw [← hverified, ← hmessage']
        exact ruled_isVerified guarded message ruling
      case neg => exact ⟨message', hmessage', hverified⟩
  next => exact h

theorem Calm.receive (h : Calm σ s) (hsound : Sound s) (t : ℕ) : Calm σ (s.receive t) := by
  rw [State.receive]
  split
  next task hget =>
    split
    next r hanswer =>
      rw [State.handleResponse]
      split_ifs with h401 hretry hok
      case pos =>
        have hcleared : Calm σ s.clearSession := h.congr rfl rfl rfl rfl
        exact hcleared.finish rfl
      case pos =>
        have hinvalid : Calm σ s.invalidateCsrfToken := h.congr rfl rfl rfl rfl
        exact hinvalid.performRequest fun _ => ⟨hretry.2.2.1, rfl⟩
      case pos => exact h.finish rfl
      case neg =>
        apply h.finish
        by_contra hne
        obtain ⟨hstatus, herror⟩ := errorResult_csrf (Bool.eq_true_of_not_eq_false hne)
        obtain ⟨m, message, hstage, hmessage, hr⟩ := State.answerOf_eq_some hanswer
        obtain ⟨_, hmutating, hunverified⟩ := (hsound.fair m message hmessage).plain r hr herror
        obtain ⟨_, message', hmessage', htask⟩ := (hsound.tasks t task hget).sent m hstage
        obtain rfl : message = message' := Option.some.inj (hmessage.symm.trans hmessage')
        obtain ⟨task', hget', hcall, _⟩ := hsound.messages m message hmessage
        rw [htask, hget, Option.some.injEq] at hget'
        -- It would have been asked again, unless it was before.
        have hagain : task.isCsrfRetry = true := by
          by_contra hfirst
          rw [hcall, ← hget'] at hmutating
          exact hretry ⟨hstatus, Bool.eq_false_of_not_eq_true hfirst, hmutating, herror⟩
        obtain ⟨message', hmessage', hverified⟩ :=
          (h.tasks task (List.mem_of_getElem? hget)).sent hagain m hstage
        rw [hmessage, Option.some.injEq] at hmessage'
        rw [← hmessage', hunverified] at hverified
        cases hverified
    next => exact h
  next => exact h

theorem Calm.fail (h : Calm σ s) (t : ℕ) (errorMessage : String) : Calm σ (s.fail t errorMessage) := by
  rw [State.fail]
  split
  next =>
    split_ifs
    case pos => exact h.finish rfl
    case neg => exact h
  next => exact h

theorem Calm.setFetch (h : Calm σ s) {id : ℕ} {f : Fetch} (hf : f.IsOf σ) :
    Calm σ { s with fetches := s.fetches.set id f } where
  cookie  := h.cookie
  fetches := by
    intro f' hmem
    rcases List.mem_or_eq_of_mem_set hmem with hmem' | rfl
    case inl => exact h.fetches f' hmem'
    case inr => exact hf
  tasks   := fun task hmem =>
    (h.tasks task hmem).mono fun m message hget hv => ⟨message, hget, hv⟩

theorem Calm.serveToken (h : Calm σ s) (id : ℕ) (fresh : Secret) : Calm σ (s.serveToken id fresh) := by
  rw [State.serveToken]
  split
  next cookie hfetch =>
    have hof := h.fetches _ (List.mem_of_getElem? hfetch)
    obtain rfl : cookie = some σ := by simpa [Fetch.IsOf] using hof
    exact h.setFetch (.inr (.inl rfl))
  next => exact h

theorem Calm.receiveToken (h : Calm σ s) (id : ℕ) : Calm σ (s.receiveToken id) := by
  rw [State.receiveToken]
  split
  next cookie token hfetch =>
    have hof := h.fetches _ (List.mem_of_getElem? hfetch)
    obtain ⟨rfl, rfl⟩ : cookie = some σ ∧ token = σ := by simpa [Fetch.IsOf] using hof
    exact (h.setFetch (.inr (.inr rfl))).congr rfl rfl rfl rfl
  next => exact h

end Heals

-- The cookie stays, and the requests for tokens get through.
def Undisturbed (_ : State) : Action → Prop
  | .setCookie _ | .failToken _ _ => False
  | _                             => True

theorem Calm.exec {a : Action} (h : Calm σ s) (hsound : Sound s) (ha : Undisturbed s a) :
    Calm σ (a.exec guarded s) := by
  cases a with
  | request call         => exact h.request call
  | resume t             => exact h.resume t
  | serve m ruling       => exact h.serve m ruling
  | fail t errorMessage  => exact h.fail t errorMessage
  | receive t            => exact h.receive hsound t
  | serveToken id fresh  => exact h.serveToken id fresh
  | receiveToken id      => exact h.receiveToken id
  | failToken            => exact ha.elim
  | getCsrfToken         => exact h.getCsrfToken
  | setCookie            => exact ha.elim
  | clearSession         => exact h.congr rfl rfl rfl rfl

-- The browser has a cookie already. The token that the page knows may be of another one.
def Known (σ : Secret) (s : State) : Prop :=
  Start s ∧ s.cookie = some σ ∧ s.fetches = []

theorem calm_invariant (guarded : String → Bool) (σ : Secret) :
    (system guarded (Known σ)).Invariant Undisturbed fun s => Sound s ∧ Calm σ s := by
  apply (sound_invariant fun _ hknown => hknown.1).strengthen
  case hi =>
    rintro s ⟨⟨htasks, _⟩, hcookie, hfetches⟩
    exact ⟨hcookie, by simp [hfetches], by simp [htasks]⟩
  case hs =>
    intro s a s' hsound h ha e
    rw [show s' = _ from e]
    exact h.exec hsound ha

-- Nobody is told of the CSRF check: who is refused for an old token has a good one when it asks again.
theorem refusals_heal (h : (system guarded (Known σ)).Run Undisturbed s) (hget : s.tasks[t]? = some task)
    {result : ApiResult} (hstage : task.stage = .done result) : result.isCsrfRefusal = false :=
  (((calm_invariant guarded σ).holds h).2.tasks task (List.mem_of_getElem? hget)).done result hstage

theorem sample_refusals_heal :
    (State.execs (fun _ => true) { csrfToken := some 3, cookie := some 7 }
      Sample.refused).messages.map (·.handled) = [false, true] ∧
    ∀ result : ApiResult, ((State.execs (fun _ => true) { csrfToken := some 3, cookie := some 7 }
      Sample.refused).tasks.map (·.stage))[0]? = some (.done result) → result.isCsrfRefusal = false := by
  have hrun : (system (fun _ => true) (Known 7)).Run Undisturbed
      (State.execs (fun _ => true) { csrfToken := some 3, cookie := some 7 } Sample.refused) := by
    refine run_execs (.init ⟨⟨rfl, rfl, rfl, rfl⟩, rfl, rfl⟩) ?_
    intro a hmem s
    fin_cases hmem <;> trivial
  refine ⟨by decide +kernel, ?_⟩
  intro result hresult
  rw [List.getElem?_map, Option.map_eq_some_iff] at hresult
  obtain ⟨task, hget, hstage⟩ := hresult
  exact refusals_heal hrun hget hstage

end Frontend.Api
