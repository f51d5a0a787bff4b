import MallChain.Lib.Interleaving
import MallChain.Lib.KVStore
import MallChain.Sdk.Json

namespace Idempotency

open Sdk Interleaving

inductive Status
  | pending
  | success
  | failed
  deriving DecidableEq, Repr

structure IdempotencyKey where
  status : Status := .pending
  result : JsonObject := []
  error  : Option String := none
  deriving DecidableEq, Repr

-- What a handler answers, with the fields of the body besides `ok` and `error`.
structure Response where
  statusCode : ℕ := 200
  ok         : Bool
  error      : Option String := none
  fields     : JsonObject := []
  deriving DecidableEq, Repr

inductive Reply
  | missingKey
  | processing
  | replayed (ok : Bool) (error : Option String) (data : JsonObject)
  | answered (response : Response)
  deriving DecidableEq, Repr

-- Who sends a request to which endpoint, and the key that is looked at.
structure Sender where
  caller         : String
  endpoint       : String
  idempotencyKey : Option String
  deriving DecidableEq, Repr

inductive Event
  | received (sender : Sender)
  | reserved (sender : Sender)
  | ran (sender : Sender)
  | replied (sender : Sender) (reply : Reply)
  deriving DecidableEq, Repr

-- The collection, and what happened so far, the latest first.
structure World where
  keys   : KVStore String IdempotencyKey := .empty
  events : List Event := []

def World.record (e : Event) (w : World) : World :=
  { w with events := e :: w.events }

-- How a value is cast into the types of the schema, where that is not by its constructor.
structure Casts where
  numberText  : JsonNumber → String
  parseNumber : String → Option JsonNumber

-- The request with the answer of the guarded handler, and whether the steps on the collection fail.
structure Request where
  method      : String := "POST"
  header      : Option String
  caller      : String
  endpoint    : String
  response    : Response
  findFails   : Bool := false
  createFails : Bool := false
  raceFails   : Bool := false
  updateFails : Bool := false
  deriving DecidableEq, Repr

inductive Label
  | write
  -- the record of a key is looked up
  | finding (key : String) (sender : Sender)
  | reserving (sender : Sender)
  | running (sender : Sender)
  | recording (key : String) (response : Response)
  -- a step that fails before the handler is run
  | failing

abbrev Handler := Prog Label World

variable (casts : Casts)

-- The nested schema has a text, a number and a mixed field, and drops all others.
def castField (name : String) (value : Json) : Option (Option Json) :=
  if name = "txHash" then
    match value with
    | .number n => some (some (.string (casts.numberText n)))
    | .other    => none
    | value     => some (some value)
  else if name = "balance" then
    match value with
    | .string s => (casts.parseNumber s).map fun n => some (.number n)
    | .other    => none
    | value     => some (some value)
  else if name = "transfer" then some (some value)
  else some none

def castResult : JsonObject → Option JsonObject
  | []                    => some []
  | (name, value) :: rest => do
    let cast ← castField casts name value
    let rest ← castResult rest
    return cast.elim rest fun value => (name, value) :: rest

-- The update after the response. It fails if the response cannot be cast.
def Response.recorded (response : Response) : Option IdempotencyKey :=
  if response.ok then (castResult casts response.fields).map fun result =>
    { status := .success, result, error := none }
  else some { status := .failed, result := [], error := response.error }

def replay (existing : IdempotencyKey) : Reply :=
  match existing.status with
  | .success => .replayed true none existing.result
  | .failed  =>
    .replayed false
      (some (if existing.error.getD "" = "" then "Previous request failed" else existing.error.getD "")) []
  | .pending => .processing

def Request.key (req : Request) : Option String :=
  if req.method ∈ ["POST", "PUT", "PATCH"] then req.header.filter (· ≠ "") else none

def Request.sender (req : Request) : Sender where
  caller         := req.caller
  endpoint       := req.endpoint
  idempotencyKey := req.key

def reply (req : Request) (reply : Reply) : Handler Unit :=
  .write .write (·.record (.replied req.sender reply))

-- The handler behind the middleware.
def next (req : Request) : Handler Unit := do
  .write (.running req.sender) (·.record (.ran req.sender))
  reply req (.answered req.response)

-- The handler with the response intercepted.
def nextRecorded (req : Request) (key : String) : Handler Unit := do
  next req
  if req.updateFails then
    .skip .write
  else
    match req.response.recorded casts with
    | none          => .skip .write
    | some recorded =>
      .write (.recording key req.response) fun w =>
        if (w.keys.get key).isSome then { w with keys := w.keys.set key recorded } else w

-- The unique index on the keys lets one request create the record.
def create (sender : Sender) (key : String) (w : World) : World :=
  if (w.keys.get key).isNone then
    ({ w with keys := w.keys.set key {} } : World).record (.reserved sender)
  else w

def idempotency (required : Bool) (req : Request) : Handler Unit := do
  .write .write (·.record (.received req.sender))
  match req.key with
  | none     =>
    if required ∧ req.method ∈ ["POST", "PUT", "PATCH"] then reply req .missingKey
    else next req
  | some key =>
    if req.findFails then
      .skip .failing
      next req
    else
      match ← .read (.finding key req.sender) (·.keys.get key) with
      | some existing => reply req (replay existing)
      | none          =>
        if req.createFails then
          .skip .failing
          next req
        else if ← .act (.reserving req.sender) (create req.sender key) fun w => (w.keys.get key).isNone then
          nextRecorded casts req key
        else if req.raceFails then
          .skip .failing
          next req
        else
          let existing ← .read (.finding key req.sender) (·.keys.get key)
          reply req (existing.elim .processing replay)

def idempotencySystem (required : Bool) : TransitionSystem (Pool Label World) (Action Request) :=
  system (fun w => w.keys = .empty ∧ w.events = []) (idempotency casts required)

def Event.sender : Event → Sender
  | .received sender | .reserved sender | .ran sender | .replied sender _ => sender

def Event.isReply : Event → Bool
  | .replied _ _ => true
  | _            => false

namespace World

variable (key : String) (w : World)

-- How often the handler was run for a key.
def runs : ℕ :=
  w.events.countP fun | .ran sender => sender.idempotencyKey = some key | _ => false

def requests : ℕ :=
  w.events.countP fun | .received sender => sender.idempotencyKey = some key | _ => false

def replies : ℕ :=
  w.events.countP fun e => e.isReply && e.sender.idempotencyKey = some key

end World

-- The outcome and the payload of the first response.
structure Response.CarriedBy (response : Response) (ok : Bool) (error : Option String)
    (data : JsonObject) : Prop where
  outcome : decide (response.statusCode < 400) = ok
  ok      : response.ok = ok
  error   : response.error = error
  data    : response.fields = data

-- What a reply says about the sender.
def Reply.Justified (w : World) (sender : Sender) : Reply → Prop
  | .missingKey             => sender.idempotencyKey = none
  | .processing             => .reserved sender ∈ w.events
  | .replayed ok error data => .reserved sender ∈ w.events ∧ ∃ first : Response,
    .replied sender (.answered first) ∈ w.events ∧ first.CarriedBy ok error data
  | .answered _             => .ran sender ∈ w.events

-- The record of a response keeps what the response says.
def Response.kept (response : Response) : Bool :=
  if response.ok then
    response.statusCode < 400 ∧ response.error = none ∧
      castResult casts response.fields = some response.fields
  else response.statusCode ≥ 400 ∧ response.error.getD "" ≠ "" ∧ response.fields = []

-- No step fails before a handler, a key is used by one sender, and what is recorded is kept.
def keyGuard : Label → World → Prop
  | .finding key sender, w    => (w.keys.get key).isSome → .reserved sender ∈ w.events
  | .recording _ response, _  => response.kept casts
  | .failing, _               => False
  | _, _                      => True

-- A program owns the run that it has reserved, and the reply that it owes.
structure Once (key : String) (w : World) (owned : ℕ × ℕ) : Prop where
  runs     : w.runs key + owned.1 ≤ if (w.keys.get key).isSome then 1 else 0
  replies  : w.requests key = w.replies key + owned.2
  reserved : ∀ {sender}, .reserved sender ∈ w.events → sender.idempotencyKey = some key →
    (w.keys.get key).isSome
  unique   : ∀ {sender sender'}, .reserved sender ∈ w.events → .reserved sender' ∈ w.events →
    sender.idempotencyKey = some key → sender'.idempotencyKey = some key → sender = sender'
  recorded : ∀ {existing}, w.keys.get key = some existing → existing.status = .pending ∨
    ∃ sender ok error data, sender.idempotencyKey = some key ∧
      replay existing = .replayed ok error data ∧ (Reply.replayed ok error data).Justified w sender
  answers  : ∀ {sender reply}, .replied sender reply ∈ w.events →
    sender.idempotencyKey = some key → reply.Justified w sender

structure Later (key : String) (w w' : World) : Prop where
  events : ∀ e ∈ w.events, e ∈ w'.events
  stored : (w.keys.get key).isSome → (w'.keys.get key).isSome

theorem Later.refl (key : String) (w : World) : Later key w w :=
  ⟨fun _ h => h, fun h => h⟩

theorem Later.trans {key : String} {w₁ w₂ w₃ : World} (h : Later key w₁ w₂) (h' : Later key w₂ w₃) :
    Later key w₁ w₃ :=
  ⟨fun e he => h'.events e (h.events e he), fun hs => h'.stored (h.stored hs)⟩

def keyContract (key : String) : Contract Label World (ℕ × ℕ) where
  invariant := Once key
  grows     := Later key
  guard     := keyGuard casts
  refl      := Later.refl key
  trans     := Later.trans

variable {casts} {key : String} {w w' : World} {sender : Sender} {e : Event} {owned : ℕ × ℕ}

theorem Later.of_record (key : String) : Later key w (w.record e) :=
  ⟨fun _ he => List.mem_cons_of_mem _ he, fun h => h⟩

theorem Later.justified {reply : Reply} (hl : Later key w w') (h : reply.Justified w sender) :
    reply.Justified w' sender := by
  cases reply with
  | missingKey => exact h
  | processing => exact hl.events _ h
  | replayed ok error data =>
    obtain ⟨hr, first, hf, hc⟩ := h
    exact ⟨hl.events _ hr, first, hl.events _ hf, hc⟩
  | answered response => exact hl.events _ h

namespace Once

-- The record of a key has a justified reply to the one who reserved it.
theorem replay_justified {existing : IdempotencyKey} (h : Once key w owned)
    (he : w.keys.get key = some existing) (hr : .reserved sender ∈ w.events)
    (hk : sender.idempotencyKey = some key) : (replay existing).Justified w sender := by
  cases h.recorded he with
  | inl hp =>
    rw [replay, hp]
    exact hr
  | inr hd =>
    obtain ⟨sender', ok, error, data, hk', hreplay, hj⟩ := hd
    cases h.unique hr hj.1 hk hk'
    rw [hreplay]
    exact hj

-- An event that reserves nothing.
theorem record {owned' : ℕ × ℕ} (h : Once key w owned)
    (hruns : (w.record e).runs key + owned'.1 ≤ w.runs key + owned.1)
    (hreplies : (w.record e).requests key = (w.record e).replies key + owned'.2)
    (hreserved : ∀ s, e = .reserved s → s.idempotencyKey ≠ some key)
    (hanswer : ∀ s reply, e = .replied s reply → s.idempotencyKey = some key → reply.Justified w s) :
    Once key (w.record e) owned' where
  runs     := hruns.trans h.runs
  replies  := hreplies
  reserved := by
    intro sender hm hs
    refine h.reserved ((List.mem_cons.mp hm).resolve_left ?_) hs
    exact fun heq => hreserved sender heq.symm hs
  unique   := by
    intro sender sender' hm hm' hs hs'
    refine h.unique ((List.mem_cons.mp hm).resolve_left ?_) ((List.mem_cons.mp hm').resolve_left ?_) hs hs'
    case refine_1 => exact fun heq => hreserved sender heq.symm hs
    case refine_2 => exact fun heq => hreserved sender' heq.symm hs'
  recorded := by
    intro existing he
    refine (h.recorded he).imp_right ?_
    intro hd
    obtain ⟨sender, ok, error, data, hs, hreplay, hj⟩ := hd
    exact ⟨sender, ok, error, data, hs, hreplay, (Later.of_record key).justified hj⟩
  answers  := by
    intro sender reply hm hs
    apply (Later.of_record key).justified
    cases List.mem_cons.mp hm with
    | inl heq => exact hanswer sender reply heq.symm hs
    | inr hm  => exact h.answers hm hs

-- An event of a request with another key.
theorem other (h : Once key w owned) (hk : e.sender.idempotencyKey ≠ some key) :
    Once key (w.record e) owned := by
  apply h.record
  case hruns =>
    apply le_of_eq
    cases e <;> simp_all [World.runs, World.record, Event.sender]
  case hreplies =>
    have hq := h.replies
    cases e <;> simp_all [World.requests, World.replies, World.record, Event.sender, Event.isReply]
  case hreserved =>
    intro s he
    subst he
    exact hk
  case hanswer =>
    intro s reply he hs
    subst he
    exact absurd hs hk

theorem received (h : Once key w owned) (hk : sender.idempotencyKey = some key) :
    Once key (w.record (.received sender)) (owned + (0, 1)) := by
  apply h.record
  case hruns => simp [World.runs, World.record]
  case hreplies =>
    have hq := h.replies
    simp only [World.requests, World.replies] at hq
    simp [World.requests, World.replies, World.record, Event.isReply, hk, hq, add_assoc]
  case hreserved =>
    intro s he
    cases he
  case hanswer =>
    intro s reply he
    cases he

theorem ran (h : Once key w (owned + (1, 0))) (hk : sender.idempotencyKey = some key) :
    Once key (w.record (.ran sender)) owned := by
  apply h.record
  case hruns =>
    simp only [World.runs, World.record, Prod.fst_add]
    rw [List.countP_cons_of_pos (by simpa using hk)]
    omega
  case hreplies =>
    have hq := h.replies
    simpa [World.requests, World.replies, World.record, Event.isReply] using hq
  case hreserved =>
    intro s he
    cases he
  case hanswer =>
    intro s reply he
    cases he

theorem replied {reply : Reply} (h : Once key w (owned + (0, 1))) (hk : sender.idempotencyKey = some key)
    (hj : reply.Justified w sender) : Once key (w.record (.replied sender reply)) owned := by
  apply h.record
  case hruns => simp [World.runs, World.record]
  case hreplies =>
    have hq := h.replies
    simp only [World.requests, World.replies] at hq
    simp [World.requests, World.replies, World.record, Event.isReply, Event.sender, hk, hq]
    omega
  case hreserved =>
    intro s he
    cases he
  case hanswer =>
    intro s r he _
    cases he
    exact hj

-- The record of another key.
theorem set_other {key' : String} {existing : IdempotencyKey} (h : Once key w owned) (hk : key ≠ key') :
    Once key { w with keys := w.keys.set key' existing } owned where
  runs     := by
    rw [KVStore.get_set_ne hk]
    exact h.runs
  replies  := h.replies
  reserved := by
    rw [KVStore.get_set_ne hk]
    exact h.reserved
  unique   := h.unique
  recorded := by
    rw [KVStore.get_set_ne hk]
    exact h.recorded
  answers  := h.answers

theorem reserve (h : Once key w owned) (hn : w.keys.get key = none) :
    Once key (create sender key w) (owned + (1, 0)) := by
  have hruns := h.runs
  simp only [hn, Option.isSome_none, Bool.false_eq_true, if_false] at hruns
  have hnone : ∀ {s : Sender}, .reserved s ∈ w.events → s.idempotencyKey ≠ some key := by
    intro s hm hs
    have hsome := h.reserved hm hs
    rw [hn] at hsome
    cases hsome
  rw [create, hn, if_pos Option.isNone_none]
  constructor
  case runs =>
    simp only [World.runs] at hruns
    simp [World.runs, World.record]
    omega
  case replies =>
    have hq := h.replies
    simpa [World.requests, World.replies, World.record, Event.isReply] using hq
  case reserved =>
    intro s _ _
    simp [World.record]
  case unique =>
    intro s s' hm hm' hs hs'
    cases List.mem_cons.mp hm with
    | inr hm  => exact absurd hs (hnone hm)
    | inl heq =>
      cases List.mem_cons.mp hm' with
      | inr hm'  => exact absurd hs' (hnone hm')
      | inl heq' => exact (Event.reserved.inj heq).trans (Event.reserved.inj heq').symm
  case recorded =>
    intro existing he
    simp only [World.record, KVStore.get_set_self, Option.some.injEq] at he
    subst he
    exact .inl rfl
  case answers =>
    intro s reply hm hs
    have hm := (List.mem_cons.mp hm).resolve_left (by simp)
    have hl : Later key w { events := .reserved sender :: w.events, keys := w.keys.set key {} } :=
      ⟨fun _ he => List.mem_cons_of_mem _ he, fun _ => by simp⟩
    exact hl.justified (h.answers hm hs)

theorem recording {response : Response} {recorded : IdempotencyKey} (h : Once key w owned)
    (hr : response.recorded casts = some recorded) (hkept : response.kept casts = true)
    (hk : sender.idempotencyKey = some key) (hs : .reserved sender ∈ w.events)
    (ha : .replied sender (.answered response) ∈ w.events) :
    Once key { w with keys := w.keys.set key recorded } owned where
  runs     := by
    have hruns := h.runs
    rw [if_pos (h.reserved hs hk)] at hruns
    rw [KVStore.get_set_self, if_pos Option.isSome_some]
    exact hruns
  replies  := h.replies
  reserved := fun _ _ => by simp
  unique   := h.unique
  answers  := h.answers
  recorded := by
    intro existing he
    simp only [KVStore.get_set_self, Option.some.injEq] at he
    subst he
    right
    rw [Response.recorded] at hr
    rw [Response.kept] at hkept
    split_ifs at hr hkept with hok
    case pos =>
      simp only [Bool.decide_and, Bool.and_eq_true, decide_eq_true_eq] at hkept
      obtain ⟨hstatus, herror, hfields⟩ := hkept
      rw [hfields] at hr
      cases hr
      exact ⟨sender, true, none, response.fields, hk, rfl, hs, response, ha,
        ⟨decide_eq_true hstatus, hok, herror, rfl⟩⟩
    case neg =>
      simp only [Bool.decide_and, Bool.and_eq_true, decide_eq_true_eq] at hkept
      obtain ⟨hstatus, herror, hfields⟩ := hkept
      cases hr
      refine ⟨sender, false, response.error, [], hk, ?_, hs, response, ha,
        ⟨decide_eq_false (not_lt.mpr hstatus), Bool.eq_false_iff.mpr hok, rfl, hfields⟩⟩
      rw [replay]
      dsimp only
      rw [if_neg herror]
      cases hresp : response.error with
      | none   => simp [hresp] at herror
      | some e => rfl

end Once

section Handlers

variable {req : Request} {required : Bool}

theorem Later.set (key' : String) (existing : IdempotencyKey) :
    Later key w { w with keys := w.keys.set key' existing } := by
  refine ⟨fun _ he => he, fun hs => ?_⟩
  rw [KVStore.get_set]
  split_ifs
  case pos => rfl
  case neg => exact hs

theorem Later.create (key' : String) : Later key w (create sender key' w) := by
  rw [Idempotency.create]
  split_ifs
  case neg => exact .refl key w
  case pos => exact (Later.set key' {}).trans (Later.of_record key)

theorem create_events (hn : w.keys.get key = none) :
    .reserved sender ∈ (create sender key w).events := by
  rw [create, hn, if_pos Option.isNone_none]
  exact List.mem_cons_self

-- A program that owes a reply, and replies at last.
theorem reply_handles {r : Reply} (hk : req.key = some key) (hj : r.Justified w req.sender) :
    (keyContract casts key).Handles (reply req r) w (0, 1) := by
  apply Contract.Handles.write
  intro w₁ hl _ others h
  rw [add_comm] at h
  exact ⟨h.replied hk (hl.justified hj), .of_record key⟩

theorem nextRecorded_handles (hk : req.key = some key) (hs : .reserved req.sender ∈ w.events) :
    (keyContract casts key).Handles (nextRecorded casts req key) w ((1, 0) + (0, 1)) := by
  apply Contract.Safe.bind
  intro w₁ hl₁ others h _
  rw [add_comm, add_comm (1, 0), ← add_assoc] at h
  refine ⟨(0, 1), ?_, .of_record key, ?_⟩
  case refine_1 =>
    rw [add_comm]
    exact h.ran hk
  case refine_2 =>
    intro w₂ hl₂ others h _
    rw [add_comm] at h
    have hran : .ran req.sender ∈ w₂.events := hl₂.events _ List.mem_cons_self
    refine ⟨0, ?_, .of_record key, ?_⟩
    case refine_1 =>
      rw [zero_add]
      exact h.replied hk hran
    case refine_2 =>
      apply Contract.Safe.ite
      case hp =>
        intro _
        apply Contract.Handles.write
        intro w₃ _ _ others h
        rw [zero_add] at h
        exact ⟨h, .refl key w₃⟩
      case hq =>
        intro _
        split
        case h_1 =>
          apply Contract.Handles.write
          intro w₃ _ _ others h
          rw [zero_add] at h
          exact ⟨h, .refl key w₃⟩
        case h_2 recorded hrecorded =>
          apply Contract.Handles.write
          intro w₃ hl₃ hg others h
          rw [zero_add] at h
          split_ifs
          case neg => exact ⟨h, .refl key w₃⟩
          case pos =>
            have hs₃ : .reserved req.sender ∈ w₃.events :=
              hl₃.events _ (List.mem_cons_of_mem _ (hl₂.events _ (List.mem_cons_of_mem _ (hl₁.events _ hs))))
            exact ⟨h.recording hrecorded hg hk hs₃ (hl₃.events _ List.mem_cons_self), .set key recorded⟩

theorem idempotency_handles (hk : req.key = some key) :
    (keyContract casts key).Handles (idempotency casts required req) w 0 := by
  apply Contract.Safe.write
  intro w₁ _ _ others h
  rw [zero_add] at h
  refine ⟨(0, 1), ?_, .of_record key, ?_⟩
  case refine_1 =>
    rw [add_comm]
    exact h.received hk
  case refine_2 =>
    rw [hk]
    apply Contract.Safe.ite
    case hp =>
      intro _
      apply Contract.Safe.skip
      intro w₂ _ hg
      exact hg.elim
    case hq =>
      intro _
      apply Contract.Safe.look
      intro w₂ _ hg others h
      cases hget : w₂.keys.get key with
      | some existing =>
        have hs := hg (by rw [hget]; rfl)
        exact reply_handles hk (h.replay_justified hget hs hk)
      | none =>
        apply Contract.Safe.ite
        case hp =>
          intro _
          apply Contract.Safe.skip
          intro w₃ _ hg
          exact hg.elim
        case hq =>
          intro _
          apply Contract.Safe.act
          intro w₃ _ _ others h
          cases hget₃ : w₃.keys.get key with
          | none =>
            refine ⟨(1, 0) + (0, 1), ?_, .create key, ?_⟩
            case refine_1 =>
              rw [add_assoc, add_comm]
              exact h.reserve hget₃
            case refine_2 => exact nextRecorded_handles hk (create_events hget₃)
          | some existing =>
            have hcreate : create req.sender key w₃ = w₃ := by
              rw [create, hget₃, if_neg (by simp)]
            rw [hcreate]
            refine ⟨(0, 1), h, .refl key w₃, ?_⟩
            apply Contract.Safe.ite
            case hp =>
              intro hnone
              cases hnone
            case hq =>
              intro _
              apply Contract.Safe.ite
              case hp =>
                intro _
                apply Contract.Safe.skip
                intro w₄ _ hg
                exact hg.elim
              case hq =>
                intro _
                apply Contract.Safe.look
                intro w₄ hl₄ hg others h
                have hsome := hl₄.stored (by rw [hget₃]; rfl)
                obtain ⟨existing₄, hget₄⟩ := Option.isSome_iff_exists.mp hsome
                rw [hget₄]
                exact reply_handles hk (h.replay_justified hget₄ (hg hsome) hk)

-- A step of a request with another key.
def Keeps (key : String) (_ : Label) (update : World → World) : Prop :=
  ∀ w owned, Once key w owned → Once key (update w) owned ∧ Later key w (update w)

theorem Keeps.of_record {label : Label} (he : e.sender.idempotencyKey ≠ some key) :
    Keeps key label (·.record e) :=
  fun _ _ h => ⟨h.other he, .of_record key⟩

theorem next_steps (hk : req.key ≠ some key) : (next req).Steps (Keeps key) := by
  refine .bind (.write (Keeps.of_record hk)) fun _ => ?_
  exact .write (Keeps.of_record hk)

theorem idempotency_steps (hk : req.key ≠ some key) :
    (idempotency casts required req).Steps (Keeps key) := by
  refine .bind (.write (Keeps.of_record hk)) fun _ => ?_
  cases hkey : req.key with
  | none => exact .ite (fun _ => .write (Keeps.of_record hk)) fun _ => next_steps hk
  | some key' =>
    have hne : key ≠ key' := by
      intro heq
      rw [heq] at hk
      exact hk hkey
    have hskip : ∀ {label}, Keeps key label id := fun w _ h => ⟨h, .refl key w⟩
    refine .ite (fun _ => .bind (.skip hskip) fun _ => next_steps hk) fun _ => ?_
    refine .bind (.read hskip) fun existing => ?_
    cases existing with
    | some existing => exact .write (Keeps.of_record hk)
    | none =>
      refine .ite (fun _ => .bind (.skip hskip) fun _ => next_steps hk) fun _ => ?_
      refine .bind (.act ?create) fun created => ?_
      case create =>
        intro w owned h
        refine ⟨?_, .create key'⟩
        rw [create]
        split_ifs
        case neg => exact h
        case pos => exact (h.set_other hne).other hk
      refine .ite (fun _ => ?recorded) fun _ => ?_
      case recorded =>
        refine .bind (next_steps hk) fun _ => ?_
        refine .ite (fun _ => .skip hskip) fun _ => ?_
        split
        case h_1 => exact .skip hskip
        case h_2 recorded _ =>
          apply Prog.Steps.write
          intro w owned h
          dsimp only
          split_ifs
          case neg => exact ⟨h, .refl key w⟩
          case pos => exact ⟨h.set_other hne, .set key' recorded⟩
      refine .ite (fun _ => .bind (.skip hskip) fun _ => next_steps hk) fun _ => ?_
      exact .bind (.read hskip) fun existing => .write (Keeps.of_record hk)

theorem handles (casts : Casts) (required : Bool) (key : String) (req : Request) (w : World) :
    (keyContract casts key).Handles (idempotency casts required req) w 0 := by
  by_cases hk : req.key = some key
  case pos => exact idempotency_handles hk
  case neg =>
    apply Contract.Handles.of_steps (idempotency_steps hk)
    intro label update w owned hkeeps _ h
    exact hkeeps w owned h

end Handlers

instance : (label : Label) → (w : World) → Decidable (keyGuard casts label w)
  | .finding _ _, _   => inferInstanceAs (Decidable (_ → _))
  | .recording _ _, _ => inferInstanceAs (Decidable (_ = true))
  | .failing, _       => .isFalse fun h => h
  | .write, _ | .reserving _, _ | .running _, _ => .isTrue trivial

namespace Sample

def plainCasts : Casts where
  numberText _  := ""
  parseNumber _ := none

def credit : Request where
  header   := some "key"
  caller   := "alice"
  endpoint := "/mpesa"
  response := { ok := true, fields := [("txHash", .string "hash")] }

def finish (actions : List (Action Request)) : Pool Label World :=
  Pool.execs (idempotency plainCasts true) { store := {}, running := [] } actions

def repeated : List (Action Request) :=
  inTurn 6 [credit, credit]

-- Both look up the key before either creates it, and the second lookup of the one that comes late fails.
def racing : List (Action Request) :=
  [.start credit, .start { credit with raceFails := true }] ++ List.replicate 2 (.run 0) ++
    List.replicate 2 (.run 1) ++ List.replicate 4 (.run 0) ++ List.replicate 4 (.run 1)

end Sample

-- A handler runs at most once for a key, every other request is told that it is still processed or gets
-- the first response, and every request gets a reply.
theorem idempotent (casts : Casts) (required : Bool) (key : String) (p : Pool Label World)
    (h : (idempotencySystem casts required).Run (fun p a => p.Meets (keyGuard casts) a) p) :
    p.store.runs key ≤ 1 ∧
      (∀ sender reply, .replied sender reply ∈ p.store.events → sender.idempotencyKey = some key →
        reply.Justified p.store sender) ∧
      (p.isIdle = true → p.store.requests key = p.store.replies key) := by
  have hinv : (idempotencySystem casts required).Invariant
      (fun p a => p.Meets (keyContract casts key).guard a)
      fun p => ∃ owned, (keyContract casts key).Holds p owned :=
    Contract.invariant_of_handles ?init (handles casts required key)
  case init =>
    intro w hi
    constructor
    case runs => simp [World.runs, hi.2]
    case replies => simp [World.requests, World.replies, hi.2]
    case reserved =>
      intro sender hm
      simp [hi.2] at hm
    case unique =>
      intro sender sender' hm
      simp [hi.2] at hm
    case recorded =>
      intro existing hget
      rw [hi.1] at hget
      cases hget
    case answers =>
      intro sender reply hm
      simp [hi.2] at hm
  obtain ⟨owned, hp⟩ := hinv.holds h
  refine ⟨?_, fun _ _ => hp.invariant.answers, ?_⟩
  case refine_1 =>
    have hruns := hp.invariant.runs
    split_ifs at hruns <;> omega
  case refine_2 =>
    intro hidle
    simpa using (hp.of_isIdle hidle).replies

theorem sample_idempotent : (Sample.finish Sample.repeated).store.runs "key" ≤ 1 ∧
    (∀ sender reply, .replied sender reply ∈ (Sample.finish Sample.repeated).store.events →
      sender.idempotencyKey = some "key" →
        reply.Justified (Sample.finish Sample.repeated).store sender) ∧
    ((Sample.finish Sample.repeated).isIdle = true →
      (Sample.finish Sample.repeated).store.requests "key" =
        (Sample.finish Sample.repeated).store.replies "key") :=
  idempotent Sample.plainCasts true "key" _ (run_from ⟨rfl, rfl⟩ (by decide +kernel))

-- The request that loses the race runs the handler again.
theorem racing_requests_run_twice :
    ¬∀ (casts : Casts) (required : Bool) (key : String) (p : Pool Label World),
      (idempotencySystem casts required).Reachable p → p.store.runs key ≤ 1 := by
  intro h
  have hle := h Sample.plainCasts true "key" (Sample.finish Sample.racing) (reachable_from ⟨rfl, rfl⟩)
  have hn : ¬(Sample.finish Sample.racing).store.runs "key" ≤ 1 := by
    decide +kernel
  exact hn hle

end Idempotency
