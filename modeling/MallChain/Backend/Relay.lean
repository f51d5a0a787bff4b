import MallChain.Lib.Collection
import MallChain.Lib.Document
import MallChain.Lib.Interleaving

namespace Relay

open Interleaving

-- What the code sets a status to, and what the schema has besides.
inductive TxStatus
  | queued
  | broadcasting
  | pending
  | confirmed
  | failed
  | processing
  | completed
  | retrying
  deriving DecidableEq, Repr

namespace TxStatus

-- The `enum` of the schema.
def isAllowed : TxStatus → Bool
  | queued | broadcasting | pending | confirmed | failed => true
  | processing | completed | retrying                    => false

def name : TxStatus → String
  | queued       => "queued"
  | broadcasting => "broadcasting"
  | pending      => "pending"
  | confirmed    => "confirmed"
  | failed       => "failed"
  | processing   => "processing"
  | completed    => "completed"
  | retrying     => "retrying"

end TxStatus

structure Transaction where
  status : TxStatus := .queued
  txHash : Option String := none
  error  : Option String := none
  deriving DecidableEq, Repr

-- A job that is to be retried waits again.
inductive JobState
  | waiting
  | active
  | completed
  | failed
  deriving DecidableEq, Repr

structure Job where
  signedTx     : String
  attempts     : ℕ := 3
  attemptsMade : ℕ := 0
  state        : JobState := .waiting
  deriving DecidableEq, Repr

-- The records, the job of each, and the signed transactions that were executed on the chain.
structure World where
  txs      : KVStore String Transaction := .empty
  jobs     : KVStore String Job := .empty
  executed : List String := []

namespace World

variable (w : World)

def updateTx (txId : String) (f : Transaction → Transaction) : World :=
  { w with txs := w.txs.update txId f }

def updateJob (txId : String) (f : Job → Job) : World :=
  { w with jobs := w.jobs.update txId f }

def execute (signedTx : String) (lands : Bool) : World :=
  if lands then { w with executed := signedTx :: w.executed } else w

def hasStatus (txId : String) (status : TxStatus) : Bool :=
  (w.txs.get txId).any (·.status = status)

end World

-- `reporting` saves what the handler of a failed attempt makes of it.
inductive Label
  | step
  | posting (signedTx : String) (lands : Bool)
  | reporting (txId : String) (attemptsMade : ℕ)
  deriving DecidableEq, Repr

abbrev Handler := Prog Label World

-- A value in the body of a request.
inductive Value
  | missing
  | text (value : String)
  | number (value : ℚ)
  | other
  deriving DecidableEq, Repr

namespace Value

def isText : Value → Bool
  | text value => value ≠ ""
  | _          => false

end Value

structure CreateBody where
  sender   : Value
  receiver : Value
  amount   : Value
  signedTx : Option String
  deriving DecidableEq, Repr

def validateCreatePayload : Option CreateBody → Option String
  | none      => some "payload must be a JSON object"
  | some body =>
    if !body.sender.isText then some "from is required and must be a string"
    else match body.amount, body.signedTx with
    | .missing, _    => some "amount is required"
    | .other, _      => some "amount must be a number or numeric string"
    | _, none        => some "signedTx is required"
    | _, some _      => none

def saveTransaction (d : Document Transaction) (stored : Transaction) : Transaction where
  status := d.written (·.status) stored
  txHash := d.written (·.txHash) stored
  error  := d.written (·.error) stored

-- A status that was set has to be one of the schema, or the document is not saved.
def validate (d : Document Transaction) : Option String :=
  if d.current.status = d.loaded.status ∨ d.current.status.isAllowed then none
  else some ("Transaction validation failed: status: `" ++ d.current.status.name ++
    "` is not a valid enum value for path `status`.")

def save (label : Label) (txId : String) (d : Document Transaction) : Handler (Option String) :=
  match validate d with
  | some error => return some error
  | none       => do
    .write label (·.updateTx txId (saveTransaction d))
    return none

-- Whether a transaction that is posted executes on the chain, and what the gateway answers: an answer may
-- be lost, and one may say that the transaction was refused.
structure Gateway where
  lands    : Bool
  response : Except String (Option String)

def post (signedTx : String) (gateway : Gateway) : Handler (Except String (Option String)) :=
  .act (.posting signedTx gateway.lands) (·.execute signedTx gateway.lands) fun _ => gateway.response

-- The processor of `transactions`. The error is the one that it throws.
def process (txId : String) (job : Job) (gateway : Gateway) : Handler (Option String) := do
  match ← .read .step (·.txs.get txId) with
  | none    => return some ("Transaction record " ++ txId ++ " not found")
  | some tx =>
    let d := (Document.read tx).modify ({ · with status := .processing })
    match ← save .step txId d with
    | some error => return some error
    | none       =>
      match ← post job.signedTx gateway with
      | .error error => return some error
      | .ok txHash   =>
        save .step txId (d.saved.modify ({ · with status := .completed, txHash := txHash }))

-- The handler of the event `failed`.
def failed (txId : String) (job : Job) (error : String) : Handler Unit := do
  match ← .read .step (·.txs.get txId) with
  | none    => return
  | some tx =>
    let finalFailure := job.attemptsMade + 1 ≥ job.attempts
    let _ ← save (.reporting txId job.attemptsMade) txId ((Document.read tx).modify ({ · with
      status := if finalFailure then .failed else .retrying
      error  := some error
    }))
    return

def isWaiting (job : Job) : Bool :=
  job.state = .waiting

def moveToActive (job : Job) : Job :=
  if isWaiting job then { job with state := .active } else job

-- The attempt is counted before the event is emitted.
def moveToFailed (job : Job) : Job :=
  { job with
    attemptsMade := job.attemptsMade + 1
    state        := if job.attemptsMade + 1 ≥ job.attempts then .failed else .waiting }

-- An attempt of the queue at a job that waits.
def runJob (txId : String) (gateway : Gateway) : Handler Unit := do
  let taken ← Prog.act .step (·.updateJob txId moveToActive) fun w => (w.jobs.get txId).filter isWaiting
  match taken with
  | none     => return
  | some job =>
    match ← process txId job gateway with
    | none       => .write .step (·.updateJob txId ({ · with state := .completed }))
    | some error => do
      .write .step (·.updateJob txId moveToFailed)
      failed txId (moveToFailed job) error

-- The record has a new id, and one job.
def create (txId : String) (body : Option CreateBody) : Handler Unit := do
  match validateCreatePayload body, body.bind (·.signedTx) with
  | none, some signedTx =>
    let inserted ← Prog.act .step (fun w => { w with txs := w.txs.add txId {} })
      fun w => (w.txs.get txId).isNone
    if inserted then .write .step fun w => { w with jobs := w.jobs.add txId { signedTx := signedTx } }
    else return
  | _, _ => return

-- A signed transaction may also be broadcast by others, as `relay` does.
inductive Request
  | create (txId : String) (body : Option CreateBody)
  | runJob (txId : String) (gateway : Gateway)
  | broadcast (signedTx : String) (lands : Bool)

def Request.handler : Request → Handler Unit
  | create txId body         => Relay.create txId body
  | runJob txId gateway      => Relay.runJob txId gateway
  | broadcast signedTx lands => .write (.posting signedTx lands) (·.execute signedTx lands)

def relaySystem : TransitionSystem (Pool Label World) (Action Request) :=
  system (fun w => w.txs = .empty ∧ w.jobs = .empty) Request.handler

namespace World

variable (w : World)

-- A record that says failed of this transaction.
def reportsFailed (signedTx : String) : Bool :=
  w.jobs.entries.any fun e => e.2.signedTx = signedTx && w.hasStatus e.1 .failed

end World

-- The record of a transaction says what became of it.
structure Truthful (txId : String) (w : World) : Prop where
  completed : w.hasStatus txId .completed = true →
    ∃ job, w.jobs.get txId = some job ∧ job.signedTx ∈ w.executed
  failed    : w.hasStatus txId .failed = true →
    ∃ job, w.jobs.get txId = some job ∧ job.state = .failed ∧ job.signedTx ∉ w.executed
  retried   : ∀ job, w.jobs.get txId = some job → job.state = .waiting →
    w.hasStatus txId .failed = false

-- The handler that takes the last attempt but one for the last finds that the last one has failed too, and
-- what is reported as failed has not been executed by others and is not later.
def relayGuard : Label → World → Prop
  | .step, _ => True
  | .posting signedTx lands, w => lands = true → w.reportsFailed signedTx = false
  | .reporting txId attemptsMade, w => ∀ job ∈ w.jobs.get txId, attemptsMade + 1 ≥ job.attempts →
    job.signedTx ∉ w.executed ∧ (attemptsMade + 1 = job.attempts → job.state = .failed)

-- The attempt that is being made at a job.
def attempt : Option Job → Multiset ℕ
  | some job => if job.state = .active then {job.attemptsMade} else 0
  | none     => 0

-- A program owns the number of the attempt that it makes.
structure Reported (txId : String) (w : World) (owned : Multiset ℕ) : Prop where
  owned  : attempt (w.jobs.get txId) = owned
  stored : ∀ tx ∈ w.txs.get txId, tx.status = .queued ∨ tx.status = .failed
  failed : w.hasStatus txId .failed = true →
    ∃ job, w.jobs.get txId = some job ∧ job.state = .failed ∧ job.signedTx ∉ w.executed

-- A job stays the same job, and one that has failed is not changed.
def KeepsJob (txId : String) (w w' : World) : Prop :=
  ∀ job, w.jobs.get txId = some job → ∃ job', w'.jobs.get txId = some job' ∧
    job'.attempts = job.attempts ∧ (job.state = .failed → job' = job)

variable {txId id : String} {w w' : World} {owned : Multiset ℕ} {label : Label} {update : World → World}

theorem KeepsJob.of_eq (h : w'.jobs.get txId = w.jobs.get txId) : KeepsJob txId w w' :=
  fun job hget => ⟨job, h.trans hget, rfl, fun _ => rfl⟩

theorem KeepsJob.trans {w'' : World} (h : KeepsJob txId w w') (h' : KeepsJob txId w' w'') :
    KeepsJob txId w w'' := by
  intro job hget
  obtain ⟨job', hget', hattempts, hfailed⟩ := h job hget
  obtain ⟨job'', hget'', hattempts', hfailed'⟩ := h' job' hget'
  refine ⟨job'', hget'', hattempts'.trans hattempts, fun hstate => ?_⟩
  have heq := hfailed hstate
  rw [hfailed' (by rw [heq, hstate]), heq]

def relayContract (txId : String) : Contract Label World (Multiset ℕ) where
  invariant := Reported txId
  grows     := KeepsJob txId
  guard     := relayGuard
  refl _    := .of_eq rfl
  trans     := .trans

namespace Reported

-- A step that has no part in this record.
theorem congr (h : Reported txId w owned) (htxs : w'.txs.get txId = w.txs.get txId)
    (hjobs : w'.jobs.get txId = w.jobs.get txId) (hexecuted : w'.executed = w.executed) :
    Reported txId w' owned where
  owned  := by rw [hjobs, h.owned]
  stored := by rw [htxs]; exact h.stored
  failed := by rw [World.hasStatus, htxs, hjobs, hexecuted]; exact h.failed

theorem execute {signedTx : String} {lands : Bool} (h : Reported txId w owned)
    (hg : relayGuard (.posting signedTx lands) w) : Reported txId (w.execute signedTx lands) owned := by
  rw [World.execute]
  split_ifs with hlands
  case neg => exact h
  case pos =>
    refine { owned := h.owned, stored := h.stored, failed := fun hfailed => ?_ }
    obtain ⟨job, hget, hstate, hexecuted⟩ := h.failed hfailed
    refine ⟨job, hget, hstate, ?_⟩
    intro hmem
    rcases List.mem_cons.mp hmem with heq | hmem
    · have hn := List.any_eq_false.mp (hg hlands) (txId, job) (KVStore.mem_entries_iff.mpr hget)
      have hstatus : w.hasStatus txId .failed = true := hfailed
      exact hn (by rw [hstatus, Bool.and_true, decide_eq_true heq])
    · exact hexecuted hmem

end Reported

-- The steps of a request about one record.
inductive Effect (id : String) : Label → (World → World) → Prop
  | look {label : Label} : Effect id label fun w => w
  | addTx {label : Label} : Effect id label fun w => { w with txs := w.txs.add id {} }
  | addJob {label : Label} {job : Job} : Effect id label fun w => { w with jobs := w.jobs.add id job }
  | updateTx {label : Label} {f : Transaction → Transaction} : Effect id label (·.updateTx id f)
  | updateJob {label : Label} {f : Job → Job} : Effect id label (·.updateJob id f)
  | post {signedTx : String} {lands : Bool} :
    Effect id (.posting signedTx lands) (·.execute signedTx lands)

theorem execute_jobs {signedTx : String} {lands : Bool} : (w.execute signedTx lands).jobs = w.jobs := by
  rw [World.execute]
  split_ifs <;> rfl

theorem Effect.keeps (h : Effect id label update) (hne : txId ≠ id) :
    (relayContract txId).Keeps label update := by
  intro w owned hg hI
  cases h with
  | look => exact ⟨hI, .of_eq rfl⟩
  | post => exact ⟨hI.execute hg, .of_eq (by rw [execute_jobs])⟩
  | addTx => exact ⟨hI.congr (KVStore.get_add_ne hne) rfl rfl, .of_eq rfl⟩
  | addJob => exact ⟨hI.congr rfl (KVStore.get_add_ne hne) rfl, .of_eq (KVStore.get_add_ne hne)⟩
  | updateTx => exact ⟨hI.congr (KVStore.get_update_ne hne) rfl rfl, .of_eq rfl⟩
  | updateJob => exact ⟨hI.congr rfl (KVStore.get_update_ne hne) rfl, .of_eq (KVStore.get_update_ne hne)⟩

theorem save_steps {d : Document Transaction} : (save label id d).Steps (Effect id) := by
  rw [save]
  split
  case h_1 => trivial
  case h_2 => exact Prog.Steps.act_bind .updateTx fun _ => trivial

theorem process_steps {job : Job} {gateway : Gateway} : (process id job gateway).Steps (Effect id) := by
  apply Prog.Steps.act_bind .look
  intro w
  cases w.txs.get id with
  | none => trivial
  | some tx =>
    apply save_steps.bind
    intro error
    cases error with
    | some _ => trivial
    | none =>
      apply Prog.Steps.act_bind .post
      intro _
      cases gateway.response with
      | error _ => trivial
      | ok txHash => exact save_steps

theorem failed_steps {job : Job} {error : String} : (failed id job error).Steps (Effect id) := by
  apply Prog.Steps.act_bind .look
  intro w
  cases w.txs.get id with
  | none => trivial
  | some tx => exact save_steps.bind fun _ => trivial

theorem runJob_steps {gateway : Gateway} : (runJob id gateway).Steps (Effect id) := by
  apply Prog.Steps.act_bind .updateJob
  intro w
  cases (w.jobs.get id).filter isWaiting with
  | none => trivial
  | some job =>
    apply process_steps.bind
    intro error
    cases error with
    | none => exact .write .updateJob
    | some _ => exact Prog.Steps.act_bind .updateJob fun _ => failed_steps

theorem create_steps {body : Option CreateBody} : (create id body).Steps (Effect id) := by
  rw [create]
  split
  case h_2 => trivial
  case h_1 =>
    apply Prog.Steps.act_bind .addTx
    intro w
    exact .ite (fun _ => .write .addJob) fun _ => trivial

-- What a program has found of the job that it makes an attempt at.
def IsJob (txId : String) (attempts : ℕ) (w : World) : Prop :=
  ∃ job, w.jobs.get txId = some job ∧ job.attempts = attempts

-- After a failed attempt, the job has failed if no attempt is left.
def HasFailed (txId : String) (attempts attemptsMade : ℕ) (w : World) : Prop :=
  ∃ job, w.jobs.get txId = some job ∧ job.attempts = attempts ∧
    (attemptsMade ≥ attempts → job.state = .failed)

variable {attempts n : ℕ}

theorem IsJob.keeps (h : IsJob txId attempts w) (hk : KeepsJob txId w w') : IsJob txId attempts w' := by
  obtain ⟨job, hget, hattempts⟩ := h
  obtain ⟨job', hget', hattempts', _⟩ := hk job hget
  exact ⟨job', hget', hattempts'.trans hattempts⟩

theorem HasFailed.keeps (h : HasFailed txId attempts n w) (hk : KeepsJob txId w w') :
    HasFailed txId attempts n w' := by
  obtain ⟨job, hget, hattempts, hfailed⟩ := h
  obtain ⟨job', hget', hattempts', hsame⟩ := hk job hget
  refine ⟨job', hget', hattempts'.trans hattempts, fun hn => ?_⟩
  rw [hsame (hfailed hn), hfailed hn]

namespace Reported

theorem hasStatus_eq_true {status : TxStatus} :
    w.hasStatus txId status = true ↔ ∃ tx, w.txs.get txId = some tx ∧ tx.status = status := by
  rw [World.hasStatus, Option.any_eq_true]
  simp

theorem addTx (h : Reported txId w owned) :
    Reported txId { w with txs := w.txs.add txId {} } owned where
  owned  := h.owned
  stored := by
    intro tx htx
    rw [KVStore.get_add, if_pos rfl] at htx
    cases hget : w.txs.get txId with
    | none =>
      rw [hget] at htx
      cases htx
      exact .inl rfl
    | some tx₀ =>
      rw [hget] at htx
      cases htx
      exact h.stored _ hget
  failed := by
    intro hfailed
    apply h.failed
    obtain ⟨tx, htx, hstatus⟩ := hasStatus_eq_true.mp hfailed
    rw [KVStore.get_add, if_pos rfl] at htx
    cases hget : w.txs.get txId with
    | none =>
      rw [hget] at htx
      cases htx
      cases hstatus
    | some tx₀ =>
      rw [hget] at htx
      cases htx
      exact hasStatus_eq_true.mpr ⟨_, hget, hstatus⟩

theorem addJob {signedTx : String} (h : Reported txId w owned) :
    Reported txId { w with jobs := w.jobs.add txId { signedTx := signedTx } } owned where
  owned  := by
    rw [KVStore.get_add, if_pos rfl]
    cases hget : w.jobs.get txId with
    | none =>
      rw [← h.owned, hget]
      rfl
    | some job => rw [← h.owned, hget, Option.getD_some]
  stored := h.stored
  failed := by
    intro hfailed
    obtain ⟨job, hget, hrest⟩ := h.failed hfailed
    exact ⟨job, (KVStore.get_add_of_isSome (by rw [hget]; rfl)).trans hget, hrest⟩

-- The attempt that a program owns is made at the job in the store.
theorem attempt_eq (h : Reported txId w ({n} + owned)) :
    ∃ job, w.jobs.get txId = some job ∧ job.state = .active ∧ job.attemptsMade = n ∧ owned = 0 := by
  have howned := h.owned
  cases hget : w.jobs.get txId with
  | none =>
    rw [hget] at howned
    have hcard := congrArg Multiset.card howned
    simp [attempt] at hcard
  | some job =>
    rw [hget, attempt] at howned
    split_ifs at howned with hactive
    case pos =>
      have hn : n ∈ ({job.attemptsMade} : Multiset ℕ) := by
        rw [howned]
        exact Multiset.mem_add.mpr (.inl (Multiset.mem_singleton_self n))
      have hn := Multiset.mem_singleton.mp hn
      rw [hn, eq_comm, add_eq_left] at howned
      exact ⟨job, rfl, hactive, hn.symm, howned⟩
    case neg =>
      have hcard := congrArg Multiset.card howned
      simp at hcard

-- No other attempt is being made at a job that is changed when it waits or when its attempt ends.
theorem updateJob {f : Job → Job} {job : Job} (h : Reported txId w owned)
    (hget : w.jobs.get txId = some job) (hstate : job.state ≠ .failed) :
    Reported txId (w.updateJob txId f) (attempt (some (f job))) where
  owned  := by rw [World.updateJob, KVStore.get_update_self, hget, Option.map_some]
  stored := h.stored
  failed := by
    intro hfailed
    obtain ⟨job', hget', hstate', _⟩ := h.failed hfailed
    rw [hget] at hget'
    cases hget'
    exact absurd hstate' hstate

end Reported

theorem KeepsJob.updateJob {f : Job → Job} {job : Job} (hget : w.jobs.get txId = some job)
    (hstate : job.state ≠ .failed) (hattempts : (f job).attempts = job.attempts) :
    KeepsJob txId w (w.updateJob txId f) := by
  intro job' hget'
  rw [hget] at hget'
  cases hget'
  refine ⟨f job, ?_, hattempts, fun h => absurd h hstate⟩
  rw [World.updateJob, KVStore.get_update_self, hget, Option.map_some]

theorem create_handles {body : Option CreateBody} :
    (relayContract txId).Handles (create txId body) w 0 := by
  rw [create]
  split
  case h_2 => exact Contract.Handles.done
  case h_1 =>
    apply Contract.Safe.act
    intro w₁ _ _ others hI
    refine ⟨0, hI.addTx, .of_eq rfl, ?_⟩
    refine Contract.Safe.ite (fun _ => ?_) fun _ => Contract.Handles.done
    apply Contract.Handles.write
    intro w₂ _ _ others hI
    rw [zero_add] at hI
    refine ⟨hI.addJob, fun job hget => ⟨job, ?_, rfl, fun _ => rfl⟩⟩
    exact (KVStore.get_add_of_isSome (by rw [hget]; rfl)).trans hget

-- The status that the processor sets is none of the schema, so that no attempt comes to post.
theorem process_safe {job : Job} {gateway : Gateway} (hw : IsJob txId attempts w) :
    (relayContract txId).Safe
      (fun error w own => error.isSome = true ∧ IsJob txId attempts w ∧ own = {n})
      (process txId job gateway) w {n} := by
  apply Contract.Safe.look
  intro w₁ hgrows _ others hI
  have hw₁ := hw.keeps hgrows
  cases htx : w₁.txs.get txId with
  | none => exact ⟨rfl, hw₁, rfl⟩
  | some tx =>
    have hinvalid : validate ((Document.read tx).modify ({ · with status := .processing })) =
        some ("Transaction validation failed: status: `" ++ TxStatus.processing.name ++
          "` is not a valid enum value for path `status`.") := by
      rw [validate, if_neg]
      · rfl
      · rintro (hstatus | hstatus)
        · have hstatus : TxStatus.processing = tx.status := hstatus
          rcases hI.stored tx htx with hq | hf
          · rw [hq] at hstatus
            cases hstatus
          · rw [hf] at hstatus
            cases hstatus
        · cases hstatus
    dsimp only
    rw [save, hinvalid]
    exact ⟨rfl, hw₁, rfl⟩

theorem failed_handles {job : Job} {error : String} (hattempts : job.attempts = attempts)
    (hw : HasFailed txId attempts job.attemptsMade w) :
    (relayContract txId).Handles (failed txId job error) w 0 := by
  apply Contract.Safe.look
  intro w₁ hgrows₁ _ others hI
  have hw₁ := hw.keeps hgrows₁
  cases htx : w₁.txs.get txId with
  | none => exact Contract.Handles.done
  | some tx =>
    dsimp only
    rw [save]
    split
    case h_1 => exact Contract.Handles.done
    case h_2 hvalid =>
      apply Contract.Handles.write
      intro w₂ hgrows₂ hg others hI₂
      rw [zero_add] at hI₂
      obtain ⟨stored, hget, hstored, hfailed⟩ := hw₁.keeps hgrows₂
      -- What is saved is a status of the schema, which `retrying` is not.
      have hfinal : job.attemptsMade + 1 ≥ job.attempts := by
        by_contra hn
        rw [validate] at hvalid
        split_ifs at hvalid with hstatus
        simp only [Document.modify, Document.read, TxStatus.isAllowed] at hstatus
        rcases hstatus with hstatus | hstatus
        · rcases hI.stored tx htx with hq | hf
          · rw [hq] at hstatus
            cases hstatus
          · rw [hf] at hstatus
            cases hstatus
        · cases hstatus
      obtain ⟨hexecuted, hlast⟩ := hg stored hget (by omega)
      have hstate : stored.state = .failed := by
        by_cases hn : job.attemptsMade ≥ attempts
        case pos => exact hfailed hn
        case neg => exact hlast (by omega)
      refine ⟨{ owned := hI₂.owned, stored := ?stored, failed := fun _ => ⟨stored, hget, hstate, hexecuted⟩ },
        .of_eq rfl⟩
      case stored =>
        intro tx' htx'
        rw [World.updateTx, KVStore.get_update_self] at htx'
        obtain ⟨tx₀, hget₀, heq⟩ := Option.map_eq_some_iff.mp htx'
        rw [← heq, saveTransaction]
        rcases Document.written_or _ (·.status) tx₀ with hw | hw
        · rw [hw]
          exact hI₂.stored tx₀ hget₀
        · rw [hw]
          exact .inr (if_pos hfinal)

theorem runJob_handles {gateway : Gateway} : (relayContract txId).Handles (runJob txId gateway) w 0 := by
  apply Contract.Safe.act
  intro w₁ _ _ others hI
  rw [zero_add] at hI
  cases htaken : (w₁.jobs.get txId).filter isWaiting with
  | none =>
    have hsame : (w₁.updateJob txId moveToActive).jobs.get txId = w₁.jobs.get txId := by
      rw [World.updateJob, KVStore.get_update_self]
      cases hget : w₁.jobs.get txId with
      | none => rfl
      | some job =>
        rw [hget, Option.filter_some] at htaken
        split_ifs at htaken with hwaiting
        rw [Option.map_some, moveToActive, if_neg hwaiting]
    refine ⟨0, ?_, .of_eq hsame, Contract.Handles.done⟩
    rw [zero_add]
    exact hI.congr rfl hsame rfl
  | some job =>
    obtain ⟨hget, hwaiting⟩ := Option.filter_eq_some_iff.mp htaken
    have hstate : job.state = .waiting := of_decide_eq_true hwaiting
    have hactive : moveToActive job = { job with state := .active } := if_pos hwaiting
    have hothers : others = 0 := by
      rw [← hI.owned, hget, attempt, if_neg (by rw [hstate]; simp)]
    have hne : job.state ≠ .failed := by
      rw [hstate]
      simp
    have hI₁ := hI.updateJob (f := moveToActive) hget hne
    have hgrows := KeepsJob.updateJob (f := moveToActive) hget hne (by rw [hactive])
    rw [hactive, attempt, if_pos rfl] at hI₁
    refine ⟨{job.attemptsMade}, by rwa [hothers, add_zero], hgrows, ?_⟩
    apply Contract.Safe.bind
    have hjob : IsJob txId job.attempts (w₁.updateJob txId moveToActive) :=
      IsJob.keeps ⟨job, hget, rfl⟩ hgrows
    apply (process_safe hjob).imp
    intro error w₂ own hpost
    obtain ⟨hsome, hjob₂, hown⟩ := hpost
    rw [hown]
    cases error with
    | none => cases hsome
    | some error =>
      apply Contract.Safe.write
      intro w₃ hgrows₃ _ others hI₃
      obtain ⟨stored, hget₃, hactive₃, hmade, hothers⟩ := hI₃.attempt_eq
      have hne₃ : stored.state ≠ .failed := by
        rw [hactive₃]
        simp
      obtain ⟨stored', hget', hattempts⟩ := hjob₂.keeps hgrows₃
      rw [hget₃] at hget'
      cases hget'
      have hI₄ := hI₃.updateJob (f := moveToFailed) hget₃ hne₃
      have hidle : attempt (some (moveToFailed stored)) = 0 := by
        rw [attempt, moveToFailed]
        split_ifs with hs hs' <;> simp_all
      rw [hidle] at hI₄
      refine ⟨0, by rwa [hothers, add_zero], KeepsJob.updateJob hget₃ hne₃ rfl, ?_⟩
      apply failed_handles (Eq.refl _)
      refine ⟨moveToFailed stored, ?_, hattempts, fun hn => ?_⟩
      · rw [World.updateJob, KVStore.get_update_self, hget₃, Option.map_some]
      · have hn : job.attemptsMade + 1 ≥ job.attempts := hn
        rw [moveToFailed, if_pos (by omega)]

instance decidableRelayGuard : (label : Label) → (w : World) → Decidable (relayGuard label w)
  | .step, _          => .isTrue trivial
  | .posting _ _, _   => inferInstanceAs (Decidable (_ → _))
  | .reporting _ _, _ => inferInstanceAs (Decidable (∀ job ∈ _, _ → _))

namespace Sample

def body : CreateBody where
  sender   := .text "alice"
  receiver := .text "bob"
  amount   := .number 10
  signedTx := some "signed"

def unanswered : Gateway where
  lands    := false
  response := .error "timeout"

def relaying (actions : List (Action Request)) : Pool Label World :=
  Pool.execs Request.handler { store := {}, running := [] } actions

-- The handler of the second attempt runs when the third one has failed.
def exhausted : List (Action Request) :=
  inTurn 4 [.create "tx" (some body), .runJob "tx" unanswered] ++
    .start (.runJob "tx" unanswered) :: List.replicate 3 (.run 2) ++
    .start (.runJob "tx" unanswered) :: List.replicate 5 (.run 3) ++ [.run 2, .run 2]

def twoAttempts : List (Action Request) :=
  inTurn 5 [.create "tx" (some body), .runJob "tx" unanswered, .runJob "tx" unanswered]

end Sample

-- In every order of attempts and of what follows them, the record of a transaction is true.
theorem status_truthful (txId : String) (p : Pool Label World)
    (h : relaySystem.Run (fun p a => p.Meets relayGuard a) p) : Truthful txId p.store := by
  have hinv : relaySystem.Invariant (fun p a => p.Meets (relayContract txId).guard a)
      fun p => ∃ owned, (relayContract txId).Holds p owned :=
    Contract.invariant_of_handles ?init ?handles
  case init =>
    intro w hw
    refine { owned := ?_, stored := ?_, failed := ?_ }
    · rw [hw.2]
      rfl
    all_goals simp [World.hasStatus, hw.1]
  case handles =>
    intro request w
    cases request with
    | create id body =>
      by_cases heq : txId = id
      case pos =>
        subst heq
        exact create_handles
      case neg => exact Contract.Handles.of_keeps (create_steps.mono fun he => he.keeps heq)
    | runJob id gateway =>
      by_cases heq : txId = id
      case pos =>
        subst heq
        exact runJob_handles
      case neg => exact Contract.Handles.of_keeps (runJob_steps.mono fun he => he.keeps heq)
    | broadcast signedTx lands =>
      apply Contract.Handles.write
      intro w' _ hg others hI
      rw [zero_add] at hI
      exact ⟨hI.execute hg, .of_eq (by rw [execute_jobs])⟩
  obtain ⟨owned, hp⟩ := hinv.holds h
  have hI := hp.invariant
  constructor
  case completed =>
    intro hcompleted
    obtain ⟨tx, hget, hstatus⟩ := Reported.hasStatus_eq_true.mp hcompleted
    rcases hI.stored tx hget with hq | hf
    · rw [hq] at hstatus
      cases hstatus
    · rw [hf] at hstatus
      cases hstatus
  case failed => exact hI.failed
  case retried =>
    intro job hget hwaiting
    apply Bool.eq_false_of_not_eq_true
    intro hfailed
    obtain ⟨job', hget', hstate, _⟩ := hI.failed hfailed
    rw [hget] at hget'
    cases hget'
    rw [hwaiting] at hstate
    cases hstate

theorem sample_status_truthful : Truthful "tx" (Sample.relaying Sample.exhausted).store :=
  status_truthful "tx" _ (run_from ⟨rfl, rfl⟩ (by decide +kernel))

-- The record says failed after the second attempt, and the third is still to be made.
theorem retried_shown_as_failed :
    ¬∀ (txId : String) (p : Pool Label World), relaySystem.Reachable p → Truthful txId p.store := by
  intro h
  have hretried := (h "tx" (Sample.relaying Sample.twoAttempts) (reachable_from ⟨rfl, rfl⟩)).retried
  have hjob : (Sample.relaying Sample.twoAttempts).store.jobs.get "tx" =
      some { signedTx := "signed", attemptsMade := 2, state := .waiting } := by decide +kernel
  exact absurd (hretried _ hjob rfl) (by decide +kernel)

end Relay
