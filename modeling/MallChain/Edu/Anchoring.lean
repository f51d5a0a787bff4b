import MallChain.Edu.Genesis
import MallChain.Lib.Interleaving

namespace Edu.Anchoring

open Sdk Interleaving

inductive ResourceStatus
  | published
  | removed
  deriving DecidableEq, Repr

inductive ChainStatus
  | pending
  | registered
  | failed
  deriving DecidableEq, Repr

-- A resource without a document of its own yet has an empty `docId`.
structure EduResource where
  authorId           : String
  sha256Hash         : String
  docId              : String := ""
  previousResourceId : Option String := none
  status             : ResourceStatus := .published
  chainStatus        : ChainStatus := .pending
  chainRecordId      : String := ""
  chainVersion       : ℕ := 0
  chainError         : String := ""
  deriving DecidableEq, Repr

-- The chain and the resources, with what the chain has answered to the transaction of each resource, the
-- latest first. Nothing in the source reads these answers.
structure World where
  chain         : State := started
  resources     : KVStore String EduResource := .empty
  registrations : List (String × MsgRegisterDocumentResponse) := []

-- What becomes of an attempt to anchor a resource: there is no key, the transaction does not reach a
-- block, its result is not seen, the history cannot be read afterwards, or nothing goes wrong on the way.
inductive Outcome
  | unconfigured
  | unsent (error : String)
  | unconfirmed (blockTime : ℤ) (error : String)
  | unread (blockTime : ℤ) (error : String)
  | answered (blockTime : ℤ)
  deriving DecidableEq, Repr

-- The id is the one that the database gives to the new resource.
structure Upload where
  id                 : String
  userId             : String
  sha256Hash         : String
  previousResourceId : Option String := none
  outcome            : Outcome
  deriving DecidableEq, Repr

inductive Label
  | read
  | write
  -- the transaction of a resource that replaces another one
  | registering (previousResourceId : Option String) (msg : MsgRegisterDocument)
  -- a message of somebody else
  | delivering (msg : Msg)
  -- a walk through the history, for the record that the chain has answered with
  | searching (docId sha256Hash : String) (response : MsgRegisterDocumentResponse)

abbrev Handler := Prog Label World

structure Config where
  keeper   : Keeper
  operator : String

namespace World

variable (w : World)

-- An update of a document that is not there does nothing.
def updateResource (id : String) (f : EduResource → EduResource) : World :=
  match w.resources.get id with
  | some resource => { w with resources := w.resources.set id (f resource) }
  | none          => w

def create (id : String) (resource : EduResource) : World :=
  if (w.resources.get id).isNone then { w with resources := w.resources.set id resource } else w

-- `err.message || 'Unknown chain error'`
def failed (id error : String) : World :=
  w.updateResource id fun resource => { resource with
    chainStatus := .failed
    chainError  := if error = "" then "Unknown chain error" else error
  }

-- What the route takes for the record of the resource: the first one with its content, or the last one.
def anchored (id sha256Hash : String) (history : List DocumentRecord) : World :=
  let mine := (history.find? (·.sha256Hash = sha256Hash)).or history.getLast?
  w.updateResource id fun resource => { resource with
    chainStatus   := .registered
    chainRecordId := (mine.map (·.recordId)).getD ""
    chainVersion  := mine.elim history.length fun mine =>
      if mine.version = 0 then history.length else mine.version.toNat
    chainError    := ""
  }

-- The transaction of a resource in a block.
def register (k : Keeper) (id : String) (blockTime : ℤ) (msg : MsgRegisterDocument) : World :=
  match k.registerDocument blockTime msg w.chain with
  | .ok (chain, response) => { w with chain, registrations := (id, response) :: w.registrations }
  | .error _              => w

def deliver (k : Keeper) (msg : Msg) : World :=
  { w with chain := k.next w.chain msg }

end World

def failureText : Failure → String
  | .error text => text
  | .panic text => text

section Handlers

variable (cfg : Config)

-- The code of a transaction that fails is an error too.
def broadcastSignedTx (id : String) (resource : EduResource) (blockTime : ℤ) (msg : MsgRegisterDocument) :
    Handler (Except String MsgRegisterDocumentResponse) :=
  .act (.registering resource.previousResourceId msg) (·.register cfg.keeper id blockTime msg) fun w =>
    match cfg.keeper.registerDocument blockTime msg w.chain with
    | .ok (_, response) => .ok response
    | .error e          => .error (failureText e)

def registerDocumentFromMnemonic (id : String) (resource : EduResource) (parentRecordId : String)
    (outcome : Outcome) : Handler (Except String MsgRegisterDocumentResponse) :=
  let msg : MsgRegisterDocument := {
    creator        := cfg.operator
    uploader       := resource.authorId
    docId          := resource.docId
    sha256Hash     := resource.sha256Hash
    parentRecordId := parentRecordId
  }
  if resource.authorId = "" then return .error "Missing uploader identity"
  else if resource.docId = "" then return .error "Missing docId"
  else if resource.sha256Hash = "" then return .error "Missing sha256Hash"
  else
    match outcome with
    | .unconfigured                => return .error "Missing mnemonic for edu operator"
    | .unsent error                => return .error error
    | .unconfirmed blockTime error => do
      let _ ← broadcastSignedTx cfg id resource blockTime msg
      return .error error
    | .unread blockTime _          => broadcastSignedTx cfg id resource blockTime msg
    | .answered blockTime          => broadcastSignedTx cfg id resource blockTime msg

def queryHistory (docId : String) (outcome : Outcome) (w : World) : Except String (List DocumentRecord) :=
  match outcome, getVersionHistory docId w.chain with
  | .unread _ error, _ => .error error
  | _, .ok records     => .ok records
  | _, .error _        => .error "Chain query failed with status 500"

def findParent (resource : EduResource) : Handler String :=
  match resource.previousResourceId with
  | none            => return ""
  | some previousId => .read .read fun w => ((w.resources.get previousId).map (·.chainRecordId)).getD ""

def anchorOnChain (id : String) (resource : EduResource) (outcome : Outcome) : Handler Unit := do
  if outcome = .unconfigured then
    .write .write (·.failed id "Chain anchoring is not configured (OPERATOR_MNEMONIC unset)")
  else
    let parentRecordId ← findParent resource
    match ← registerDocumentFromMnemonic cfg id resource parentRecordId outcome with
    | .error error => .write .write (·.failed id error)
    | .ok response =>
      match ← .read (.searching resource.docId resource.sha256Hash response)
        (queryHistory resource.docId outcome) with
      | .error error => .write .write (·.failed id error)
      | .ok history  => .write .write (·.anchored id resource.sha256Hash history)

-- The document of the resource that is replaced, unless it cannot be replaced by the user.
def findPrevious (u : Upload) : Handler (Option String) :=
  match u.previousResourceId with
  | none            => return some ""
  | some previousId => .read .read fun w => (w.resources.get previousId).bind fun previous =>
    if previous.status = .published ∧ previous.authorId = u.userId then some previous.docId else none

-- What is created for an upload.
def Upload.resource (u : Upload) (docId : String) : EduResource where
  authorId           := u.userId
  sha256Hash         := u.sha256Hash
  docId              := docId
  previousResourceId := u.previousResourceId

-- `POST /`
def upload (u : Upload) : Handler Unit := do
  let some docId ← findPrevious u | return
  let isNew ← .act .write (·.create u.id (u.resource docId)) fun w => (w.resources.get u.id).isNone
  if !isNew then return
  if u.previousResourceId = none then
    .write .write (·.updateResource u.id fun resource => { resource with docId := u.id })
    anchorOnChain cfg u.id (u.resource u.id) u.outcome
  else anchorOnChain cfg u.id (u.resource docId) u.outcome

-- `DELETE /:id`
def remove (id userId : String) (isAdmin : Bool) : Handler Unit := do
  let some resource ← .read .read (·.resources.get id) | return
  if resource.status = .removed then return
  if resource.authorId ≠ userId ∧ !isAdmin then return
  .write .write (·.updateResource id fun resource => { resource with status := .removed })

end Handlers

-- The requests to the routes, and the messages of others to the chain.
inductive Request
  | upload (u : Upload)
  | remove (id userId : String) (isAdmin : Bool)
  | message (msg : Msg)

def Request.handler (cfg : Config) : Request → Handler Unit
  | .upload u                 => Anchoring.upload cfg u
  | .remove id userId isAdmin => Anchoring.remove id userId isAdmin
  | .message msg              => .write (.delivering msg) (·.deliver cfg.keeper msg)

-- A new chain, and no resources.
def anchoring (cfg : Config) : TransitionSystem (Pool Label World) (Action Request) :=
  system (fun w => w = {}) (Request.handler cfg)

end Edu.Anchoring
