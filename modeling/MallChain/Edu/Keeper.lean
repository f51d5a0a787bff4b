import MallChain.Lib.Decimal
import MallChain.Lib.Index
import MallChain.Lib.Transition
import MallChain.Mlcoin.Types

namespace Edu

open Sdk Mlcoin

def moduleName : String := "edu"

structure Params where
  deriving DecidableEq, Repr

structure DocumentRecord where
  recordId       : String
  docId          : String
  sha256Hash     : String
  version        : UInt32
  uploader       : String
  parentRecordId : String
  timestamp      : ℤ
  deriving DecidableEq, Repr

-- Versions are 32-bit numbers.
scoped instance linearOrderUInt32 : LinearOrder UInt32 where
  le_refl _        := UInt32.le_refl _
  le_trans _ _ _   := UInt32.le_trans
  le_antisymm _ _  := UInt32.le_antisymm
  le_total         := UInt32.le_total
  lt_iff_le_not_ge := by simp only [UInt32.lt_iff_toNat_lt, UInt32.le_iff_toNat_le]; omega
  toDecidableLE    := inferInstance
  toDecidableEq    := inferInstance
  toDecidableLT    := inferInstance

-- A sequence that was never used stands at 0.
structure State where
  params          : Option Params := none
  documentRecord  : KVStore String DocumentRecord := .empty
  recordSeq       : UInt64 := 0
  docVersionIndex : KVStore (String ×ₗ UInt32) String := .empty

structure GenesisState where
  params            : Params := {}
  documentRecordMap : List DocumentRecord := []

structure MsgRegisterDocument where
  creator        : String
  uploader       : String
  docId          : String
  sha256Hash     : String
  parentRecordId : String

structure MsgRegisterDocumentResponse where
  recordId : String
  version  : UInt32
  deriving DecidableEq, Repr

structure Keeper where
  addressCodec    : String → Option AccAddress
  authority       : AccAddress
  authorityString : String

def errInvalidSigner : String := "expected gov account as only signer for proposal message"
def errInvalidDocument : String := "invalid document registration"
def errParentRecordNotFound : String := "parent record not found"

-- A string inside a key ends with a delimiter, which it must not contain.

def stringDelimiter : Char := Char.ofNat 0

def errEncoding : Failure :=
  .error "collections: encoding error: string is not allowed to have the string delimiter"

def join (docId : String) (version : UInt32) : Result (String ×ₗ UInt32) := do
  failIf (stringDelimiter ∈ docId.toList) errEncoding
  return toLex (docId, version)

def isHexDigit (c : Char) : Bool :=
  c.isDigit || ('a' ≤ c && c ≤ 'f') || ('A' ≤ c && c ≤ 'F')

-- `hex.DecodeString` succeeds.
def isHex (text : String) : Bool :=
  text.toList.all isHexDigit && text.utf8ByteSize % 2 == 0

def recordID (n : UInt64) : String :=
  s!"{moduleName}-{n.toNat}"

-- The version of a new record: 1, or the one after its parent.
def nextVersion (s : State) (msg : MsgRegisterDocument) : Result UInt32 :=
  if msg.parentRecordId = "" then
    return 1
  else do
    let parent ← orFail (s.documentRecord.get msg.parentRecordId)
      (wrap errParentRecordNotFound "parent_record_id does not exist")
    failIf (parent.docId ≠ msg.docId)
      (wrap errParentRecordNotFound "parent_record_id belongs to a different doc_id")
    return parent.version + 1

def Keeper.registerDocument (k : Keeper) (blockTime : ℤ) (msg : MsgRegisterDocument) (s : State) :
    Result (State × MsgRegisterDocumentResponse) := do
  failIf (k.addressCodec msg.creator = none) (.error "invalid creator address")
  failIf (msg.uploader = "") (wrap errInvalidDocument "uploader cannot be empty")
  failIf (msg.docId = "") (wrap errInvalidDocument "doc_id cannot be empty")
  failIf (msg.sha256Hash.utf8ByteSize ≠ 64)
    (wrap errInvalidDocument "sha256_hash must be a 64-character hex-encoded string")
  failIf (isHex msg.sha256Hash = false) (wrap errInvalidDocument "sha256_hash must be valid hex")
  let version ← nextVersion s msg
  let record : DocumentRecord := {
    recordId       := recordID (s.recordSeq + 1)
    docId          := msg.docId
    sha256Hash     := msg.sha256Hash
    version        := version
    uploader       := msg.uploader
    parentRecordId := msg.parentRecordId
    timestamp      := blockTime
  }
  let key ← join msg.docId version
  let s' := { s with
    recordSeq       := s.recordSeq + 1
    documentRecord  := s.documentRecord.set record.recordId record
    docVersionIndex := s.docVersionIndex.set key record.recordId
  }
  return (s', { recordId := record.recordId, version := version })

def Keeper.updateParams (k : Keeper) (authority : String) (params : Params) (s : State) :
    Result State := do
  let address ← orFail (k.addressCodec authority) (.error "invalid authority address")
  failIf (k.authority ≠ address)
    (wrap errInvalidSigner s!"invalid authority; expected {k.authorityString}, got {authority}")
  return { s with params := some params }

-- The records of a document along its versions.
def getVersionHistory (docId : String) (s : State) : Result (List DocumentRecord) := do
  failIf (stringDelimiter ∈ docId.toList) (.error "internal error")
  (s.docVersionIndex.under docId).mapM fun e =>
    orFail (s.documentRecord.get e.2) (.error "internal error")

namespace GenesisState

-- The loop over the records, with the ids that were seen.
def validateRecords (recordIDMap : List String) : List DocumentRecord → Result Unit
  | [] => .ok ()
  | elem :: elems => do
    failIf (elem.recordId ∈ recordIDMap) (.error "duplicated record_id for documentRecord")
    validateRecords (elem.recordId :: recordIDMap) elems

def validate (gs : GenesisState) : Result Unit :=
  validateRecords [] gs.documentRecordMap

end GenesisState

def initRecords : List DocumentRecord → State → Result State
  | [], s => .ok s
  | elem :: elems, s => do
    let key ← join elem.docId elem.version
    initRecords elems { s with
      documentRecord  := s.documentRecord.set elem.recordId elem
      docVersionIndex := s.docVersionIndex.set key elem.recordId
    }

def initGenesis (genState : GenesisState) (s : State) : Result State := do
  let s ← initRecords genState.documentRecordMap s
  return { s with params := some genState.params }

def exportGenesis (s : State) : Result GenesisState := do
  let params ← orFail s.params (.error "collections: not found")
  return { params := params, documentRecordMap := s.documentRecord.values }

inductive Msg
  | registerDocument (blockTime : ℤ) (msg : MsgRegisterDocument)
  | updateParams (authority : String) (params : Params)

def Keeper.next (k : Keeper) (s : State) : Msg → State
  | .registerDocument blockTime msg =>
    match k.registerDocument blockTime msg s with
    | .ok (s', _) => s'
    | .error _ => s
  | .updateParams authority params =>
    match k.updateParams authority params s with
    | .ok s' => s'
    | .error _ => s

-- The chain from a genesis on that passed its check.
def chain (k : Keeper) : TransitionSystem State Msg where
  init s      := ∃ gs : GenesisState, gs.validate = .ok () ∧ initGenesis gs {} = .ok s
  step s a s' := s' = k.next s a

-- The checks of `RegisterDocument`.
structure Accepted (k : Keeper) (msg : MsgRegisterDocument) (s : State) : Prop where
  creator  : k.addressCodec msg.creator ≠ none
  uploader : msg.uploader ≠ ""
  docId    : msg.docId ≠ "" ∧ stringDelimiter ∉ msg.docId.toList
  hash     : msg.sha256Hash.utf8ByteSize = 64 ∧ isHex msg.sha256Hash = true
  parent   : msg.parentRecordId ≠ "" →
    ∃ parent, s.documentRecord.get msg.parentRecordId = some parent ∧ parent.docId = msg.docId

-- `s'` is `s` with one more record.
structure Registered (record : DocumentRecord) (s s' : State) : Prop where
  id      : record.recordId = recordID (s.recordSeq + 1)
  root    : record.parentRecordId = "" → record.version = 1
  child   : record.parentRecordId ≠ "" → ∃ parent,
    s.documentRecord.get record.parentRecordId = some parent ∧ parent.docId = record.docId ∧
    record.version = parent.version + 1
  docId   : stringDelimiter ∉ record.docId.toList
  params  : s'.params = s.params
  records : s'.documentRecord = s.documentRecord.set record.recordId record
  index   : s'.docVersionIndex =
    s.docVersionIndex.set (toLex (record.docId, record.version)) record.recordId
  seq     : s'.recordSeq = s.recordSeq + 1

variable {k : Keeper} {s s' : State} {msg : MsgRegisterDocument} {blockTime : ℤ}
variable {r : MsgRegisterDocumentResponse} {docId : String} {version : UInt32}

theorem recordID_inj {n m : UInt64} (h : recordID n = recordID m) : n = m := by
  apply UInt64.toNat_inj.mp
  apply Decimal.toString_injective
  simpa [recordID] using h

@[simp]
theorem join_eq_ok {key : String ×ₗ UInt32} : join docId version = .ok key ↔
    stringDelimiter ∉ docId.toList ∧ toLex (docId, version) = key := by
  simp only [join, Result.bind_eq_ok, failIf_eq_ok, Result.pure_eq_ok, exists_and_left,
    exists_const]

theorem nextVersion_root (h : msg.parentRecordId = "") : nextVersion s msg = .ok 1 := by
  simp [nextVersion, h]

theorem nextVersion_child (h : msg.parentRecordId ≠ "") : nextVersion s msg = .ok version ↔
    ∃ parent, s.documentRecord.get msg.parentRecordId = some parent ∧ parent.docId = msg.docId ∧
      version = parent.version + 1 := by
  simp only [nextVersion, h, if_false, Result.bind_eq_ok, orFail_eq_ok, failIf_eq_ok,
    Result.pure_eq_ok, not_not, exists_and_left, exists_const, eq_comm (a := version)]

theorem of_registerDocument (h : k.registerDocument blockTime msg s = .ok (s', r)) :
    Accepted k msg s ∧ ∃ record : DocumentRecord, record.docId = msg.docId ∧
      record.parentRecordId = msg.parentRecordId ∧ r = ⟨record.recordId, record.version⟩ ∧
      Registered record s s' := by
  simp only [Keeper.registerDocument, Result.bind_eq_ok, failIf_eq_ok, join_eq_ok,
    Result.pure_eq_ok, Prod.mk.injEq, Bool.not_eq_false] at h
  obtain ⟨_, hc, _, hu, _, hd, _, hlen, _, hhex, version, hv, key, ⟨hdelim, rfl⟩, rfl, rfl⟩ := h
  refine ⟨⟨hc, hu, ⟨hd, hdelim⟩, ⟨not_not.mp hlen, hhex⟩, fun hp => ?parent⟩,
    ⟨recordID (s.recordSeq + 1), msg.docId, msg.sha256Hash, version, msg.uploader,
      msg.parentRecordId, blockTime⟩, rfl, rfl, rfl,
    ⟨rfl, fun hp => ?root, fun hp => ?child, hdelim, rfl, rfl, rfl, rfl⟩⟩
  case parent =>
    obtain ⟨parent, hget, hdoc, _⟩ := (nextVersion_child hp).mp hv
    exact ⟨parent, hget, hdoc⟩
  case root =>
    rw [nextVersion_root hp] at hv
    exact (Except.ok.inj hv).symm
  case child => exact (nextVersion_child hp).mp hv

-- A registration that passes the checks goes through.
theorem Accepted.registered (h : Accepted k msg s) (blockTime : ℤ) :
    ∃ s' r, k.registerDocument blockTime msg s = .ok (s', r) := by
  have hversion : ∃ version, nextVersion s msg = .ok version := by
    by_cases hp : msg.parentRecordId = ""
    case pos => exact ⟨1, nextVersion_root hp⟩
    case neg =>
      obtain ⟨parent, hget, hdoc⟩ := h.parent hp
      exact ⟨_, (nextVersion_child hp).mpr ⟨parent, hget, hdoc, rfl⟩⟩
  obtain ⟨version, hv⟩ := hversion
  simp [Keeper.registerDocument, failIf, join, hv, h.creator, h.uploader, h.docId, h.hash]

theorem of_updateParams {authority : String} {params : Params}
    (h : k.updateParams authority params s = .ok s') : s' = { s with params := some params } := by
  simp only [Keeper.updateParams, Result.bind_eq_ok, Result.pure_eq_ok] at h
  obtain ⟨_, _, _, _, rfl⟩ := h
  rfl

theorem next_updateParams (k : Keeper) (s : State) (authority : String) (params : Params) :
    k.next s (.updateParams authority params) = s ∨
    k.next s (.updateParams authority params) = { s with params := some params } := by
  simp only [Keeper.next]
  split
  case h_1 s' h => exact .inr (of_updateParams h)
  case h_2 => exact .inl rfl

theorem next_registered (h : k.registerDocument blockTime msg s = .ok (s', r)) :
    k.next s (.registerDocument blockTime msg) = s' := by
  simp only [Keeper.next, h]

theorem next_refused {e : Failure} (h : k.registerDocument blockTime msg s = .error e) :
    k.next s (.registerDocument blockTime msg) = s := by
  simp only [Keeper.next, h]

end Edu
