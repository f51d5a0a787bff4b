import MallChain.Edu.Keeper

namespace Edu

open Sdk

-- The chain after the default genesis.
def started : State := { params := some {} }

-- The record that a message created.
def Keeper.created (k : Keeper) (s : State) (a : Msg) (s' : State) : Option DocumentRecord :=
  match a with
  | .registerDocument blockTime msg =>
    match k.registerDocument blockTime msg s with
    | .ok (_, r) => s'.documentRecord.get r.recordId
    | .error _ => none
  | .updateParams .. => none

-- The chain with what its messages created, the latest first.
def recorded (k : Keeper) : TransitionSystem (State × List (Option DocumentRecord)) Msg :=
  ((chain k).startingAt started).traced k.created

-- All that was created, in the order of the registrations.
def registrations (history : List (Option DocumentRecord)) : List DocumentRecord :=
  history.reverse.reduceOption

def ofDocument (docId : String) (l : List DocumentRecord) : List DocumentRecord :=
  l.filter fun r => r.docId = docId

-- Each record names the one before it as its parent.
structure Linked (l : List DocumentRecord) : Prop where
  root  : ∀ r, l.head? = some r → r.parentRecordId = ""
  chain : l.IsChain fun r r' => r'.parentRecordId = r.recordId

structure Chained (s : State) (created : List DocumentRecord) : Prop where
  stored   : ∀ key r, s.documentRecord.get key = some r ↔ r ∈ created ∧ r.recordId = key
  distinct : (created.map (·.recordId)).Nodup
  indexed  : ∀ key r, s.documentRecord.get key = some r →
    s.docVersionIndex.get (toLex (r.docId, r.version)) = some r.recordId
  history  : ∀ r ∈ created, getVersionHistory r.docId s = .ok (ofDocument r.docId created)
  linked   : ∀ docId, Linked (ofDocument docId created)

-- A registration opens a new document or goes on from its latest record, and neither the versions of
-- the document nor the ids of the records have come to their end.
structure Fits (msg : MsgRegisterDocument) (s : State) : Prop where
  root    : msg.parentRecordId = "" →
    ∀ key r, s.documentRecord.get key = some r → r.docId ≠ msg.docId
  leaf    : msg.parentRecordId ≠ "" →
    ∀ key r, s.documentRecord.get key = some r → r.parentRecordId ≠ msg.parentRecordId
  space   : ∀ parent, s.documentRecord.get msg.parentRecordId = some parent →
    parent.version.toNat + 1 < 2 ^ 32
  unspent : s.recordSeq = 0 → s.documentRecord = .empty

def Extends (k : Keeper) (s : State) (a : Msg) : Prop :=
  ∀ blockTime msg, a = .registerDocument blockTime msg → Accepted k msg s → Fits msg s

-- The versions of a document are numbered from 1 on, and its index follows its records.
structure Numbered (s : State) (created : List DocumentRecord) : Prop where
  stored   : ∀ key r, s.documentRecord.get key = some r ↔ r ∈ created ∧ r.recordId = key
  distinct : (created.map (·.recordId)).Nodup
  ids      : s.recordSeq = 0 ∨
    ∀ r ∈ created, ∃ n, n ≠ 0 ∧ n ≤ s.recordSeq ∧ r.recordId = recordID n
  docIds   : ∀ r ∈ created, stringDelimiter ∉ r.docId.toList
  walk     : ∀ docId, s.docVersionIndex.under docId =
    (ofDocument docId created).map fun r => (r.version, r.recordId)
  versions : ∀ docId, (ofDocument docId created).map (·.version.toNat) =
    List.range' 1 (ofDocument docId created).length
  linked   : ∀ docId, Linked (ofDocument docId created)

variable {k : Keeper} {s s' : State} {msg : MsgRegisterDocument} {record r : DocumentRecord}
variable {created l : List DocumentRecord} {docId : String}

theorem mem_ofDocument : r ∈ ofDocument docId l ↔ r ∈ l ∧ r.docId = docId := by
  simp [ofDocument]

theorem ofDocument_concat_self : ofDocument r.docId (l ++ [r]) = ofDocument r.docId l ++ [r] := by
  simp [ofDocument]

theorem ofDocument_concat_ne (h : docId ≠ r.docId) :
    ofDocument docId (l ++ [r]) = ofDocument docId l := by
  simp [ofDocument, h.symm]

theorem Linked.concat (h : Linked l) (hroot : l = [] → r.parentRecordId = "")
    (hlast : ∀ parent, l.getLast? = some parent → r.parentRecordId = parent.recordId) :
    Linked (l ++ [r]) where
  root r' hr' := by
    cases l with
    | nil =>
      cases hr'
      exact hroot rfl
    | cons r₀ l => exact h.root r' hr'
  chain := by
    refine List.isChain_append.mpr ⟨h.chain, List.isChain_singleton r, fun parent hp r' hr' => ?_⟩
    cases hr'
    exact hlast parent hp

-- The record that nobody names as parent is the last one.
theorem Linked.getLast (h : Linked l) {parent : DocumentRecord} (hmem : parent ∈ l)
    (hleaf : ∀ r ∈ l, r.parentRecordId ≠ parent.recordId) : l.getLast? = some parent := by
  obtain ⟨before, after, rfl⟩ := List.append_of_mem hmem
  cases after with
  | nil => simp
  | cons r after =>
    have hlink := (List.isChain_append.mp h.chain).2.1
    have hr : r.parentRecordId = parent.recordId := (List.isChain_cons_cons.mp hlink).1
    exact absurd hr (hleaf r (by simp))

namespace Numbered

theorem getVersionHistory (h : Numbered s created) (hd : stringDelimiter ∉ docId.toList) :
    getVersionHistory docId s = .ok (ofDocument docId created) := by
  have hall : ∀ {l : List DocumentRecord}, (∀ r ∈ l, r ∈ created) →
      (l.map fun r => (r.version, r.recordId)).mapM (fun e : UInt32 × String =>
        orFail (s.documentRecord.get e.2) (.error "internal error")) = (.ok l : Result _) := by
    intro l hl
    induction l with
    | nil => rfl
    | cons r l ih =>
      have hget : s.documentRecord.get r.recordId = some r :=
        (h.stored _ r).mpr ⟨hl r (List.mem_cons_self ..), rfl⟩
      have hrest := ih fun r' hr' => hl r' (List.mem_cons_of_mem _ hr')
      rw [List.map_cons, List.mapM_cons, hrest, hget]
      rfl
  rw [Edu.getVersionHistory, h.walk, hall fun r hr => (mem_ofDocument.mp hr).1, failIf, if_neg hd]
  rfl

theorem chained (h : Numbered s created) : Chained s created where
  stored   := h.stored
  distinct := h.distinct
  linked   := h.linked
  history r hr := h.getVersionHistory (h.docIds r hr)
  indexed key r hget := by
    have hr := ((h.stored key r).mp hget).1
    refine KVStore.mem_under_iff.mp ?_
    rw [h.walk]
    exact List.mem_map.mpr ⟨r, mem_ofDocument.mpr ⟨hr, rfl⟩, rfl⟩

theorem version_le (h : Numbered s created) (hr : r ∈ ofDocument docId created) :
    r.version.toNat ≤ (ofDocument docId created).length := by
  have hmem : r.version.toNat ∈ List.range' 1 (ofDocument docId created).length := by
    rw [← h.versions]
    exact List.mem_map_of_mem hr
  rw [List.mem_range'_1] at hmem
  omega

theorem version_last (h : Numbered s created)
    (hr : (ofDocument docId created).getLast? = some r) :
    r.version.toNat = (ofDocument docId created).length := by
  have hlast := congrArg List.getLast? (h.versions docId)
  rw [List.getLast?_map, hr, List.getLast?_range'] at hlast
  split at hlast
  case isTrue h₀ => cases hlast
  case isFalse h₀ =>
    have hv : r.version.toNat = 1 + (ofDocument docId created).length - 1 :=
      Option.some.inj hlast
    omega

-- The new record continues the list of its document.
structure Continues (record : DocumentRecord) (l : List DocumentRecord) : Prop where
  root    : l = [] → record.parentRecordId = ""
  last    : ∀ parent, l.getLast? = some parent → record.parentRecordId = parent.recordId
  version : record.version.toNat = l.length + 1

theorem continues (h : Numbered s created) (hr : Registered record s s') (hd : record.docId = msg.docId)
    (hp : record.parentRecordId = msg.parentRecordId) (hf : Fits msg s) :
    Continues record (ofDocument record.docId created) := by
  by_cases hroot : record.parentRecordId = ""
  case pos =>
    have hnil : ofDocument record.docId created = [] := by
      refine List.eq_nil_iff_forall_not_mem.mpr fun r hmem => ?_
      obtain ⟨hmem, hdoc⟩ := mem_ofDocument.mp hmem
      exact hf.root (hp ▸ hroot) _ r ((h.stored _ r).mpr ⟨hmem, rfl⟩) (hdoc.trans hd)
    rw [hnil]
    exact ⟨fun _ => hroot, fun _ hl => (by cases hl), by rw [hr.root hroot]; rfl⟩
  case neg =>
    obtain ⟨parent, hget, hdoc, hversion⟩ := hr.child hroot
    have hparent := (h.stored _ parent).mp hget
    have hmem : parent ∈ ofDocument record.docId created :=
      mem_ofDocument.mpr ⟨hparent.1, hdoc⟩
    have hlast : (ofDocument record.docId created).getLast? = some parent := by
      refine (h.linked _).getLast hmem fun r hr' => ?_
      rw [hparent.2, hp]
      exact hf.leaf (hp ▸ hroot) _ r ((h.stored _ r).mpr ⟨(mem_ofDocument.mp hr').1, rfl⟩)
    refine ⟨fun hnil => absurd hmem (by simp [hnil]), fun parent' hp' => ?last, ?version⟩
    case last =>
      rw [hlast] at hp'
      cases hp'
      exact hparent.2.symm
    case version =>
      have hspace := hf.space parent (hp ▸ hget)
      rw [← h.version_last hlast, hversion, UInt32.toNat_add, UInt32.toNat_one]
      omega

-- The id of the new record is not taken.
theorem fresh (h : Numbered s created) (hr : Registered record s s') (hf : Fits msg s) :
    ∀ r ∈ created, r.recordId ≠ record.recordId := by
  intro r hmem heq
  by_cases hseq : s.recordSeq = 0
  case pos =>
    have hget := (h.stored _ r).mpr ⟨hmem, rfl⟩
    rw [hf.unspent hseq] at hget
    cases hget
  case neg =>
    obtain ⟨n, hn, hle, hid⟩ := h.ids.resolve_left hseq r hmem
    have hnext : n = s.recordSeq + 1 := recordID_inj (hid.symm.trans (heq.trans hr.id))
    rw [UInt64.le_iff_toNat_le, hnext, UInt64.toNat_add, UInt64.toNat_one] at hle
    have hzero : n.toNat ≠ 0 := fun h₀ => hn (UInt64.toNat_inj.mp h₀)
    rw [hnext, UInt64.toNat_add, UInt64.toNat_one] at hzero
    have hlt := s.recordSeq.toNat_lt
    omega

theorem registered (h : Numbered s created) (hr : Registered record s s') (hf : Fits msg s)
    (hc : Continues record (ofDocument record.docId created)) : Numbered s' (created ++ [record]) := by
  have hfresh := h.fresh hr hf
  refine ⟨?stored, ?distinct, ?ids, ?docIds, ?walk, ?versions, ?linked⟩
  case stored =>
    intro key r
    rw [hr.records, KVStore.get_set, List.mem_append, List.mem_singleton]
    by_cases hk : key = record.recordId
    case pos =>
      subst hk
      simp only [if_true, Option.some.injEq]
      constructor
      · rintro rfl
        exact ⟨.inr rfl, rfl⟩
      · rintro ⟨hmem | rfl, hid⟩
        · exact absurd hid (hfresh r hmem)
        · rfl
    case neg =>
      rw [if_neg hk, h.stored]
      constructor
      · exact fun hmem => ⟨.inl hmem.1, hmem.2⟩
      · rintro ⟨hmem | rfl, hid⟩
        · exact ⟨hmem, hid⟩
        · exact absurd hid.symm hk
  case distinct =>
    rw [List.map_append, List.nodup_append]
    refine ⟨h.distinct, by simp, fun id hid id' hid' => ?_⟩
    obtain ⟨r, hmem, rfl⟩ := List.mem_map.mp hid
    rw [List.map_singleton, List.mem_singleton] at hid'
    exact hid' ▸ hfresh r hmem
  case ids =>
    by_cases hseq : s'.recordSeq = 0
    case pos => exact .inl hseq
    case neg =>
      have hnat : s'.recordSeq.toNat = s.recordSeq.toNat + 1 := by
        have hne : s'.recordSeq.toNat ≠ 0 := fun h₀ => hseq (UInt64.toNat_inj.mp h₀)
        have hlt := s.recordSeq.toNat_lt
        rw [hr.seq, UInt64.toNat_add, UInt64.toNat_one] at hne ⊢
        omega
      refine .inr fun r hmem => ?_
      rcases List.mem_append.mp hmem with hmem | hmem
      · by_cases h₀ : s.recordSeq = 0
        case pos =>
          have hget := (h.stored _ r).mpr ⟨hmem, rfl⟩
          rw [hf.unspent h₀] at hget
          cases hget
        case neg =>
          obtain ⟨n, hn, hle, hid⟩ := h.ids.resolve_left h₀ r hmem
          rw [UInt64.le_iff_toNat_le] at hle
          exact ⟨n, hn, UInt64.le_iff_toNat_le.mpr (by omega), hid⟩
      · rw [List.mem_singleton.mp hmem]
        exact ⟨s'.recordSeq, hseq, UInt64.le_refl _, by rw [hr.seq, hr.id]⟩
  case docIds =>
    intro r hmem
    rcases List.mem_append.mp hmem with hmem | hmem
    · exact h.docIds r hmem
    · exact List.mem_singleton.mp hmem ▸ hr.docId
  case walk =>
    intro docId
    rw [hr.index]
    by_cases hd : docId = record.docId
    case pos =>
      subst hd
      rw [KVStore.under_set_last, h.walk, ofDocument_concat_self, List.map_append,
        List.map_singleton]
      intro e he
      rw [h.walk] at he
      obtain ⟨r, hmem, rfl⟩ := List.mem_map.mp he
      have hlt : r.version.toNat < record.version.toNat := by
        rw [hc.version]
        exact Nat.lt_succ_of_le (h.version_le hmem)
      exact UInt32.lt_iff_toNat_lt.mpr hlt
    case neg => rw [KVStore.under_set_ne hd, h.walk, ofDocument_concat_ne hd]
  case versions =>
    intro docId
    by_cases hd : docId = record.docId
    case pos =>
      subst hd
      rw [ofDocument_concat_self, List.map_append, h.versions, List.map_singleton, hc.version,
        List.length_append, List.length_singleton, List.range'_concat]
      simp [Nat.add_comm]
    case neg => rw [ofDocument_concat_ne hd, h.versions]
  case linked =>
    intro docId
    by_cases hd : docId = record.docId
    case pos =>
      subst hd
      rw [ofDocument_concat_self]
      exact (h.linked _).concat hc.root hc.last
    case neg =>
      rw [ofDocument_concat_ne hd]
      exact h.linked docId

end Numbered

theorem registrations_cons_some (history : List (Option DocumentRecord)) :
    registrations (some record :: history) = registrations history ++ [record] := by
  simp [registrations, List.reduceOption_append]

theorem registrations_cons_none (history : List (Option DocumentRecord)) :
    registrations (none :: history) = registrations history := by
  simp [registrations, List.reduceOption_append]

theorem numbered_invariant (k : Keeper) :
    (recorded k).Invariant (fun p a => Extends k p.1 a) fun p =>
      Numbered p.1 (registrations p.2) := by
  refine TransitionSystem.traced_invariant ?init ?step
  case init =>
    rintro s rfl
    exact ⟨fun key r => by simp [started, registrations], List.nodup_nil, .inl rfl,
      fun r hr => absurd hr List.not_mem_nil, fun _ => rfl, fun _ => rfl, fun _ =>
      ⟨fun r hr => (by cases hr), List.isChain_nil⟩⟩
  case step =>
    rintro s history a s' hs hg rfl
    cases a with
    | registerDocument blockTime msg =>
      cases hok : k.registerDocument blockTime msg s with
      | error e =>
        have hnone : k.created s (.registerDocument blockTime msg)
            (k.next s (.registerDocument blockTime msg)) = none := by
          simp only [Keeper.created, hok]
        rw [hnone, next_refused hok, registrations_cons_none]
        exact hs
      | ok res =>
        obtain ⟨hacc, record, hd, hp, hres, hr⟩ := of_registerDocument hok
        have hsome : k.created s (.registerDocument blockTime msg)
            (k.next s (.registerDocument blockTime msg)) = some record := by
          simp only [Keeper.created, hok, hres, next_registered hok, hr.records,
            KVStore.get_set_self]
        have hf : Fits msg s := hg blockTime msg rfl hacc
        rw [hsome, next_registered hok, registrations_cons_some]
        exact hs.registered hr hf (hs.continues hr hd hp hf)
    | updateParams authority params =>
      rw [Keeper.created, registrations_cons_none]
      rcases next_updateParams k s authority params with heq | heq
      · exact heq.symm ▸ hs
      · rw [heq]
        exact ⟨hs.stored, hs.distinct, hs.ids, hs.docIds, hs.walk, hs.versions, hs.linked⟩

-- While every registration fits, a document is a chain of versions.
theorem versions_chained (k : Keeper) {p : State × List (Option DocumentRecord)}
    (h : (recorded k).Run (fun p a => Extends k p.1 a) p) : Chained p.1 (registrations p.2) :=
  ((numbered_invariant k).holds h).chained

namespace Sample

def keeper : Keeper where
  addressCodec a  := some (AccAddress.ofBytes (a.toList.map Char.toNat))
  authority       := AccAddress.ofBytes [1]
  authorityString := "gov"

def hash : String := String.ofList (List.replicate 64 'a')

theorem hash_valid : hash.utf8ByteSize = 64 ∧ isHex hash = true := by
  decide +kernel

-- A version of the syllabus.
def syllabus (parentRecordId : String) : Msg :=
  .registerDocument 1768435200 {
    creator        := "operator"
    uploader       := "alice"
    docId          := "syllabus"
    sha256Hash     := hash
    parentRecordId := parentRecordId
  }

def version (recordId : String) (number : UInt32) (parentRecordId : String) : DocumentRecord where
  recordId       := recordId
  docId          := "syllabus"
  sha256Hash     := hash
  version        := number
  uploader       := "alice"
  parentRecordId := parentRecordId
  timestamp      := 1768435200

def first : State := keeper.next started (syllabus "")

def second : State := keeper.next first (syllabus "edu-1")

-- The same document is opened once more.
def reopened : State := keeper.next first (syllabus "")

theorem first_records : first.documentRecord.entries = [("edu-1", version "edu-1" 1 "")] := by
  decide +kernel

theorem of_first {key : String} {r : DocumentRecord} (h : first.documentRecord.get key = some r) :
    key = "edu-1" ∧ r = version "edu-1" 1 "" := by
  rw [← KVStore.mem_entries_iff, first_records, List.mem_singleton, Prod.mk.injEq] at h
  exact h

theorem started_extends : Extends keeper started (syllabus "") := by
  intro blockTime msg heq _
  cases heq
  exact ⟨fun _ key r hget => (by cases hget), fun hp => absurd rfl hp, fun _ hget => (by cases hget),
    fun _ => rfl⟩

theorem first_extends : Extends keeper first (syllabus "edu-1") := by
  intro blockTime msg heq _
  cases heq
  refine ⟨fun hp => absurd hp (by decide), fun _ key r hget => ?_, fun parent hget => ?_,
    fun hseq => absurd hseq (by decide +kernel)⟩
  · rw [(of_first hget).2]
    decide
  · rw [(of_first hget).2]
    decide

theorem first_created :
    keeper.created started (syllabus "") first = some (version "edu-1" 1 "") := by
  decide +kernel

theorem second_created :
    keeper.created first (syllabus "edu-1") second = some (version "edu-2" 2 "edu-1") := by
  decide +kernel

theorem first_run :
    (recorded keeper).Run (fun p a => Extends keeper p.1 a) (first, [some (version "edu-1" 1 "")]) := by
  have h : (recorded keeper).Run (fun p a => Extends keeper p.1 a)
      (first, [keeper.created started (syllabus "") first]) :=
    .traced_step (.traced_init rfl) started_extends rfl
  rwa [first_created] at h

theorem second_run :
    (recorded keeper).Run (fun p a => Extends keeper p.1 a)
      (second, [some (version "edu-2" 2 "edu-1"), some (version "edu-1" 1 "")]) := by
  have h : (recorded keeper).Run (fun p a => Extends keeper p.1 a)
      (second, [keeper.created first (syllabus "edu-1") second, some (version "edu-1" 1 "")]) :=
    .traced_step first_run first_extends rfl
  rwa [second_created] at h

end Sample

theorem second_chained :
    Chained Sample.second [Sample.version "edu-1" 1 "", Sample.version "edu-2" 2 "edu-1"] :=
  versions_chained Sample.keeper Sample.second_run

-- A document that is opened twice has two first versions, and its history knows only the second one.
theorem first_version_hidden :
    ¬∀ (k : Keeper) (p : State × List (Option DocumentRecord)), (recorded k).Reachable p →
      Chained p.1 (registrations p.2) := by
  intro h
  have hfirst := Sample.first_run.reachable
  have hrun : (recorded Sample.keeper).Reachable (Sample.reopened,
      [Sample.keeper.created Sample.first (Sample.syllabus "") Sample.reopened,
        some (Sample.version "edu-1" 1 "")]) :=
    .traced_step hfirst trivial rfl
  have hindexed := (h _ _ hrun).indexed
  have hget : Sample.reopened.documentRecord.get "edu-1" = some (Sample.version "edu-1" 1 "") := by
    decide +kernel
  have hindex : Sample.reopened.docVersionIndex.get (toLex ("syllabus", 1)) = some "edu-2" := by
    decide +kernel
  have heq : some "edu-2" = some "edu-1" := hindex.symm.trans (hindexed "edu-1" _ hget)
  exact absurd heq (by decide)

end Edu
