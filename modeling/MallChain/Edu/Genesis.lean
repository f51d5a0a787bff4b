import MallChain.Edu.Versions

namespace Edu

open Sdk

-- The sequence has ids left that it did not give out.
def NotExhausted (s : State) (_ : Msg) : Prop :=
  s.recordSeq.toNat + 1 < 2 ^ 64

-- No later registration takes the place of a record, and the documents have the same histories.
structure Safe (k : Keeper) (s s' : State) : Prop where
  fresh   : ∀ t, ((chain k).startingAt s').Run NotExhausted t → ∀ blockTime msg t' r,
    NotExhausted t (.registerDocument blockTime msg) →
    k.registerDocument blockTime msg t = .ok (t', r) → t.documentRecord.get r.recordId = none
  history : ∀ docId, getVersionHistory docId s' = getVersionHistory docId s

-- An export is imported into an empty store.
def RoundTrips (k : Keeper) (s : State) : Prop :=
  ∃ gs s', exportGenesis s = .ok gs ∧ initGenesis gs {} = .ok s' ∧ Safe k s s'

-- No record has an id of the sequence, and of records with the same version of a document the history
-- shows the one with the greatest id.
structure Portable (s : State) : Prop where
  unnumbered : ∀ n : UInt64, n ≠ 0 → s.documentRecord.get (recordID n) = none
  latest     : ∀ key r id, s.documentRecord.get key = some r →
    s.docVersionIndex.get (toLex (r.docId, r.version)) = some id → key ≤ id

-- The index of a store that came from a genesis.
structure Imported (s : State) : Prop where
  seq   : s.recordSeq = 0
  named : ∀ key id, s.docVersionIndex.get key = some id →
    ∃ r, s.documentRecord.get id = some r ∧ toLex (r.docId, r.version) = key
  entry : ∀ key r, s.documentRecord.get key = some r →
    s.docVersionIndex.get (toLex (r.docId, r.version)) ≠ none

structure Stored (s : State) : Prop where
  keyed  : s.documentRecord.Keyed (·.recordId)
  docIds : ∀ key r, s.documentRecord.get key = some r → stringDelimiter ∉ r.docId.toList
  params : s.params ≠ none
  origin : (∃ n : UInt64, n ≠ 0 ∧ s.documentRecord.get (recordID n) ≠ none) ∨ Imported s

variable {k : Keeper} {s s' t : State} {record r : DocumentRecord} {gs : GenesisState}
variable {l : List DocumentRecord} {docId : String} {n : UInt64}

theorem initRecords_eq_ok : initRecords l s = .ok s' ↔
    (∀ r ∈ l, stringDelimiter ∉ r.docId.toList) ∧ s' = { s with
      documentRecord  := l.foldl (fun m r => m.set r.recordId r) s.documentRecord
      docVersionIndex := l.foldl (fun m r => m.set (toLex (r.docId, r.version)) r.recordId)
        s.docVersionIndex
    } := by
  induction l generalizing s with
  | nil => simp [initRecords, eq_comm]
  | cons r l ih =>
    simp only [initRecords, Result.bind_eq_ok, join_eq_ok, ih, List.forall_mem_cons,
      List.foldl_cons]
    constructor
    · rintro ⟨key, ⟨hr, rfl⟩, hl, rfl⟩
      exact ⟨⟨hr, hl⟩, rfl⟩
    · rintro ⟨⟨hr, hl⟩, rfl⟩
      exact ⟨_, ⟨hr, rfl⟩, hl, rfl⟩

theorem initGenesis_eq_ok : initGenesis gs {} = .ok s ↔
    (∀ r ∈ gs.documentRecordMap, stringDelimiter ∉ r.docId.toList) ∧ s = {
      params          := some gs.params
      documentRecord  := .ofValues (·.recordId) gs.documentRecordMap
      docVersionIndex :=
        .indexOf (fun r => toLex (r.docId, r.version)) (·.recordId) gs.documentRecordMap
    } := by
  simp only [initGenesis, Result.bind_eq_ok, Result.pure_eq_ok, initRecords_eq_ok]
  constructor
  · rintro ⟨s₁, ⟨hl, rfl⟩, rfl⟩
    exact ⟨hl, rfl⟩
  · rintro ⟨hl, rfl⟩
    exact ⟨_, ⟨hl, rfl⟩, rfl⟩

theorem validateRecords_nodup {seen : List String}
    (h : GenesisState.validateRecords seen l = .ok ()) :
    (l.map (·.recordId)).Nodup ∧ ∀ r ∈ l, r.recordId ∉ seen := by
  induction l generalizing seen with
  | nil => simp
  | cons r l ih =>
    simp only [GenesisState.validateRecords, Result.bind_eq_ok, failIf_eq_ok] at h
    obtain ⟨_, hr, h⟩ := h
    obtain ⟨hnodup, hseen⟩ := ih h
    rw [List.map_cons, List.nodup_cons, List.mem_map]
    refine ⟨⟨?new, hnodup⟩, ?unseen⟩
    case new =>
      rintro ⟨r', hmem, heq⟩
      exact hseen r' hmem (heq ▸ List.mem_cons_self ..)
    case unseen =>
      intro r' hmem
      rcases List.mem_cons.mp hmem with rfl | hmem
      · exact hr
      · exact fun hin => hseen r' hmem (List.mem_cons_of_mem _ hin)

theorem Imported.ofGenesis (hv : gs.validate = .ok ()) (h : initGenesis gs {} = .ok s) :
    Imported s := by
  obtain ⟨_, rfl⟩ := initGenesis_eq_ok.mp h
  have hnodup := (validateRecords_nodup hv).1
  refine ⟨rfl, fun key id hget => ?named, fun key r hget => ?entry⟩
  case named =>
    rw [KVStore.indexOf, KVStore.get_foldl_last, KVStore.get_empty, Option.or_none,
      Option.map_eq_some_iff] at hget
    obtain ⟨r, hlast, rfl⟩ := hget
    obtain ⟨hmem, hkey⟩ := List.mem_filter.mp (List.mem_of_getLast? hlast)
    refine ⟨r, ?_, of_decide_eq_true hkey⟩
    exact (KVStore.get_foldl_set hnodup).mpr (.inl ⟨hmem, rfl⟩)
  case entry =>
    obtain ⟨hmem, _⟩ := KVStore.mem_of_get_ofValues hget
    rw [KVStore.indexOf, KVStore.get_foldl_last, KVStore.get_empty, Option.or_none, ne_eq,
      Option.map_eq_none_iff, List.getLast?_eq_none_iff, List.filter_eq_nil_iff]
    exact fun hall => hall r hmem (decide_eq_true rfl)

theorem get_registered (h : Registered record s s') {key : String}
    (hkey : s.documentRecord.get key ≠ none) : s'.documentRecord.get key ≠ none := by
  rw [h.records, KVStore.get_set]
  split
  case isTrue => exact Option.some_ne_none _
  case isFalse => exact hkey

theorem Stored.registered (h : Stored s) (hr : Registered record s s') : Stored s' where
  keyed  := hr.records ▸ h.keyed.set rfl
  params := hr.params ▸ h.params
  docIds := by
    intro key r hget
    rw [hr.records, KVStore.get_set] at hget
    split at hget
    case isTrue =>
      cases hget
      exact hr.docId
    case isFalse => exact h.docIds key r hget
  origin := by
    refine .inl ?_
    rcases h.origin with ⟨n, hn, hget⟩ | hi
    · exact ⟨n, hn, get_registered hr hget⟩
    · refine ⟨1, by decide, ?_⟩
      have hid : recordID 1 = record.recordId := by
        rw [hr.id, hi.seq]
        rfl
      rw [hid, hr.records, KVStore.get_set_self]
      exact Option.some_ne_none _

theorem stored_invariant (k : Keeper) : (chain k).Invariant (fun _ _ => True) Stored where
  init := by
    rintro s ⟨gs, hv, h⟩
    have hi := Imported.ofGenesis hv h
    obtain ⟨hdelim, rfl⟩ := initGenesis_eq_ok.mp h
    exact ⟨KVStore.keyed_ofValues, fun key r hget => hdelim r (KVStore.mem_of_get_ofValues hget).1,
      Option.some_ne_none _, .inr hi⟩
  step := by
    rintro s a s' hs _ rfl
    cases a with
    | registerDocument blockTime msg =>
      cases hok : k.registerDocument blockTime msg s with
      | error e => exact (next_refused hok).symm ▸ hs
      | ok res =>
        obtain ⟨_, record, _, _, _, hr⟩ := of_registerDocument hok
        exact (next_registered hok).symm ▸ hs.registered hr
    | updateParams authority params =>
      rcases next_updateParams k s authority params with heq | heq
      · exact heq.symm ▸ hs
      · rw [heq]
        exact ⟨hs.keyed, hs.docIds, Option.some_ne_none _,
          hs.origin.imp_right fun hi => ⟨hi.seq, hi.named, hi.entry⟩⟩

-- The store after an export and an import.
structure Reimported (s s' : State) : Prop where
  seq     : s'.recordSeq = 0
  records : s'.documentRecord = s.documentRecord
  index   : s'.docVersionIndex =
    .indexOf (fun r => toLex (r.docId, r.version)) (·.recordId) s.documentRecord.values

theorem Stored.of_reimport (h : Stored s) (he : exportGenesis s = .ok gs)
    (hi : initGenesis gs {} = .ok s') : Reimported s s' := by
  simp only [exportGenesis, Result.bind_eq_ok, Result.pure_eq_ok] at he
  obtain ⟨params, _, rfl⟩ := he
  obtain ⟨_, rfl⟩ := initGenesis_eq_ok.mp hi
  exact ⟨rfl, KVStore.ofValues_values h.keyed, rfl⟩

theorem Stored.reimport (h : Stored s) :
    ∃ gs s', exportGenesis s = .ok gs ∧ initGenesis gs {} = .ok s' := by
  obtain ⟨params, hp⟩ := Option.ne_none_iff_exists'.mp h.params
  have he : exportGenesis s = .ok ⟨params, s.documentRecord.values⟩ := by
    rw [exportGenesis, hp]
    rfl
  refine ⟨_, _, he, initGenesis_eq_ok.mpr ⟨fun r hmem => ?_, rfl⟩⟩
  obtain ⟨key, hget⟩ := KVStore.mem_values_iff.mp hmem
  exact h.docIds key r hget

-- The ids that the sequence has not reached are free.
def Ahead (s : State) : Prop :=
  ∀ n : UInt64, s.recordSeq < n → s.documentRecord.get (recordID n) = none

theorem ahead_invariant (h : Ahead s) :
    ((chain k).startingAt s).Invariant NotExhausted Ahead where
  init := by
    rintro t rfl
    exact h
  step := by
    rintro t a t' ht hg rfl
    cases a with
    | registerDocument blockTime msg =>
      cases hok : k.registerDocument blockTime msg t with
      | error e => exact (next_refused hok).symm ▸ ht
      | ok res =>
        obtain ⟨_, record, _, _, _, hr⟩ := of_registerDocument hok
        rw [next_registered hok]
        intro n hn
        have hseq : res.1.recordSeq.toNat = t.recordSeq.toNat + 1 := by
          rw [hr.seq, UInt64.toNat_add, UInt64.toNat_one]
          exact Nat.mod_eq_of_lt hg
        rw [UInt64.lt_iff_toNat_lt, hseq] at hn
        have hne : recordID n ≠ record.recordId := by
          rw [hr.id, ← hr.seq]
          intro heq
          have hnat := congrArg UInt64.toNat (recordID_inj heq)
          omega
        rw [hr.records, KVStore.get_set_ne hne]
        exact ht n (UInt64.lt_iff_toNat_lt.mpr (by omega))
    | updateParams authority params =>
      rcases next_updateParams k t authority params with heq | heq
      · exact heq.symm ▸ ht
      · exact heq ▸ ht

theorem Ahead.fresh (h : Ahead s) (hr : Registered record s s')
    (hlt : s.recordSeq.toNat + 1 < 2 ^ 64) : s.documentRecord.get record.recordId = none := by
  rw [hr.id]
  refine h _ (UInt64.lt_iff_toNat_lt.mpr ?_)
  rw [UInt64.toNat_add, UInt64.toNat_one, Nat.mod_eq_of_lt hlt]
  exact Nat.lt_succ_self _

-- Where the history shows the greatest ids, the index is rebuilt as it was.
theorem Reimported.index_eq (h : Reimported s s') (hs : Stored s) (hi : Imported s)
    (hp : Portable s) : s'.docVersionIndex = s.docVersionIndex := by
  refine KVStore.eq_of_get fun key => Option.ext fun id => ?_
  rw [h.index, KVStore.get_indexOf_values hs.keyed]
  constructor
  case mp =>
    rintro ⟨⟨r, hget, hkey⟩, hmax⟩
    obtain ⟨id', hid'⟩ := Option.ne_none_iff_exists'.mp (hi.entry id r hget)
    obtain ⟨r', hget', hkey'⟩ := hi.named _ id' hid'
    have hid : id = id' :=
      le_antisymm (hp.latest id r id' hget hid') (hmax id' r' hget' (hkey'.trans hkey))
    rw [hid, ← hkey]
    exact hid'
  case mpr =>
    intro hget
    refine ⟨hi.named key id hget, fun key' r' hget' hkey' => ?_⟩
    exact hp.latest key' r' id hget' (hkey'.symm ▸ hget)

theorem Portable.safe (hp : Portable s) (hs : Stored s) (h : Reimported s s') : Safe k s s' where
  fresh t ht blockTime msg t' r hlt hok := by
    have hahead : Ahead s' := by
      intro n hn
      rw [h.records]
      refine hp.unnumbered n ?_
      rintro rfl
      exact absurd hn (h.seq ▸ UInt64.lt_irrefl 0)
    obtain ⟨_, record, _, _, rfl, hr⟩ := of_registerDocument hok
    exact ((ahead_invariant hahead).holds ht).fresh hr hlt
  history docId := by
    have hi : Imported s := by
      refine hs.origin.resolve_left ?_
      rintro ⟨n, hn, hne⟩
      exact hne (hp.unnumbered n hn)
    rw [getVersionHistory, getVersionHistory, h.index_eq hs hi hp, h.records]

-- A registration that is accepted in every state.
def opening (creator : String) : MsgRegisterDocument where
  creator        := creator
  uploader       := "uploader"
  docId          := "document"
  sha256Hash     := Sample.hash
  parentRecordId := ""

theorem opening_accepted {creator : String} (h : k.addressCodec creator ≠ none) :
    Accepted k (opening creator) s where
  creator    := h
  uploader   := (by decide : "uploader" ≠ "")
  docId      := (by decide : "document" ≠ "" ∧ stringDelimiter ∉ "document".toList)
  hash       := Sample.hash_valid
  parent hne := absurd rfl hne

-- The sequence reaches every number, and no record is lost on the way.
theorem reaches {creator : String} (hc : k.addressCodec creator ≠ none) (hseq : s.recordSeq = 0)
    (m : ℕ) (hm : m < 2 ^ 64) : ∃ t, ((chain k).startingAt s).Run NotExhausted t ∧
      t.recordSeq.toNat = m ∧
      ∀ key, s.documentRecord.get key ≠ none → t.documentRecord.get key ≠ none := by
  induction m with
  | zero => exact ⟨s, .init rfl, by rw [hseq]; rfl, fun _ hne => hne⟩
  | succ m ih =>
    obtain ⟨t, hrun, hm', hkeep⟩ := ih (Nat.lt_of_succ_lt hm)
    obtain ⟨t', r, hok⟩ := (opening_accepted (s := t) hc).registered 0
    obtain ⟨_, record, _, _, _, hr⟩ := of_registerDocument hok
    have hlt : NotExhausted t (.registerDocument 0 (opening creator)) := by
      rw [NotExhausted, hm']
      exact hm
    refine ⟨t', .step hrun hlt (next_registered hok).symm, ?seq, fun key hne => ?keep⟩
    case seq =>
      rw [hr.seq, UInt64.toNat_add, UInt64.toNat_one, hm']
      exact Nat.mod_eq_of_lt hm
    case keep => exact get_registered hr (hkeep key hne)

theorem Safe.unnumbered (h : Safe k s s') (hre : Reimported s s')
    (hc : ∃ creator, k.addressCodec creator ≠ none) (hn : n ≠ 0) :
    s.documentRecord.get (recordID n) = none := by
  by_contra hne
  obtain ⟨creator, hc⟩ := hc
  have hpos : n.toNat ≠ 0 := fun h₀ => hn (UInt64.toNat_inj.mp h₀)
  have hn' := n.toNat_lt
  obtain ⟨t, hrun, hseq, hkeep⟩ := reaches hc hre.seq (n.toNat - 1) (by omega)
  obtain ⟨t', r, hok⟩ := (opening_accepted (s := t) hc).registered 0
  have hlt : NotExhausted t (.registerDocument 0 (opening creator)) := by
    rw [NotExhausted, hseq]
    omega
  have hfree := h.fresh t hrun 0 (opening creator) t' r hlt hok
  obtain ⟨_, record, _, _, rfl, hr⟩ := of_registerDocument hok
  have hid : t.recordSeq + 1 = n := by
    apply UInt64.toNat_inj.mp
    rw [UInt64.toNat_add, UInt64.toNat_one, hseq]
    omega
  rw [hr.id, hid] at hfree
  exact hkeep _ (hre.records ▸ hne) hfree

theorem mem_of_mapM {α β : Type} {f : α → Result β} {xs : List α} {ys : List β}
    (h : xs.mapM f = .ok ys) {y : β} : y ∈ ys ↔ ∃ x ∈ xs, f x = .ok y := by
  induction xs generalizing ys with
  | nil =>
    cases h
    simp
  | cons x xs ih =>
    simp only [List.mapM_cons, Result.bind_eq_ok, Result.pure_eq_ok] at h
    obtain ⟨y₀, hx, ys', hxs, rfl⟩ := h
    simp only [List.mem_cons, ih hxs, exists_eq_or_imp, hx, Except.ok.injEq, eq_comm (a := y)]

theorem mem_getVersionHistory {records : List DocumentRecord}
    (h : getVersionHistory docId s = .ok records) : r ∈ records ↔ ∃ version id,
      s.docVersionIndex.get (toLex (docId, version)) = some id ∧
      s.documentRecord.get id = some r := by
  simp only [getVersionHistory, Result.bind_eq_ok] at h
  obtain ⟨_, _, h⟩ := h
  simp only [mem_of_mapM h, orFail_eq_ok, Prod.exists, KVStore.mem_under_iff]

theorem mapM_ok {α β : Type} {f : α → Result β} {xs : List α}
    (h : ∀ x ∈ xs, ∃ y, f x = .ok y) : ∃ ys, xs.mapM f = .ok ys := by
  induction xs with
  | nil => exact ⟨[], rfl⟩
  | cons x xs ih =>
    obtain ⟨y, hy⟩ := h x (List.mem_cons_self ..)
    obtain ⟨ys, hys⟩ := ih fun x' hx' => h x' (List.mem_cons_of_mem _ hx')
    exact ⟨y :: ys, by rw [List.mapM_cons, hy, hys]; rfl⟩

theorem Imported.history (h : Imported s) (hd : stringDelimiter ∉ docId.toList) :
    ∃ records, getVersionHistory docId s = .ok records := by
  rw [getVersionHistory, failIf, if_neg hd]
  refine mapM_ok fun e he => ?_
  obtain ⟨r, hget, _⟩ := h.named _ e.2 (KVStore.mem_under_iff.mp he)
  exact ⟨r, by rw [hget]; rfl⟩

-- A history shows the same record before and after only if it has the greatest id of its version.
theorem Safe.latest (h : Safe k s s') (hs : Stored s) (hi : Imported s) (hre : Reimported s s')
    {key id : String} (hget : s.documentRecord.get key = some r)
    (hid : s.docVersionIndex.get (toLex (r.docId, r.version)) = some id) : key ≤ id := by
  obtain ⟨shown, hshown, hkey⟩ := hi.named _ id hid
  obtain ⟨records, hrecords⟩ := hi.history (hs.docIds key r hget)
  have hmem : shown ∈ records := (mem_getVersionHistory hrecords).mpr ⟨r.version, id, hid, hshown⟩
  obtain ⟨version, id', hid', hshown'⟩ :=
    (mem_getVersionHistory ((h.history r.docId).trans hrecords)).mp hmem
  rw [hre.records] at hshown'
  have hsame : id' = id := (hs.keyed id' shown hshown').symm.trans (hs.keyed id shown hshown)
  rw [hre.index, KVStore.get_indexOf_values hs.keyed] at hid'
  obtain ⟨⟨shown'', hget'', hkey''⟩, hmax⟩ := hid'
  rw [hsame, hshown] at hget''
  cases hget''
  exact hsame ▸ hmax key r hget (hkey.symm.trans hkey'')

-- An export and an import are safe exactly where no record bears an id of the sequence and the
-- histories show the greatest ids. The codec knows at least one address.
theorem roundTrips_iff_portable (k : Keeper) (hc : ∃ creator, k.addressCodec creator ≠ none)
    {s : State} (h : (chain k).Reachable s) : RoundTrips k s ↔ Portable s := by
  have hs := (stored_invariant k).holds h
  constructor
  case mp =>
    rintro ⟨gs, s', he, hinit, hsafe⟩
    have hre := hs.of_reimport he hinit
    have hun : ∀ n : UInt64, n ≠ 0 → s.documentRecord.get (recordID n) = none :=
      fun n hn => hsafe.unnumbered hre hc hn
    have hi : Imported s := by
      refine hs.origin.resolve_left ?_
      rintro ⟨n, hn, hne⟩
      exact hne (hun n hn)
    exact ⟨hun, fun key r id hget hid => hsafe.latest hs hi hre hget hid⟩
  case mpr =>
    intro hp
    obtain ⟨gs, s', he, hinit⟩ := hs.reimport
    exact ⟨gs, s', he, hinit, hp.safe hs (hs.of_reimport he hinit)⟩

namespace Sample

theorem operator_known : ∃ creator, keeper.addressCodec creator ≠ none :=
  ⟨"operator", Option.some_ne_none _⟩

-- A genesis with a record from elsewhere.
def carried : GenesisState where
  documentRecordMap := [version "archive-7" 1 ""]

def restored : State where
  params          := some {}
  documentRecord  := .ofValues (·.recordId) carried.documentRecordMap
  docVersionIndex :=
    .indexOf (fun r => toLex (r.docId, r.version)) (·.recordId) carried.documentRecordMap

theorem restored_reachable : (chain keeper).Reachable restored := by
  refine .init ⟨carried, by decide +kernel, initGenesis_eq_ok.mpr ⟨fun r hmem => ?_, rfl⟩⟩
  rw [List.mem_singleton.mp hmem]
  decide +kernel

theorem first_reachable : (chain keeper).Reachable first := by
  have hinit : (chain keeper).init started := ⟨{}, rfl, rfl⟩
  exact .step (a := syllabus "") (.init hinit) trivial rfl

end Sample

theorem restored_roundTrips_iff :
    RoundTrips Sample.keeper Sample.restored ↔ Portable Sample.restored :=
  roundTrips_iff_portable Sample.keeper Sample.operator_known Sample.restored_reachable

-- The first registration after an import takes the place of the first record.
theorem record_overwritten :
    ¬∀ (k : Keeper) (s : State), (chain k).Reachable s → RoundTrips k s := by
  intro h
  obtain ⟨gs, s', he, hinit, hsafe⟩ := h Sample.keeper Sample.first Sample.first_reachable
  have hs := (stored_invariant Sample.keeper).holds Sample.first_reachable
  have hnone : Sample.first.documentRecord.get (recordID 1) = none :=
    hsafe.unnumbered (hs.of_reimport he hinit) Sample.operator_known (by decide)
  have hsome : Sample.first.documentRecord.get (recordID 1) = some (Sample.version "edu-1" 1 "") := by
    decide +kernel
  cases hsome.symm.trans hnone

end Edu
