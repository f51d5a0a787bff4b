import MallChain.Edu.Anchoring

namespace Edu.Anchoring

open Sdk Interleaving

-- The document still points at the record with its version number, and points at no record with the same
-- content with a smaller one.
def Distinctive (docId sha256Hash : String) (response : MsgRegisterDocumentResponse) (s : State) : Prop :=
  s.docVersionIndex.get (toLex (docId, response.version)) = some response.recordId ∧
    ∀ e ∈ s.docVersionIndex.under docId, e.1 < response.version →
      ∀ record, s.documentRecord.get e.2 = some record → record.sha256Hash ≠ sha256Hash

-- A new version names a parent, the history is searched where the new record is the first with its content,
-- and neither the ids nor the version numbers come to their end.
def anchorGuard : Label → World → Prop
  | .registering previousResourceId msg, w =>
    (previousResourceId ≠ none → msg.parentRecordId ≠ "") ∧ w.chain.recordSeq.toNat + 1 < 2 ^ 64 ∧
      ∀ parent, w.chain.documentRecord.get msg.parentRecordId = some parent →
        parent.version.toNat + 1 < 2 ^ 32
  | .delivering _, w                         => w.chain.recordSeq.toNat + 1 < 2 ^ 64
  | .searching docId sha256Hash response, w => Distinctive docId sha256Hash response w.chain
  | _, _                                     => True

instance decidableDistinctive (docId sha256Hash : String) (response : MsgRegisterDocumentResponse)
    (s : State) : Decidable (Distinctive docId sha256Hash response s) :=
  decidable_of_iff (s.docVersionIndex.get (toLex (docId, response.version)) = some response.recordId ∧
    ∀ e ∈ s.docVersionIndex.under docId, e.1 < response.version →
      (s.documentRecord.get e.2).all (·.sha256Hash ≠ sha256Hash))
    (by simp [Distinctive, Option.all_eq_true])

instance decidableAnchorGuard : (label : Label) → (w : World) → Decidable (anchorGuard label w)
  | .registering previousResourceId msg, w =>
    decidable_of_iff ((previousResourceId ≠ none → msg.parentRecordId ≠ "") ∧
      w.chain.recordSeq.toNat + 1 < 2 ^ 64 ∧
        (w.chain.documentRecord.get msg.parentRecordId).all (·.version.toNat + 1 < 2 ^ 32))
      (by simp [anchorGuard, Option.all_eq_true])
  | .delivering _, w => inferInstanceAs (Decidable (w.chain.recordSeq.toNat + 1 < 2 ^ 64))
  | .searching docId sha256Hash response, w =>
    inferInstanceAs (Decidable (Distinctive docId sha256Hash response w.chain))
  | .read, _ | .write, _ => .isTrue trivial

-- The chain answered the transaction of a resource with this record.
def World.Answered (w : World) (id : String) (response : MsgRegisterDocumentResponse) : Prop :=
  (id, response) ∈ w.registrations

-- The parent of a record is the one of the resource that was replaced, if there is one.
def World.Links (w : World) (previousResourceId : Option String) (parentRecordId : String) : Prop :=
  match previousResourceId with
  | none            => parentRecordId = ""
  | some previousId => ∃ response, w.Answered previousId response ∧ parentRecordId = response.recordId

-- The record of a resource, as the chain has answered to its transaction.
structure Owns (w : World) (id : String) (previousResourceId : Option String)
    (response : MsgRegisterDocumentResponse) (record : DocumentRecord) : Prop where
  answered : w.Answered id response
  stored   : w.chain.documentRecord.get response.recordId = some record
  version  : record.version = response.version
  links    : w.Links previousResourceId record.parentRecordId

-- Each registered resource holds its own record, and no two hold the same one.
structure Bound (w : World) : Prop where
  owns     : ∀ id resource, w.resources.get id = some resource → resource.chainStatus = .registered →
    ∃ response record, Owns w id resource.previousResourceId response record ∧
      resource.chainRecordId = response.recordId ∧ resource.chainVersion = response.version.toNat
  distinct : ∀ id id' resource resource', w.resources.get id = some resource →
    w.resources.get id' = some resource' → resource.chainStatus = .registered →
    resource'.chainStatus = .registered → resource.chainRecordId = resource'.chainRecordId → id = id'

section Chain

variable {k : Keeper} {s s' : State} {msg : MsgRegisterDocument} {blockTime : ℤ}
  {response : MsgRegisterDocumentResponse} {docId sha256Hash : String} {history : List DocumentRecord}

-- The ids are given out in their order, and the index names records with its keys.
structure Ordered (s : State) : Prop where
  ahead : Ahead s
  keyed : s.documentRecord.Keyed (·.recordId)
  named : ∀ key id, s.docVersionIndex.get key = some id →
    ∃ r, s.documentRecord.get id = some r ∧ toLex (r.docId, r.version) = key

-- Records stay.
def Grows (s s' : State) : Prop :=
  ∀ key r, s.documentRecord.get key = some r → s'.documentRecord.get key = some r

theorem Registered.grows {record : DocumentRecord} (h : Ordered s) (hr : Registered record s s')
    (hseq : s.recordSeq.toNat + 1 < 2 ^ 64) : Grows s s' := by
  intro key r hget
  have hne : key ≠ record.recordId := by
    rintro rfl
    rw [h.ahead.fresh hr hseq] at hget
    cases hget
  rw [hr.records, KVStore.get_set_ne hne]
  exact hget

theorem Ordered.next (h : Ordered s) (msg : Msg) (hseq : s.recordSeq.toNat + 1 < 2 ^ 64) :
    Ordered (k.next s msg) ∧ Grows s (k.next s msg) := by
  have hahead : Ahead (k.next s msg) := (ahead_invariant h.ahead).step (a := msg) h.ahead hseq rfl
  cases msg with
  | registerDocument blockTime msg =>
    cases hok : k.registerDocument blockTime msg s with
    | error e =>
      rw [next_refused hok]
      exact ⟨h, fun _ _ hget => hget⟩
    | ok res =>
      obtain ⟨_, record, _, _, _, hr⟩ := of_registerDocument hok
      rw [next_registered hok] at hahead ⊢
      have hgrows := Registered.grows h hr hseq
      refine ⟨⟨hahead, hr.records ▸ h.keyed.set rfl, fun key id hget => ?_⟩, hgrows⟩
      rw [hr.index, KVStore.get_set] at hget
      split_ifs at hget with hkey
      case pos =>
        cases hget
        exact ⟨record, by rw [hr.records, KVStore.get_set_self], hkey.symm⟩
      case neg =>
        obtain ⟨r, hr, hnamed⟩ := h.named key id hget
        exact ⟨r, hgrows id r hr, hnamed⟩
  | updateParams authority params =>
    rcases next_updateParams k s authority params with heq | heq
    case inl => exact heq.symm ▸ ⟨h, fun _ _ hget => hget⟩
    case inr => exact heq.symm ▸ ⟨⟨h.ahead, h.keyed, h.named⟩, fun _ _ hget => hget⟩

theorem ordered_started : Ordered started where
  ahead _ _       := rfl
  keyed _ _ hget  := by cases hget
  named _ _ hget  := by cases hget

-- The record that the chain answers with, and the number that it counts on from its parent.
theorem stored_of_registerDocument (h : k.registerDocument blockTime msg s = .ok (s', response)) :
    ∃ record, s'.documentRecord.get response.recordId = some record ∧ record.version = response.version ∧
      record.sha256Hash = msg.sha256Hash ∧ record.parentRecordId = msg.parentRecordId ∧
        response.recordId = recordID (s.recordSeq + 1) := by
  simp only [Keeper.registerDocument, Result.bind_eq_ok, join_eq_ok, Result.pure_eq_ok,
    Prod.mk.injEq] at h
  obtain ⟨_, _, _, _, _, _, _, _, _, _, version, _, key, _, rfl, rfl⟩ := h
  exact ⟨_, KVStore.get_set_self, rfl, rfl, rfl, rfl⟩

theorem version_ne_zero (h : k.registerDocument blockTime msg s = .ok (s', response))
    (hspace : ∀ parent, s.documentRecord.get msg.parentRecordId = some parent →
      parent.version.toNat + 1 < 2 ^ 32) : response.version ≠ 0 := by
  obtain ⟨_, record, _, hparent, rfl, hr⟩ := of_registerDocument h
  by_cases hroot : record.parentRecordId = ""
  case pos =>
    rw [hr.root hroot]
    exact UInt32.zero_lt_one.ne'
  case neg =>
    obtain ⟨parent, hget, _, hversion⟩ := hr.child hroot
    have hlt := hspace parent (hparent ▸ hget)
    rw [hversion]
    intro hz
    have hnat := congrArg UInt32.toNat hz
    rw [UInt32.toNat_add, UInt32.toNat_one, Nat.mod_eq_of_lt hlt] at hnat
    exact absurd hnat (Nat.succ_ne_zero _)

-- The first value that passes a test, along a list in increasing order.
theorem find_mapM {f : UInt32 × String → Result DocumentRecord} {xs : List (UInt32 × String)}
    {ys : List DocumentRecord} {test : DocumentRecord → Bool} {e : UInt32 × String} {y : DocumentRecord}
    (h : xs.mapM f = .ok ys) (hsorted : xs.Pairwise (·.1 < ·.1)) (he : e ∈ xs) (hf : f e = .ok y)
    (hy : test y = true) (hfirst : ∀ e' ∈ xs, e'.1 < e.1 → ∀ y', f e' = .ok y' → test y' = false) :
    ys.find? test = some y := by
  induction xs generalizing ys with
  | nil => cases he
  | cons x xs ih =>
    simp only [List.mapM_cons, Result.bind_eq_ok, Result.pure_eq_ok] at h
    obtain ⟨y₀, hx, ys', hxs, rfl⟩ := h
    obtain ⟨hhead, htail⟩ := List.pairwise_cons.mp hsorted
    cases List.mem_cons.mp he with
    | inl heq =>
      rw [← heq, hf] at hx
      cases hx
      rw [List.find?_cons_of_pos hy]
    | inr he =>
      have hskip := hfirst x List.mem_cons_self (hhead e he) y₀ hx
      rw [List.find?_cons_of_neg (by simp [hskip])]
      exact ih hxs htail he fun e' he' => hfirst e' (List.mem_cons_of_mem x he')

-- Where the new record is the first with its content, the walk finds it.
theorem find_own {record : DocumentRecord} (hd : Distinctive docId sha256Hash response s)
    (hget : s.documentRecord.get response.recordId = some record) (hash : record.sha256Hash = sha256Hash)
    (h : getVersionHistory docId s = .ok history) :
    history.find? (·.sha256Hash = sha256Hash) = some record := by
  simp only [getVersionHistory, Result.bind_eq_ok] at h
  obtain ⟨_, _, h⟩ := h
  refine find_mapM h KVStore.under_sorted (KVStore.mem_under_iff.mpr hd.1) ?_ (decide_eq_true hash) ?_
  case refine_1 => rw [hget]; rfl
  case refine_2 =>
    intro e he hlt other hother
    exact decide_eq_false (hd.2 e he hlt other (orFail_eq_ok.mp hother))

end Chain

section Worlds

variable {w w' w'' : World} {id : String} {previousResourceId : Option String} {parentRecordId : String}
  {response : MsgRegisterDocumentResponse} {record : DocumentRecord} {resource : EduResource}
  {f : EduResource → EduResource}

structure Kept (w : World) : Prop where
  ordered  : Ordered w.chain
  logged   : ∀ id response, w.Answered id response →
    ∃ record, w.chain.documentRecord.get response.recordId = some record
  distinct : (w.registrations.map (·.2.recordId)).Nodup
  held     : ∀ id resource, w.resources.get id = some resource → resource.chainRecordId ≠ "" →
    ∃ response, w.Answered id response ∧ resource.chainRecordId = response.recordId
  owns     : ∀ id resource, w.resources.get id = some resource → resource.chainStatus = .registered →
    ∃ response record, Owns w id resource.previousResourceId response record ∧
      resource.chainRecordId = response.recordId ∧ resource.chainVersion = response.version.toNat

-- What is never taken back.
structure Forward (w w' : World) : Prop where
  chain     : Grows w.chain w'.chain
  answered  : ∀ id response, w.Answered id response → w'.Answered id response
  resources : ∀ id resource, w.resources.get id = some resource → ∃ resource',
    w'.resources.get id = some resource' ∧ resource'.previousResourceId = resource.previousResourceId

theorem Forward.refl (w : World) : Forward w w where
  chain _ _ hget         := hget
  answered _ _ h         := h
  resources _ resource h := ⟨resource, h, rfl⟩

theorem Forward.trans (h : Forward w w') (h' : Forward w' w'') : Forward w w'' where
  chain key r hget     := h'.chain key r (h.chain key r hget)
  answered id r ha     := h'.answered id r (h.answered id r ha)
  resources id r hget  := by
    obtain ⟨r', hget', heq⟩ := h.resources id r hget
    obtain ⟨r'', hget'', heq'⟩ := h'.resources id r' hget'
    exact ⟨r'', hget'', heq'.trans heq⟩

theorem World.Links.mono (h : w.Links previousResourceId parentRecordId) (hf : Forward w w') :
    w'.Links previousResourceId parentRecordId := by
  cases previousResourceId with
  | none => exact h
  | some previousId =>
    obtain ⟨response, ha, heq⟩ := h
    exact ⟨response, hf.answered _ _ ha, heq⟩

theorem Owns.mono (h : Owns w id previousResourceId response record) (hf : Forward w w') :
    Owns w' id previousResourceId response record where
  answered := hf.answered _ _ h.answered
  stored   := hf.chain _ _ h.stored
  version  := h.version
  links    := h.links.mono hf

-- Two resources that hold the same record have the same transaction.
theorem Kept.answered_inj (h : Kept w) {id' : String} {response' : MsgRegisterDocumentResponse}
    (ha : w.Answered id response) (ha' : w.Answered id' response')
    (heq : response.recordId = response'.recordId) : id = id' :=
  congrArg Prod.fst (List.inj_on_of_nodup_map h.distinct ha ha' heq)

theorem Kept.bound (h : Kept w) : Bound w where
  owns := h.owns
  distinct id id' resource resource' hget hget' hs hs' heq := by
    obtain ⟨response, _, howns, hheld, _⟩ := h.owns id resource hget hs
    obtain ⟨response', _, howns', hheld', _⟩ := h.owns id' resource' hget' hs'
    exact h.answered_inj howns.answered howns'.answered (hheld.symm.trans (heq.trans hheld'))

theorem updateResource_eq (id : String) (f : EduResource → EduResource) (w : World) : ∃ resources,
    w.updateResource id f = { w with resources } ∧ ∀ id', resources.get id' =
      if id' = id then (w.resources.get id').map f else w.resources.get id' := by
  rw [World.updateResource]
  cases hget : w.resources.get id with
  | none =>
    refine ⟨_, rfl, fun id' => ?_⟩
    split_ifs with heq
    case pos => rw [heq, hget, Option.map_none]
    case neg => rfl
  | some resource =>
    refine ⟨_, rfl, fun id' => ?_⟩
    rw [KVStore.get_set]
    split_ifs with heq
    case pos => rw [heq, hget, Option.map_some]
    case neg => rfl

-- An update of a resource is kept when what the resource holds afterwards is its own.
theorem Kept.updateResource (h : Kept w)
    (hprevious : ∀ resource, (f resource).previousResourceId = resource.previousResourceId)
    (hheld : ∀ resource, w.resources.get id = some resource → (f resource).chainRecordId ≠ "" →
      ∃ response, w.Answered id response ∧ (f resource).chainRecordId = response.recordId)
    (howns : ∀ resource, w.resources.get id = some resource → (f resource).chainStatus = .registered →
      ∃ response record, Owns w id resource.previousResourceId response record ∧
        (f resource).chainRecordId = response.recordId ∧
        (f resource).chainVersion = response.version.toNat) :
    Kept (w.updateResource id f) ∧ Forward w (w.updateResource id f) := by
  obtain ⟨resources, hw, hresources⟩ := updateResource_eq id f w
  rw [hw]
  have hforward : Forward w { w with resources } := by
    refine ⟨fun _ _ hget => hget, fun _ _ ha => ha, fun id' resource hget => ?_⟩
    dsimp only
    rw [hresources, hget]
    split_ifs
    case pos => exact ⟨f resource, rfl, hprevious resource⟩
    case neg => exact ⟨resource, rfl, rfl⟩
  refine ⟨⟨h.ordered, h.logged, h.distinct, fun id' resource hget hne => ?_, fun id' resource hget hs => ?_⟩,
    hforward⟩
  case refine_1 =>
    dsimp only at hget
    rw [hresources] at hget
    split_ifs at hget with heq
    case pos =>
      obtain ⟨before, hbefore, rfl⟩ := Option.map_eq_some_iff.mp hget
      exact heq ▸ hheld before (heq ▸ hbefore) hne
    case neg => exact h.held id' resource hget hne
  case refine_2 =>
    dsimp only at hget
    rw [hresources] at hget
    split_ifs at hget with heq
    case pos =>
      obtain ⟨before, hbefore, rfl⟩ := Option.map_eq_some_iff.mp hget
      obtain ⟨response, record, ho, hid, hversion⟩ := howns before (heq ▸ hbefore) hs
      refine ⟨response, record, ?_, hid, hversion⟩
      rw [hprevious, heq]
      exact ho.mono hforward
    case neg =>
      obtain ⟨response, record, ho, hid, hversion⟩ := h.owns id' resource hget hs
      exact ⟨response, record, ho.mono hforward, hid, hversion⟩

-- An update that leaves alone what the resource holds.
theorem Kept.touch (h : Kept w)
    (hprevious : ∀ resource, (f resource).previousResourceId = resource.previousResourceId)
    (hid : ∀ resource, (f resource).chainRecordId = resource.chainRecordId)
    (hstatus : ∀ resource, (f resource).chainStatus = .registered →
      resource.chainStatus = .registered ∧ (f resource).chainVersion = resource.chainVersion) :
    Kept (w.updateResource id f) ∧ Forward w (w.updateResource id f) := by
  refine h.updateResource hprevious (fun resource hget hne => ?_) fun resource hget hs => ?_
  case refine_1 =>
    rw [hid] at hne ⊢
    exact h.held id resource hget hne
  case refine_2 =>
    obtain ⟨hregistered, hversion⟩ := hstatus resource hs
    rw [hid, hversion]
    exact h.owns id resource hget hregistered

theorem Kept.failed (h : Kept w) (error : String) :
    Kept (w.failed id error) ∧ Forward w (w.failed id error) :=
  h.touch (fun _ => rfl) (fun _ => rfl) fun _ hs => by cases hs

theorem Kept.docId (h : Kept w) (id : String) :
    Kept (w.updateResource id fun resource => { resource with docId := id }) ∧
      Forward w (w.updateResource id fun resource => { resource with docId := id }) :=
  h.touch (fun _ => rfl) (fun _ => rfl) fun _ hs => ⟨hs, rfl⟩

theorem Kept.create (h : Kept w) (hid : resource.chainRecordId = "")
    (hstatus : resource.chainStatus = .pending) :
    Kept (w.create id resource) ∧ Forward w (w.create id resource) := by
  rw [World.create]
  split_ifs with hnone
  case neg => exact ⟨h, .refl w⟩
  case pos =>
    rw [Option.isNone_iff_eq_none] at hnone
    have hforward : Forward w { w with resources := w.resources.set id resource } := by
      refine ⟨fun _ _ hget => hget, fun _ _ ha => ha, fun id' other hget => ⟨other, ?_, rfl⟩⟩
      have hne : id' ≠ id := by
        rintro rfl
        rw [hnone] at hget
        cases hget
      exact (KVStore.get_set_ne hne).trans hget
    refine ⟨⟨h.ordered, h.logged, h.distinct, fun id' other hget hne => ?_, fun id' other hget hs => ?_⟩,
      hforward⟩
    case refine_1 =>
      dsimp only at hget
      rw [KVStore.get_set] at hget
      split_ifs at hget
      case pos =>
        cases hget
        exact absurd hid hne
      case neg => exact h.held id' other hget hne
    case refine_2 =>
      dsimp only at hget
      rw [KVStore.get_set] at hget
      split_ifs at hget
      case pos =>
        cases hget
        rw [hstatus] at hs
        cases hs
      case neg =>
        obtain ⟨response, record, ho, hheld⟩ := h.owns id' other hget hs
        exact ⟨response, record, ho.mono hforward, hheld⟩

section Chain

variable {k : Keeper} {blockTime : ℤ} {msg : MsgRegisterDocument} {chain : State}

-- A new state of the chain, with one more answer to a transaction of a resource or without.
theorem Kept.advance (h : Kept w) (ho : Ordered chain) (hg : Grows w.chain chain)
    {registrations : List (String × MsgRegisterDocumentResponse)} (hr : w.registrations ⊆ registrations)
    (hlogged : ∀ e ∈ registrations, e ∉ w.registrations →
      ∃ record, chain.documentRecord.get e.2.recordId = some record)
    (hdistinct : (registrations.map (·.2.recordId)).Nodup) :
    Kept { w with chain, registrations } ∧ Forward w { w with chain, registrations } := by
  have hforward : Forward w { w with chain, registrations } :=
    ⟨hg, fun _ _ ha => hr ha, fun _ resource hget => ⟨resource, hget, rfl⟩⟩
  refine ⟨⟨ho, fun id response ha => ?_, hdistinct, fun id resource hget hne => ?_,
    fun id resource hget hs => ?_⟩, hforward⟩
  case refine_1 =>
    by_cases hold : (id, response) ∈ w.registrations
    case pos =>
      obtain ⟨record, hget⟩ := h.logged id response hold
      exact ⟨record, hg _ _ hget⟩
    case neg => exact hlogged (id, response) ha hold
  case refine_2 =>
    obtain ⟨response, ha, heq⟩ := h.held id resource hget hne
    exact ⟨response, hr ha, heq⟩
  case refine_3 =>
    obtain ⟨response, record, ho, hheld⟩ := h.owns id resource hget hs
    exact ⟨response, record, ho.mono hforward, hheld⟩

theorem Kept.deliver (h : Kept w) (msg : Msg) (hseq : w.chain.recordSeq.toNat + 1 < 2 ^ 64) :
    Kept (w.deliver k msg) ∧ Forward w (w.deliver k msg) := by
  obtain ⟨hordered, hgrows⟩ := h.ordered.next (k := k) msg hseq
  exact h.advance hordered hgrows (List.Subset.refl _) (fun _ hm hn => absurd hm hn) h.distinct

theorem Kept.register (h : Kept w) (hseq : w.chain.recordSeq.toNat + 1 < 2 ^ 64) :
    Kept (w.register k id blockTime msg) ∧ Forward w (w.register k id blockTime msg) := by
  obtain ⟨hordered, hgrows⟩ := h.ordered.next (k := k) (.registerDocument blockTime msg) hseq
  rw [World.register]
  cases hok : k.registerDocument blockTime msg w.chain with
  | error e => exact ⟨h, .refl w⟩
  | ok res =>
    obtain ⟨chain, response⟩ := res
    rw [next_registered hok] at hordered hgrows
    obtain ⟨record, hstored, _⟩ := stored_of_registerDocument hok
    obtain ⟨_, _, _, _, rfl, hr⟩ := of_registerDocument hok
    have hfresh := h.ordered.ahead.fresh hr hseq
    refine h.advance hordered hgrows (List.subset_cons_self ..) (fun e hm hold => ?_) ?_
    case refine_1 =>
      rw [(List.mem_cons.mp hm).resolve_right hold]
      exact ⟨record, hstored⟩
    case refine_2 =>
      refine List.nodup_cons.mpr ⟨fun hm => ?_, h.distinct⟩
      obtain ⟨⟨id', response'⟩, ha, heq⟩ := List.mem_map.mp hm
      obtain ⟨other, hother⟩ := h.logged id' response' ha
      dsimp only at heq
      rw [heq, hfresh] at hother
      cases hother

-- What the transaction of a resource leaves on the chain.
theorem register_owns (hok : k.registerDocument blockTime msg w.chain = .ok (chain, response))
    (hlinks : w.Links previousResourceId msg.parentRecordId)
    (hforward : Forward w (w.register k id blockTime msg)) :
    ∃ record, Owns (w.register k id blockTime msg) id previousResourceId response record ∧
      record.sha256Hash = msg.sha256Hash := by
  obtain ⟨record, hstored, hversion, hhash, hparent, _⟩ := stored_of_registerDocument hok
  refine ⟨record, ⟨?_, ?_, hversion, ?_⟩, hhash⟩
  case refine_1 => simp [World.register, hok, World.Answered]
  case refine_2 => simpa [World.register, hok] using hstored
  case refine_3 =>
    rw [hparent]
    exact hlinks.mono hforward

end Chain

-- The route takes the record that the chain has answered with.
theorem Kept.anchored (h : Kept w) {history : List DocumentRecord} {sha256Hash : String}
    (howns : Owns w id previousResourceId response record) (hz : response.version ≠ 0)
    (hprevious : ∀ resource, w.resources.get id = some resource →
      resource.previousResourceId = previousResourceId)
    (hfind : history.find? (·.sha256Hash = sha256Hash) = some record) :
    Kept (w.anchored id sha256Hash history) ∧ Forward w (w.anchored id sha256Hash history) := by
  have hid : record.recordId = response.recordId := h.ordered.keyed _ record howns.stored
  have hversion := howns.version
  refine h.updateResource (fun _ => rfl) (fun resource _ _ => ?_) fun resource hget _ => ?_
  case refine_1 =>
    refine ⟨response, howns.answered, ?_⟩
    simp only [hfind, Option.some_or, Option.map_some, Option.getD_some, hid]
  case refine_2 =>
    refine ⟨response, record, hprevious resource hget ▸ howns, ?_, ?_⟩
    case refine_1 => simp only [hfind, Option.some_or, Option.map_some, Option.getD_some, hid]
    case refine_2 => simp only [hfind, Option.some_or, Option.elim_some, hversion, if_neg hz]

end Worlds

def anchorContract : Contract Label World Unit where
  invariant w _ := Kept w
  grows         := Forward
  guard         := anchorGuard
  refl          := Forward.refl
  trans         := Forward.trans

section Handlers

variable {cfg : Config} {w w' : World} {id : String} {resource : EduResource} {outcome : Outcome}
  {previousResourceId : Option String} {parentRecordId sha256Hash : String} {own : Unit}

-- The resource is there, and replaces that one.
def Known (w : World) (id : String) (previousResourceId : Option String) : Prop :=
  ∃ resource, w.resources.get id = some resource ∧ resource.previousResourceId = previousResourceId

theorem Known.mono (h : Known w id previousResourceId) (hf : Forward w w') :
    Known w' id previousResourceId := by
  obtain ⟨resource, hget, hprevious⟩ := h
  obtain ⟨resource', hget', heq⟩ := hf.resources id resource hget
  exact ⟨resource', hget', heq.trans hprevious⟩

-- What is known before the transaction: if a new version names a parent, it is the right one.
structure Parented (w : World) (id : String) (previousResourceId : Option String) (parentRecordId : String) :
    Prop where
  known : Known w id previousResourceId
  links : (previousResourceId ≠ none → parentRecordId ≠ "") → w.Links previousResourceId parentRecordId

theorem Parented.mono (h : Parented w id previousResourceId parentRecordId) (hf : Forward w w') :
    Parented w' id previousResourceId parentRecordId where
  known    := h.known.mono hf
  links hc := (h.links hc).mono hf

-- What is known after it.
structure Recorded (w : World) (id : String) (previousResourceId : Option String) (sha256Hash : String)
    (response : MsgRegisterDocumentResponse) : Prop where
  known : Known w id previousResourceId
  owns  : ∃ record, Owns w id previousResourceId response record ∧ record.sha256Hash = sha256Hash
  unspent : response.version ≠ 0

theorem Recorded.mono {response : MsgRegisterDocumentResponse}
    (h : Recorded w id previousResourceId sha256Hash response) (hf : Forward w w') :
    Recorded w' id previousResourceId sha256Hash response where
  known   := h.known.mono hf
  unspent := h.unspent
  owns    := by
    obtain ⟨record, howns, hhash⟩ := h.owns
    exact ⟨record, howns.mono hf, hhash⟩

theorem findParent_safe (h : Known w id resource.previousResourceId) : anchorContract.Safe
    (fun parentRecordId w _ => Parented w id resource.previousResourceId parentRecordId)
    (findParent resource) w own := by
  rw [findParent]
  cases hprevious : resource.previousResourceId with
  | none => exact ⟨hprevious ▸ h, fun _ => rfl⟩
  | some previousId =>
    intro w' hf others hk _
    refine ⟨own, hk, .refl _, hprevious ▸ h.mono hf, fun hc => ?_⟩
    have hne := hc (Option.some_ne_none _)
    cases hget : w'.resources.get previousId with
    | none => simp [hget] at hne
    | some previous =>
      simp only [hget, Option.map_some, Option.getD_some] at hne ⊢
      exact hk.held previousId previous hget hne

theorem broadcastSignedTx_safe {blockTime : ℤ} {msg : MsgRegisterDocument}
    (h : Parented w id resource.previousResourceId msg.parentRecordId) : anchorContract.Safe
    (fun result w _ => Known w id resource.previousResourceId ∧ ∀ response, result = .ok response →
      Recorded w id resource.previousResourceId msg.sha256Hash response)
    (broadcastSignedTx cfg id resource blockTime msg) w own := by
  intro w' hf others hk hg
  obtain ⟨hnames, hseq, hspace⟩ := hg
  have hregister : Kept (w'.register cfg.keeper id blockTime msg) ∧
      Forward w' (w'.register cfg.keeper id blockTime msg) := hk.register hseq
  obtain ⟨hkept, hforward⟩ := hregister
  have hknown := (h.mono hf).known.mono hforward
  refine ⟨own, hkept, hforward, hknown, fun response hresponse => ?_⟩
  cases hok : cfg.keeper.registerDocument blockTime msg w'.chain with
  | error e =>
    simp only [hok] at hresponse
    cases hresponse
  | ok res =>
    obtain ⟨chain, answer⟩ := res
    simp only [hok] at hresponse
    cases hresponse
    exact ⟨hknown, register_owns hok ((h.mono hf).links hnames) hforward, version_ne_zero hok hspace⟩

theorem registerDocumentFromMnemonic_safe
    (h : Parented w id resource.previousResourceId parentRecordId) : anchorContract.Safe
    (fun result w _ => Known w id resource.previousResourceId ∧ ∀ response, result = .ok response →
      Recorded w id resource.previousResourceId resource.sha256Hash response)
    (registerDocumentFromMnemonic cfg id resource parentRecordId outcome) w own := by
  have hfailed : ∀ {w' : World} {error : String}, Known w' id resource.previousResourceId →
      Known w' id resource.previousResourceId ∧ ∀ response,
        (.error error : Except String MsgRegisterDocumentResponse) = .ok response →
          Recorded w' id resource.previousResourceId resource.sha256Hash response :=
    fun hk => ⟨hk, fun _ heq => by cases heq⟩
  refine Contract.Safe.ite (fun _ => hfailed h.known) fun _ => ?_
  refine Contract.Safe.ite (fun _ => hfailed h.known) fun _ => ?_
  refine Contract.Safe.ite (fun _ => hfailed h.known) fun _ => ?_
  cases outcome with
  | unconfigured => exact hfailed h.known
  | unsent error => exact hfailed h.known
  | unconfirmed blockTime error =>
    exact Contract.Safe.bind ((broadcastSignedTx_safe h).imp fun hpost => hfailed hpost.1)
  | unread blockTime error => exact broadcastSignedTx_safe h
  | answered blockTime => exact broadcastSignedTx_safe h

theorem of_queryHistory {docId : String} {history : List DocumentRecord}
    (h : queryHistory docId outcome w = .ok history) : getVersionHistory docId w.chain = .ok history := by
  simp only [queryHistory] at h
  split at h
  case h_1 => cases h
  case h_2 hrecords => exact hrecords.trans (congrArg _ (Except.ok.inj h))
  case h_3 => cases h

theorem failed_handles {error : String} :
    anchorContract.Handles (.write .write (·.failed id error)) w own :=
  Contract.Handles.write fun _ _ _ _ hk => hk.failed error

-- Where the history is searched, the record that is found is the one of the transaction.
theorem anchorOnChain_handles (h : Known w id resource.previousResourceId) :
    anchorContract.Handles (anchorOnChain cfg id resource outcome) w own := by
  refine Contract.Safe.ite (fun _ => failed_handles) fun _ => ?_
  refine Contract.Safe.bind ((findParent_safe h).imp fun hparented => ?_)
  refine Contract.Safe.bind ((registerDocumentFromMnemonic_safe hparented).imp fun hresult => ?_)
  obtain ⟨_, hrecorded⟩ := hresult
  split
  case h_1 => exact failed_handles
  case h_2 response =>
    refine Contract.Safe.read fun w₁ hf hdistinctive => ?_
    obtain ⟨hknown, ⟨record, howns, hhash⟩, hz⟩ := (hrecorded response rfl).mono hf
    split
    case h_1 => exact failed_handles
    case h_2 history hquery =>
      have hhistory := of_queryHistory hquery
      have hfind := find_own hdistinctive howns.stored hhash hhistory
      refine Contract.Handles.write fun w₂ hf₂ _ _ hk => ?_
      refine hk.anchored (howns.mono hf₂) hz (fun stored hget => ?_) hfind
      obtain ⟨known, hget', hprevious⟩ := hknown.mono hf₂
      rw [hget] at hget'
      cases hget'
      exact hprevious

theorem findPrevious_safe {u : Upload} :
    anchorContract.Safe (fun _ _ _ => True) (findPrevious u) w own := by
  rw [findPrevious]
  cases u.previousResourceId with
  | none => trivial
  | some previousId => exact fun _ _ _ hk _ => ⟨own, hk, .refl _, trivial⟩

theorem known_create (hnone : (w.resources.get id).isNone = true) :
    Known (w.create id resource) id resource.previousResourceId :=
  ⟨resource, by rw [World.create, if_pos hnone, KVStore.get_set_self], rfl⟩

theorem upload_handles {u : Upload} : anchorContract.Handles (upload cfg u) w own := by
  refine Contract.Safe.bind (findPrevious_safe.imp fun {docId _ _} _ => ?_)
  cases docId with
  | none => exact Contract.Handles.done
  | some docId =>
    refine Contract.Safe.act fun w₁ _ _ others hk => ?_
    have hcreate : Kept (w₁.create u.id (u.resource docId)) ∧
        Forward w₁ (w₁.create u.id (u.resource docId)) := hk.create rfl rfl
    refine ⟨own, hcreate.1, hcreate.2, ?_⟩
    cases hnew : (w₁.resources.get u.id).isNone with
    | false => exact Contract.Handles.done
    | true =>
      have hknown : Known (w₁.create u.id (u.resource docId)) u.id u.previousResourceId := known_create hnew
      refine Contract.Safe.ite (fun _ => Contract.Handles.done) fun _ => ?_
      refine Contract.Safe.ite (fun _ => ?_) fun _ => anchorOnChain_handles hknown
      refine Contract.Safe.write fun w₂ hf _ _ hk₂ => ?_
      obtain ⟨hkept, hforward⟩ := hk₂.docId u.id
      exact ⟨own, hkept, hforward, anchorOnChain_handles ((hknown.mono hf).mono hforward)⟩

theorem remove_handles {userId : String} {isAdmin : Bool} :
    anchorContract.Handles (remove id userId isAdmin) w own := by
  refine Contract.Safe.read fun w₁ _ _ => ?_
  split
  case h_2 => exact Contract.Handles.done
  case h_1 =>
    refine Contract.Safe.ite (fun _ => Contract.Handles.done) fun _ => ?_
    refine Contract.Safe.ite (fun _ => Contract.Handles.done) fun _ => ?_
    refine Contract.Handles.write fun _ _ _ _ hk => ?_
    exact hk.touch (fun _ => rfl) (fun _ => rfl) fun _ hs => ⟨hs, rfl⟩

theorem handler_handles (cfg : Config) (request : Request) (w : World) :
    anchorContract.Handles (request.handler cfg) w 0 := by
  cases request with
  | upload u => exact upload_handles
  | remove id userId isAdmin => exact remove_handles
  | message msg => exact Contract.Handles.write fun _ _ hseq _ hk => hk.deliver msg hseq

end Handlers

theorem kept_empty : Kept {} where
  ordered          := ordered_started
  logged _ _ ha    := by cases ha
  distinct         := List.nodup_nil
  held _ _ hget    := by cases hget
  owns _ _ hget    := by cases hget

namespace Sample

def config : Config where
  keeper   := Edu.Sample.keeper
  operator := "operator"

def otherHash : String := String.ofList (List.replicate 64 'b')

-- A syllabus and a new version of it.
def syllabus (outcome : Outcome) (newHash : String) : List Request :=
  [.upload { id := "r1", userId := "alice", sha256Hash := Edu.Sample.hash, outcome },
    .upload { id := "r2", userId := "alice", sha256Hash := newHash, previousResourceId := some "r1",
              outcome := .answered 1 }]

def served (requests : List Request) : Pool Label World :=
  Pool.execs (Request.handler config) { store := {}, running := [] } (inTurn 7 requests)

end Sample

-- Each registered resource is bound to its own record in a run whose new versions name a parent, whose
-- searches meet no other record first, and that comes to the end of no numbers.
theorem bound_of_run (cfg : Config) (p : Pool Label World)
    (h : (anchoring cfg).Run (fun p a => p.Meets anchorGuard a) p) : Bound p.store := by
  have hinv : (anchoring cfg).Invariant (fun p a => p.Meets anchorContract.guard a)
      fun p => ∃ owned, anchorContract.Holds p owned :=
    Contract.invariant_of_handles (fun _ hw => hw ▸ kept_empty) (handler_handles cfg)
  obtain ⟨owned, hp⟩ := hinv.holds h
  exact hp.invariant.bound

theorem sample_bound : Bound (Sample.served (Sample.syllabus (.answered 1) Sample.otherHash)).store :=
  bound_of_run Sample.config _ (run_from rfl (by decide +kernel))

-- A new version with the same content is taken for the first one, and one whose predecessor was not anchored
-- has no parent.
theorem same_content_bound_to_one_record :
    (¬∀ (cfg : Config) (p : Pool Label World), (anchoring cfg).Reachable p → Bound p.store) ∧
    ((Sample.served (Sample.syllabus (.answered 1) Edu.Sample.hash)).store.resources.values.map fun resource =>
      (resource.chainStatus, resource.chainRecordId)) = [(.registered, "edu-1"), (.registered, "edu-1")] ∧
    ((Sample.served (Sample.syllabus (.unsent "timeout") Sample.otherHash)).store.chain.documentRecord.values.map
      fun record => (record.recordId, record.version, record.parentRecordId)) = [("edu-1", 1, "")] := by
  refine ⟨fun h => ?_, by decide +kernel, by decide +kernel⟩
  have hreachable : (anchoring Sample.config).Reachable
      (Sample.served (Sample.syllabus (.answered 1) Edu.Sample.hash)) := reachable_from rfl
  have hheld : ∀ id ∈ ["r1", "r2"],
      ((Sample.served (Sample.syllabus (.answered 1) Edu.Sample.hash)).store.resources.get id).any
        (fun resource => resource.chainStatus = .registered ∧ resource.chainRecordId = "edu-1") = true := by
    decide +kernel
  obtain ⟨first, hfirst, hf⟩ := (Option.any_eq_true ..).mp (hheld "r1" (by simp))
  obtain ⟨second, hsecond, hs⟩ := (Option.any_eq_true ..).mp (hheld "r2" (by simp))
  rw [decide_eq_true_eq] at hf hs
  have heq := (h _ _ hreachable).distinct "r1" "r2" first second hfirst hsecond hf.1 hs.1 (hf.2.trans hs.2.symm)
  exact absurd heq (by decide)

end Edu.Anchoring
