import MallChain.Lib.Broadcast
import MallChain.Lib.Transition

-- The store of the wallet's web app (`mallchain-os-v14/src/store/store.ts`), which every tab keeps
-- in its memory and persists in `localStorage`, and the synchronisation between the tabs
-- (`services/storeSync.ts`).
namespace Frontend

-- The test `/^[A-Z]{3}$/`.
def isCurrency (code : String) : Bool :=
  code.length == 3 && code.toList.all fun c => 'A' ≤ c && c ≤ 'Z'

structure Currency where
  code  : String
  valid : isCurrency code
deriving DecidableEq

structure User where
  id     : String
  authed : Bool
deriving DecidableEq

structure Prefs where
  accent   : String
  currency : Currency
  lang     : String
deriving DecidableEq

-- The slices that the store handles alike are one value. The version is always 14 in memory.
structure AppState (R : Type*) where
  user  : User
  prefs : Prefs
  rest  : R
deriving DecidableEq

-- A parsed document, in which anything may be missing.
structure Saved.User where
  id     : Option String
  authed : Option Bool
deriving DecidableEq

structure Saved.Prefs where
  accent   : Option String
  currency : Option String
  lang     : Option String
deriving DecidableEq

structure Saved (R : Type*) where
  version : Option Nat
  user    : Option Saved.User
  prefs   : Option Saved.Prefs
  rest    : Option R
deriving DecidableEq

-- What `localStorage` holds under a key: a text that is no document, or the text of a document.
inductive Text (R : Type*)
  | malformed (text : String)
  | json (saved : Saved R)
deriving DecidableEq

-- The `storage` events that the tabs look at: `localStorage.clear()`, which has no key, a change of
-- `OS_KEY`, and a change of `SESSION_KEY`.
inductive StorageEvent (R : Type*)
  | everything
  | osKey (newValue : Option (Text R))
  | session
deriving DecidableEq

-- A tab with its copy of the store, and with the events that were fired but not dispatched yet.
structure Tab (R : Type*) where
  state     : AppState R
  listening : Bool
  inbox     : List (StorageEvent R)

-- The browser: the storage, its clock and the open tabs. It is recorded which tab changed `OS_KEY`
-- last, and which snapshot was on its way to that tab then.
structure Browser (ι R : Type*) where
  osKey   : Option (Text R)
  session : Option Nat
  now     : Nat
  tabs    : ι → Option (Tab R)
  changed : Option (ι × Option (AppState R))

variable {ι R : Type*}

-- `emptyState()`, where `detectDefaultCurrency()` depends on the browser, and the rest contains a
-- random referral code.
def emptyState (detected : Currency) (rest : R) : AppState R where
  user  := { id := "", authed := false }
  prefs := { accent := "gold", currency := detected, lang := "EN" }
  rest

namespace AppState

-- `JSON.stringify(this.state)`
def stringify (s : AppState R) : Saved R where
  version := some 14
  user    := some { id := some s.user.id, authed := some s.user.authed }
  prefs   := some {
    accent   := some s.prefs.accent
    currency := some s.prefs.currency.code
    lang     := some s.prefs.lang
  }
  rest    := some s.rest

def setAuthed (authed : Bool) (s : AppState R) : AppState R :=
  { s with user := { s.user with authed } }

end AppState

namespace Saved

def currency (base : AppState R) (saved : Saved R) : Currency :=
  match saved.prefs.bind Prefs.currency with
  | some code => if valid : isCurrency code then { code, valid } else base.prefs.currency
  | none      => base.prefs.currency

-- The base is overlaid with whatever the document has.
def merge (base : AppState R) (saved : Saved R) : AppState R where
  user := {
    id     := (saved.user.bind User.id).getD base.user.id
    authed := (saved.user.bind User.authed).getD base.user.authed
  }
  prefs := {
    accent   := (saved.prefs.bind Prefs.accent).getD base.prefs.accent
    currency := saved.currency base
    lang     := (saved.prefs.bind Prefs.lang).getD base.prefs.lang
  }
  rest := saved.rest.getD base.rest

-- The state of which the document is the text, if it is one's.
def toState : Saved R → Option (AppState R)
  | {
      version := some 14
      user    := some { id := some id, authed := some authed }
      prefs   := some { accent := some accent, currency := some code, lang := some lang }
      rest    := some rest
    } =>
    if valid : isCurrency code then
      some { user := { id, authed }, prefs := { accent, currency := { code, valid }, lang }, rest }
    else
      none
  | _ => none

end Saved

-- A state survives the way through the storage.
theorem AppState.toState_stringify (s : AppState R) : s.stringify.toState = some s := by
  simp [stringify, Saved.toState, s.prefs.currency.valid]

theorem Saved.eq_stringify {saved : Saved R} {s : AppState R} (h : saved.toState = some s) :
    saved = s.stringify := by
  unfold toState at h
  split at h
  case h_1 =>
    split_ifs at h
    obtain rfl := Option.some.inj h
    rfl
  case h_2 => nomatch h

theorem Saved.merge_stringify (base s : AppState R) : s.stringify.merge base = s := by
  simp [merge, AppState.stringify, currency, s.prefs.currency.valid]

namespace Browser

variable [DecidableEq ι] [DecidableEq R]

def modify (i : ι) (f : Tab R → Tab R) (b : Browser ι R) : Browser ι R :=
  { b with tabs := Function.update b.tabs i ((b.tabs i).map f) }

-- An event is fired in every tab but the one that caused it.
def fire (i : ι) (e : StorageEvent R) (b : Browser ι R) : Browser ι R :=
  { b with
    tabs := fun j => (b.tabs j).map fun t => if j = i then t else { t with inbox := t.inbox ++ [e] } }

end Browser

-- The snapshot that an event brings to a tab.
def StorageEvent.snapshot : StorageEvent R → Option (AppState R)
  | osKey (some (.json saved)) => saved.toState
  | _                          => none

def Tab.snapshots (t : Tab R) : List (AppState R) :=
  t.inbox.filterMap StorageEvent.snapshot

-- What the tab shows once it has handled its events.
def Tab.settled (t : Tab R) : AppState R :=
  t.snapshots.getLast?.getD t.state

namespace Browser

variable [DecidableEq ι] [DecidableEq R]

-- `localStorage.setItem(OS_KEY, text)`: a value that is there already is no change.
def setItem (i : ι) (text : Text R) (b : Browser ι R) : Browser ι R :=
  if b.osKey = some text then b
  else { b.fire i (.osKey (some text)) with
    osKey   := some text
    changed := some (i, (b.tabs i).bind fun t => t.snapshots.getLast?) }

-- `localStorage.removeItem(OS_KEY)`
def removeItem (i : ι) (b : Browser ι R) : Browser ι R :=
  match b.osKey with
  | some _ => { b.fire i (.osKey none) with osKey := none }
  | none   => b

-- `store.commit()`, of which the other tabs only see `persist()`.
def commit (i : ι) (b : Browser ι R) : Browser ι R :=
  match b.tabs i with
  | some t => b.setItem i (.json t.state.stringify)
  | none   => b

-- A module of the app changes the store's state and commits it.
def update (i : ι) (f : AppState R → AppState R) (b : Browser ι R) : Browser ι R :=
  (b.modify i fun t => { t with state := f t.state }).commit i

-- `store.reset()`
def reset (i : ι) (empty : AppState R) (b : Browser ι R) : Browser ι R :=
  (b.removeItem i).update i fun _ => empty

-- `store.applyExternalState(newState)`
def applyExternalState (i : ι) (empty : AppState R) (newState : Saved R) (b : Browser ι R) :
    Browser ι R :=
  b.modify i fun t => { t with state := newState.merge empty }

-- `authService.setSession(expiresAt)`
def setSession (i : ι) (authedUntil : Nat) (b : Browser ι R) : Browser ι R :=
  if b.session = some authedUntil then b
  else { b.fire i .session with session := some authedUntil }

-- `authService.clearSession()`
def clearSession (i : ι) (b : Browser ι R) : Browser ι R :=
  match b.session with
  | some _ => { b.fire i .session with session := none }
  | none   => b

-- `authService.isAuthenticated()` removes a marker that has expired.
def isAuthenticated (i : ι) (b : Browser ι R) : Bool × Browser ι R :=
  match b.session with
  | some authedUntil => if authedUntil ≤ b.now then (false, b.clearSession i) else (true, b)
  | none             => (false, b)

def setAuthed (i : ι) (authed : Bool) (b : Browser ι R) : Browser ι R :=
  match b.tabs i with
  | some t => if t.state.user.authed = authed then b else b.update i (·.setAuthed authed)
  | none   => b

def syncAuthStateFromSession (i : ι) (b : Browser ι R) : Browser ι R :=
  (b.isAuthenticated i).2.setAuthed i (b.isAuthenticated i).1

def syncStoreFromOsKey (i : ι) (empty : AppState R) (newValue : Option (Text R))
    (b : Browser ι R) : Browser ι R :=
  match newValue with
  | none                  => b.reset i empty
  | some (.malformed _)   => b
  | some (.json newState) =>
    if newState.version = some 14 then b.applyExternalState i empty newState else b

def handleStorageChange (i : ι) (empty : AppState R) (e : StorageEvent R) (b : Browser ι R) :
    Browser ι R :=
  match e with
  | .everything     => b.reset i empty
  | .osKey newValue => b.syncStoreFromOsKey i empty newValue
  | .session        => b.syncAuthStateFromSession i

-- The oldest event of a tab is dispatched, and it is lost if the tab does not listen yet.
def dispatch (i : ι) (empty : AppState R) (b : Browser ι R) : Browser ι R :=
  match b.tabs i with
  | some { inbox := e :: inbox, listening, .. } =>
    let b' := b.modify i fun t => { t with inbox }
    if listening then b'.handleStorageChange i empty e else b'
  | _ => b

-- What `load` finds: a document of the current version.
def current : Option (Text R) → Option (Saved R)
  | some (.json saved) => if saved.version = some 14 then some saved else none
  | _                  => none

def addTab (i : ι) (state : AppState R) (b : Browser ι R) : Browser ι R :=
  { b with tabs := Function.update b.tabs i (some { state, listening := false, inbox := [] }) }

-- `new Store()`. In a store without a document `load` persists before the constructor has assigned
-- the state, so that `JSON.stringify(undefined)` is written, which the storage turns into a text.
def load (i : ι) (empty : AppState R) (b : Browser ι R) : Browser ι R :=
  match current b.osKey with
  | some saved => b.addTab i (saved.merge empty)
  | none       =>
    let authed := b.session.any fun authedUntil => b.now < authedUntil
    (b.addTab i (empty.setAuthed authed)).setItem i (.malformed "undefined")

-- `storeSync.initialize()`
def initializeSync (i : ι) (b : Browser ι R) : Browser ι R :=
  (b.syncAuthStateFromSession i).modify i fun t => { t with listening := true }

-- `authService.logout()`
def logout (i : ι) (empty : AppState R) (b : Browser ι R) : Browser ι R :=
  (b.clearSession i).reset i empty

def close (i : ι) (b : Browser ι R) : Browser ι R :=
  { b with tabs := Function.update b.tabs i none }

-- `localStorage.clear()`, which only the browser's tools call.
def clear (i : ι) (b : Browser ι R) : Browser ι R :=
  { b.fire i .everything with osKey := none, session := none }

end Browser

-- What can happen in the browser. Each call of `emptyState()` draws the rest of the state.
inductive Action (ι R : Type*)
  | load (i : ι) (rest : R)
  | initializeSync (i : ι)
  | update (i : ι) (f : AppState R → AppState R)
  | setSession (i : ι) (authedUntil : Nat)
  | sync (i : ι)
  | dispatch (i : ι) (rest : R)
  | logout (i : ι) (rest : R)
  | close (i : ι)
  | clear (i : ι)
  | tick

variable [DecidableEq ι] [DecidableEq R]

-- Only a tab that is open does anything, and only one that is not is loaded.
def Action.Enabled (b : Browser ι R) : Action ι R → Bool
  | load i _           => (b.tabs i).isNone
  | tick               => true
  | initializeSync i
  | update i _
  | setSession i _
  | sync i
  | dispatch i _
  | logout i _
  | close i
  | clear i            => (b.tabs i).isSome

def Action.run (detected : Currency) (b : Browser ι R) : Action ι R → Browser ι R
  | load i rest              => b.load i (emptyState detected rest)
  | initializeSync i         => b.initializeSync i
  | update i f               => b.update i f
  | setSession i authedUntil => b.setSession i authedUntil
  | sync i                   => b.syncAuthStateFromSession i
  | dispatch i rest          => b.dispatch i (emptyState detected rest)
  | logout i rest            => b.logout i (emptyState detected rest)
  | close i                  => b.close i
  | clear i                  => b.clear i
  | tick                     => { b with now := b.now + 1 }

def Action.exec (detected : Currency) (b : Browser ι R) (a : Action ι R) : Browser ι R :=
  if a.Enabled b then a.run detected b else b

-- A browser in which no tab of the app is open at first.
def system (ι R : Type*) [DecidableEq ι] [DecidableEq R] (detected : Currency) :
    TransitionSystem (Browser ι R) (Action ι R) where
  init b      := b.tabs = fun _ => none
  step b a b' := b' = a.exec detected b

-- No event is dispatched in a tab that does not listen yet.
def Heard (b : Browser ι R) : Action ι R → Prop
  | .dispatch i _ => (b.tabs i).all Tab.listening
  | _             => True

omit [DecidableEq R] in
theorem StorageEvent.snapshot_json (s : AppState R) :
    (osKey (some (.json s.stringify))).snapshot = some s :=
  s.toState_stringify

-- The tabs as the members of a group that shares the storage.
def Tab.toMember (t : Tab R) : Broadcast.Member (AppState R) where
  shown := t.state
  inbox := t.snapshots

namespace Browser

-- What is stored, if it is the text of a state.
def stored (b : Browser ι R) : Option (AppState R) :=
  b.osKey.bind fun text => StorageEvent.snapshot (.osKey (some text))

def toBroadcast (b : Browser ι R) : Broadcast ι (AppState R) where
  cell     := b.stored
  member i := (b.tabs i).map Tab.toMember
  changed  := b.changed

variable {b : Browser ι R} {i j : ι} {t : Tab R} {e : StorageEvent R} {s : AppState R}

omit [DecidableEq ι] [DecidableEq R] in
theorem stored_eq_some : b.stored = some s ↔ b.osKey = some (.json s.stringify) := by
  rw [stored, Option.bind_eq_some_iff]
  constructor
  case mp =>
    rintro ⟨text, h, hs⟩
    match text with
    | .json saved => rw [h, Saved.eq_stringify hs]
  case mpr =>
    intro h
    exact ⟨_, h, s.toState_stringify⟩

omit [DecidableEq R] in
theorem toBroadcast_modify {f : Tab R → Tab R} {g : Broadcast.Member (AppState R) → _}
    (h : ∀ t, b.tabs i = some t → (f t).toMember = g t.toMember) :
    (b.modify i f).toBroadcast = b.toBroadcast.alter i g := by
  rw [toBroadcast, Broadcast.alter]
  congr 1
  funext j
  by_cases hj : j = i
  case neg => simp [modify, toBroadcast, hj]
  case pos =>
    subst hj
    cases ht : b.tabs j with
    | none   => simp [modify, toBroadcast, ht]
    | some t => simp [modify, toBroadcast, ht, h t ht]

omit [DecidableEq R] in
theorem toBroadcast_modify_of_eq {f : Tab R → Tab R}
    (h : ∀ t, b.tabs i = some t → (f t).toMember = t.toMember) :
    (b.modify i f).toBroadcast = b.toBroadcast := by
  rw [toBroadcast_modify (g := id) h, Broadcast.alter, Option.map_id, id,
    Function.update_eq_self]

omit [DecidableEq R] in
theorem member_fire : (b.fire i e).toBroadcast.member j =
    (b.toBroadcast.member j).map (if j = i then id else e.snapshot.elim id .tell) := by
  simp only [toBroadcast, fire, Option.map_map]
  congr 1
  funext t
  by_cases hj : j = i
  case pos => simp [hj]
  case neg =>
    cases he : e.snapshot <;>
      simp [hj, he, Tab.toMember, Tab.snapshots, Broadcast.Member.tell]

-- What brings no snapshot changes nothing for the group.
omit [DecidableEq R] in
theorem toBroadcast_fire (h : e.snapshot = none) : (b.fire i e).toBroadcast = b.toBroadcast := by
  have hm : (b.fire i e).toBroadcast.member = b.toBroadcast.member := by
    funext j
    rw [member_fire, h]
    simp
  calc (b.fire i e).toBroadcast
    _ = { b.toBroadcast with member := (b.fire i e).toBroadcast.member } := rfl
    _ = b.toBroadcast                                                    := by rw [hm]

omit [DecidableEq ι] [DecidableEq R] in
theorem member_tab (h : b.tabs i = some t) : b.toBroadcast.member i = some t.toMember := by
  simp [toBroadcast, h]

-- A commit is a write of the tab's state.
theorem toBroadcast_commit (h : b.tabs i = some t) :
    (b.commit i).toBroadcast = b.toBroadcast.write i t.state := by
  have hw : b.toBroadcast.write i t.state =
      if b.stored = some t.state then b.toBroadcast.restate i t.state
      else b.toBroadcast.publish i t.state := rfl
  rw [commit, h, hw]
  dsimp only
  rw [setItem]
  split_ifs with ho hs hs
  case pos => exact (Broadcast.restate_of_shown (member_tab h)).symm
  case neg => exact absurd (stored_eq_some.mpr ho) hs
  case pos => exact absurd (stored_eq_some.mp hs) ho
  case neg =>
    ext1
    case cell => exact t.state.toState_stringify
    case changed => simp [toBroadcast, Broadcast.publish, h, Tab.toMember]
    case member =>
      funext j
      refine member_fire.trans ?_
      rw [StorageEvent.snapshot_json]
      by_cases hj : j = i
      case neg => simp [Broadcast.publish, hj]
      case pos => simp [Broadcast.publish, hj, member_tab h, Broadcast.Member.set, Tab.toMember]

omit [DecidableEq R] in
theorem modify_of_closed {f : Tab R → Tab R} (h : b.tabs i = none) : b.modify i f = b := by
  rw [modify, h, Option.map_none]
  exact congrArg ({ b with tabs := · }) (Function.update_eq_self_iff.mpr h.symm)

omit [DecidableEq R] in
theorem tabs_modify {f : Tab R → Tab R} :
    (b.modify i f).tabs j = if j = i then (b.tabs j).map f else b.tabs j := by
  by_cases hj : j = i <;> simp [modify, hj]

theorem update_of_closed {f : AppState R → AppState R} (h : b.tabs i = none) : b.update i f = b := by
  rw [update, modify_of_closed h, commit, h]

theorem toBroadcast_update {f : AppState R → AppState R} (h : b.tabs i = some t) :
    (b.update i f).toBroadcast = b.toBroadcast.write i (f t.state) := by
  have ht : (b.modify i fun t => { t with state := f t.state }).tabs i =
      some { t with state := f t.state } := by
    rw [tabs_modify, if_pos rfl, h]
    rfl
  have hm : (b.modify i fun t => { t with state := f t.state }).toBroadcast =
      b.toBroadcast.restate i (f t.state) := by
    refine toBroadcast_modify fun t' ht' => ?_
    obtain rfl := Option.some.inj (h.symm.trans ht')
    rfl
  rw [update, toBroadcast_commit ht, hm]
  exact Broadcast.write_restate

theorem Agrees.update {f : AppState R → AppState R} (h : b.toBroadcast.Agrees) :
    (b.update i f).toBroadcast.Agrees := by
  cases ht : b.tabs i with
  | none   => rwa [update_of_closed ht]
  | some t =>
    rw [toBroadcast_update ht]
    exact h.write

theorem Agrees.reset {empty : AppState R} (h : b.toBroadcast.Agrees) :
    (b.reset i empty).toBroadcast.Agrees := by
  refine Agrees.update ?_
  rw [removeItem]
  split
  case h_1 => exact Broadcast.Agrees.of_empty rfl
  case h_2 => exact h

omit [DecidableEq R] in
theorem toBroadcast_marked (marker : Option Nat) :
    ({ b.fire i .session with session := marker } : Browser ι R).toBroadcast = b.toBroadcast :=
  toBroadcast_fire (b := b) (i := i) (e := .session) rfl

omit [DecidableEq R] in
theorem toBroadcast_clearSession : (b.clearSession i).toBroadcast = b.toBroadcast := by
  rw [clearSession]
  split
  case h_1 => exact toBroadcast_marked _
  case h_2 => rfl

omit [DecidableEq R] in
theorem toBroadcast_setSession {authedUntil : Nat} :
    (b.setSession i authedUntil).toBroadcast = b.toBroadcast := by
  rw [setSession]
  split_ifs
  case pos => rfl
  case neg => exact toBroadcast_marked _

omit [DecidableEq R] in
theorem toBroadcast_isAuthenticated : (b.isAuthenticated i).2.toBroadcast = b.toBroadcast := by
  rw [isAuthenticated]
  split
  case h_1 =>
    split_ifs
    case pos => exact toBroadcast_clearSession
    case neg => rfl
  case h_2 => rfl

theorem Agrees.setAuthed {authed : Bool} (h : b.toBroadcast.Agrees) :
    (b.setAuthed i authed).toBroadcast.Agrees := by
  rw [Browser.setAuthed]
  split
  case h_1 =>
    split_ifs
    case pos => exact h
    case neg => exact Agrees.update h
  case h_2 => exact h

theorem Agrees.syncAuthStateFromSession (h : b.toBroadcast.Agrees) :
    (b.syncAuthStateFromSession i).toBroadcast.Agrees :=
  Agrees.setAuthed (by rwa [toBroadcast_isAuthenticated])

-- The tabs are told of states, and of texts that are no documents.
def Sound (b : Browser ι R) : Prop :=
  ∀ i t, b.tabs i = some t → ∀ saved, .osKey (some (.json saved)) ∈ t.inbox → saved.toState.isSome

variable {b' : Browser ι R}

theorem Agrees.handleStorageChange {empty : AppState R} (h : b.toBroadcast.Agrees)
    (he : ∀ saved, e ≠ .osKey (some (.json saved))) :
    (b.handleStorageChange i empty e).toBroadcast.Agrees := by
  match e with
  | .everything               => exact Agrees.reset h
  | .osKey none               => exact Agrees.reset h
  | .osKey (some (.malformed _)) => exact h
  | .osKey (some (.json saved))  => exact absurd rfl (he saved)
  | .session                  => exact Agrees.syncAuthStateFromSession h

omit [DecidableEq ι] [DecidableEq R] in
theorem Sound.mem_eq (hs : b.Sound) (ht : b.tabs i = some t) {saved : Saved R}
    (h : .osKey (some (.json saved)) ∈ t.inbox) : ∃ s : AppState R, saved = s.stringify := by
  obtain ⟨s, hs⟩ := Option.isSome_iff_exists.mp (hs i t ht saved h)
  exact ⟨s, Saved.eq_stringify hs⟩

-- The tab takes notice of the state.
theorem toBroadcast_received {empty : AppState R} {inbox : List (StorageEvent R)}
    (ht : b.tabs i = some t) (hi : t.inbox = .osKey (some (.json s.stringify)) :: inbox) :
    ((b.modify i fun t => { t with inbox }).handleStorageChange i empty
      (.osKey (some (.json s.stringify)))).toBroadcast = b.toBroadcast.receive i := by
  have hm (b : Browser ι R) (f g : Tab R → Tab R) :
      (b.modify i f).modify i g = b.modify i (g ∘ f) := by
    simp [modify]
  have hv : s.stringify.version = some 14 := rfl
  rw [handleStorageChange, syncStoreFromOsKey, if_pos hv, applyExternalState, hm]
  refine toBroadcast_modify fun t' ht' => ?_
  obtain rfl := Option.some.inj (ht.symm.trans ht')
  simp [Tab.toMember, Tab.snapshots, hi, StorageEvent.snapshot_json, Broadcast.Member.told,
    Saved.merge_stringify]

omit [DecidableEq R] in
theorem toBroadcast_ignored {inbox : List (StorageEvent R)} (ht : b.tabs i = some t)
    (hi : t.inbox = e :: inbox) (he : e.snapshot = none) :
    (b.modify i fun t => { t with inbox }).toBroadcast = b.toBroadcast := by
  refine toBroadcast_modify_of_eq fun t' ht' => ?_
  obtain rfl := Option.some.inj (ht.symm.trans ht')
  simp [Tab.toMember, Tab.snapshots, hi, he]

-- A tab either takes notice of a state, or it acts on its own.
theorem Agrees.dispatch {empty : AppState R} (h : b.toBroadcast.Agrees) (hs : b.Sound)
    (hl : ∀ t, b.tabs i = some t → t.listening) :
    (b.dispatch i empty).toBroadcast.Agrees := by
  rw [Browser.dispatch]
  split
  case h_2 => exact h
  case h_1 state listening e inbox ht =>
    rw [if_pos (hl _ ht)]
    cases he : e.snapshot
    case none =>
      refine Agrees.handleStorageChange ?_ ?_
      · rwa [toBroadcast_ignored ht rfl he]
      · rintro saved rfl
        obtain ⟨s, rfl⟩ := hs.mem_eq ht (.head _)
        exact nomatch (StorageEvent.snapshot_json s).symm.trans he
    case some s =>
      match e with
      | .osKey (some (.json saved)) =>
        obtain rfl := Saved.eq_stringify he
        rw [toBroadcast_received ht rfl]
        exact h.receive

omit [DecidableEq R] in
theorem Sound.modify {f : Tab R → Tab R} (h : b.Sound)
    (hf : ∀ t, b.tabs i = some t → (f t).inbox ⊆ t.inbox) : (b.modify i f).Sound := by
  intro j t ht saved hm
  rw [tabs_modify] at ht
  split_ifs at ht with hj
  case neg => exact h j t ht saved hm
  case pos =>
    subst hj
    obtain ⟨t', ht', rfl⟩ := Option.map_eq_some_iff.mp ht
    exact h j t' ht' saved (hf t' ht' hm)

omit [DecidableEq R] in
theorem Sound.fire (h : b.Sound)
    (he : ∀ saved, e = .osKey (some (.json saved)) → saved.toState.isSome) : (b.fire i e).Sound := by
  intro j t ht saved hm
  obtain ⟨t', ht', rfl⟩ := Option.map_eq_some_iff.mp ht
  split_ifs at hm
  case pos => exact h j t' ht' saved hm
  case neg =>
    rcases List.mem_append.mp hm with hm | hm
    case inl => exact h j t' ht' saved hm
    case inr => exact he saved (List.mem_singleton.mp hm).symm

theorem Sound.setItem {text : Text R} (h : b.Sound)
    (ht : ∀ saved, text = .json saved → saved.toState.isSome) : (b.setItem i text).Sound := by
  rw [Browser.setItem]
  split_ifs
  case pos => exact h
  case neg => exact h.fire (i := i) fun saved he => ht saved (by simpa using he)

theorem Sound.commit (h : b.Sound) : (b.commit i).Sound := by
  rw [Browser.commit]
  split
  case h_1 t _ =>
    refine h.setItem fun saved hs => ?_
    obtain rfl := Text.json.inj hs
    simp [AppState.toState_stringify]
  case h_2 => exact h

theorem Sound.update {f : AppState R → AppState R} (h : b.Sound) : (b.update i f).Sound := by
  refine Sound.commit (h.modify fun t _ => ?_)
  exact List.Subset.refl _

theorem Sound.reset {empty : AppState R} (h : b.Sound) : (b.reset i empty).Sound := by
  refine Sound.update ?_
  rw [removeItem]
  split
  case h_1 => exact h.fire (i := i) (e := .osKey none) (by simp)
  case h_2 => exact h

omit [DecidableEq R] in
theorem Sound.clearSession (h : b.Sound) : (b.clearSession i).Sound := by
  rw [Browser.clearSession]
  split
  case h_1 => exact h.fire (i := i) (e := .session) (by simp)
  case h_2 => exact h

omit [DecidableEq R] in
theorem Sound.setSession {authedUntil : Nat} (h : b.Sound) : (b.setSession i authedUntil).Sound := by
  rw [Browser.setSession]
  split_ifs
  case pos => exact h
  case neg => exact h.fire (i := i) (e := .session) (by simp)

theorem Sound.syncAuthStateFromSession (h : b.Sound) : (b.syncAuthStateFromSession i).Sound := by
  have ha : (b.isAuthenticated i).2.Sound := by
    rw [isAuthenticated]
    split
    case h_1 =>
      split_ifs
      case pos => exact h.clearSession
      case neg => exact h
    case h_2 => exact h
  rw [Browser.syncAuthStateFromSession, setAuthed]
  split
  case h_1 =>
    split_ifs
    case pos => exact ha
    case neg => exact ha.update
  case h_2 => exact ha

theorem Sound.handleStorageChange {empty : AppState R} (h : b.Sound) :
    (b.handleStorageChange i empty e).Sound := by
  match e with
  | .everything                  => exact h.reset
  | .osKey none                  => exact h.reset
  | .osKey (some (.malformed _)) => exact h
  | .session                     => exact h.syncAuthStateFromSession
  | .osKey (some (.json saved))  =>
    rw [Browser.handleStorageChange, syncStoreFromOsKey]
    split_ifs
    case pos => exact h.modify fun _ _ => List.Subset.refl _
    case neg => exact h

theorem Sound.dispatch {empty : AppState R} (h : b.Sound) : (b.dispatch i empty).Sound := by
  rw [Browser.dispatch]
  split
  case h_2 => exact h
  case h_1 state listening e inbox ht =>
    have hp : (b.modify i fun t => { t with inbox }).Sound := by
      refine h.modify fun t' ht' => ?_
      obtain rfl := Option.some.inj (ht.symm.trans ht')
      exact List.subset_cons_self _ _
    split_ifs
    case pos => exact hp.handleStorageChange
    case neg => exact hp

omit [DecidableEq R] in
theorem Sound.addTab (h : b.Sound) : (b.addTab i s).Sound := by
  intro j t ht saved hm
  by_cases hj : j = i
  case neg => exact h j t (by simpa [Browser.addTab, hj] using ht) saved hm
  case pos =>
    obtain rfl : _ = t := by simpa [Browser.addTab, hj] using ht
    exact nomatch hm

omit [DecidableEq R] in
theorem Sound.close (h : b.Sound) : (b.close i).Sound := by
  intro j t ht saved hm
  by_cases hj : j = i
  case neg => exact h j t (by simpa [Browser.close, hj] using ht) saved hm
  case pos => simp [Browser.close, hj] at ht

theorem Sound.load {empty : AppState R} (h : b.Sound) : (b.load i empty).Sound := by
  rw [Browser.load]
  split
  case h_1 => exact h.addTab
  case h_2 => exact h.addTab.setItem (by simp)

theorem osKey_setItem {text : Text R} : (b.setItem i text).osKey = some text := by
  rw [setItem]
  split_ifs with h
  case pos => exact h
  case neg => rfl

omit [DecidableEq ι] [DecidableEq R] in
theorem current_stored {saved : Saved R} (hc : current b.osKey = some saved)
    (hs : b.stored = some s) : saved = s.stringify := by
  rw [stored_eq_some.mp hs] at hc
  exact (Option.some.inj hc).symm

theorem Agrees.load {empty : AppState R} (h : b.toBroadcast.Agrees) :
    (b.load i empty).toBroadcast.Agrees := by
  rw [Browser.load]
  split
  case h_1 saved hc =>
    have hj : (b.addTab i (saved.merge empty)).toBroadcast =
        b.toBroadcast.join i (saved.merge empty) := by
      ext1 <;> try rfl
      funext j
      by_cases hj : j = i <;>
        simp [toBroadcast, addTab, Broadcast.join, hj, Tab.toMember, Tab.snapshots]
    rw [hj]
    refine h.join fun s hs => ?_
    rw [current_stored hc hs, Saved.merge_stringify]
  case h_2 =>
    refine .of_empty ?_
    rw [toBroadcast, stored, osKey_setItem]
    rfl

omit [DecidableEq R] in
theorem Agrees.close (h : b.toBroadcast.Agrees) : (b.close i).toBroadcast.Agrees := by
  have hl : (b.close i).toBroadcast = b.toBroadcast.leave i := by
    ext1 <;> try rfl
    funext j
    by_cases hj : j = i <;> simp [toBroadcast, Browser.close, Broadcast.leave, hj]
  rw [hl]
  exact h.leave

end Browser

variable {detected : Currency}

theorem Action.exec_cases {P : Browser ι R → Prop} {b : Browser ι R} {a : Action ι R} (h : P b)
    (hr : a.Enabled b → P (a.run detected b)) : P (a.exec detected b) := by
  rw [exec]
  split_ifs with ha
  case pos => exact hr ha
  case neg => exact h

def Consistent (b : Browser ι R) : Prop :=
  b.Sound ∧ b.toBroadcast.Agrees

theorem Consistent.exec {b : Browser ι R} {a : Action ι R} (h : Consistent b) (hl : Heard b a) :
    Consistent (a.exec detected b) := by
  refine Action.exec_cases h fun _ => ?_
  obtain ⟨hs, ha⟩ := h
  cases a with
  | load i rest => exact ⟨hs.load, Browser.Agrees.load ha⟩
  | initializeSync i =>
    refine ⟨hs.syncAuthStateFromSession.modify fun t _ => List.Subset.refl t.inbox, ?_⟩
    have hm : (b.initializeSync i).toBroadcast = (b.syncAuthStateFromSession i).toBroadcast :=
      Browser.toBroadcast_modify_of_eq fun _ _ => rfl
    rw [Action.run, hm]
    exact Browser.Agrees.syncAuthStateFromSession ha
  | update i f => exact ⟨hs.update, Browser.Agrees.update ha⟩
  | setSession i authedUntil =>
    refine ⟨hs.setSession, ?_⟩
    rwa [Action.run, Browser.toBroadcast_setSession]
  | sync i => exact ⟨hs.syncAuthStateFromSession, Browser.Agrees.syncAuthStateFromSession ha⟩
  | dispatch i rest =>
    refine ⟨hs.dispatch, Browser.Agrees.dispatch ha hs fun t ht => ?_⟩
    simpa [Heard, ht] using hl
  | logout i rest =>
    refine ⟨hs.clearSession.reset, Browser.Agrees.reset ?_⟩
    rwa [Browser.toBroadcast_clearSession]
  | close i => exact ⟨hs.close, Browser.Agrees.close ha⟩
  | clear i => exact ⟨hs.fire (by simp), .of_empty rfl⟩
  | tick => exact ⟨hs, ha⟩

theorem consistent_invariant : (system ι R detected).Invariant Heard Consistent where
  init {b} h := by
    have hn (i : ι) : b.tabs i = none := congrFun h i
    refine ⟨fun i t ht => ?_, fun _ i m _ hm => ?_⟩
    case refine_1 => exact nomatch (hn i).symm.trans ht
    case refine_2 => simp [Browser.toBroadcast, hn] at hm
  step h hl hs := hs ▸ h.exec hl

-- Once a tab has handled its events it shows what is stored. The only exception is the tab that
-- changed the storage last, if a snapshot was on its way to it then: it is left with that one.
theorem tabs_settle {b : Browser ι R} (h : (system ι R detected).Run Heard b) {i : ι} {t : Tab R}
    {s : AppState R} (hs : b.osKey = some (.json s.stringify)) (ht : b.tabs i = some t) :
    t.settled = s ∨ b.changed = some (i, some t.settled) :=
  (consistent_invariant.holds h).2 s i t.toMember (Browser.stored_eq_some.mpr hs)
    (Browser.member_tab ht)

def Browser.execs (detected : Currency) : Browser ι R → List (Action ι R) → Browser ι R
  | b, []      => b
  | b, a :: as => (a.exec detected b).execs detected as

def Browser.HeardAll (detected : Currency) : Browser ι R → List (Action ι R) → Prop
  | _, []      => True
  | b, a :: as => Heard b a ∧ (a.exec detected b).HeardAll detected as

theorem run_execs {b : Browser ι R} {as : List (Action ι R)}
    (h : (system ι R detected).Run Heard b) (ha : b.HeardAll detected as) :
    (system ι R detected).Run Heard (b.execs detected as) := by
  induction as generalizing b with
  | nil          => exact h
  | cons a as ih => exact ih (h.step ha.1 rfl) ha.2

-- Two tabs, which show empty states.
namespace Sample

def usd : Currency where
  code  := "USD"
  valid := by decide

def tab (rest : Nat) : Tab Nat where
  state     := emptyState usd rest
  listening := true
  inbox     := []

def browser : Browser (Fin 2) Nat where
  osKey   := some (.malformed "undefined")
  session := some 9
  now     := 0
  tabs i  := some (tab i)
  changed := none

def closed : Browser (Fin 2) Nat :=
  { browser with tabs := fun _ => none }

def setRest (rest : Nat) (s : AppState Nat) : AppState Nat :=
  { s with rest }

-- Both tabs change the store before they are told of the other's change.
def crossed : List (Action (Fin 2) Nat) :=
  [.load 0 5, .initializeSync 0, .load 1 6, .initializeSync 1, .update 0 (setRest 10),
    .update 1 (setRest 20), .dispatch 0 7, .dispatch 1 7, .dispatch 1 7]

def swapped : Browser (Fin 2) Nat :=
  closed.execs usd crossed

def shown (rest : Nat) : AppState Nat :=
  (emptyState usd rest).setAuthed true

end Sample

-- The second tab has changed the storage last, but it is left with what the first tab wrote.
theorem sample_tabs_settle :
    ∃ t, Sample.swapped.tabs 1 = some t ∧ t.state = Sample.shown 10 ∧
      (t.settled = Sample.shown 20 ∨ Sample.swapped.changed = some (1, some t.settled)) := by
  have hr : (system (Fin 2) Nat Sample.usd).Run Heard Sample.swapped := by
    refine run_execs (.init rfl) ?_
    exact ⟨trivial, trivial, trivial, trivial, trivial, trivial, rfl, rfl, rfl, trivial⟩
  exact ⟨_, rfl, rfl, tabs_settle hr (s := Sample.shown 20) rfl rfl⟩

section Resets

variable [Fintype ι]

def Tab.clears (t : Tab R) : Nat :=
  t.inbox.count (.osKey none)

namespace Browser

-- The notices that `OS_KEY` was removed which are still to be dispatched, and the open tabs.
def clears (b : Browser ι R) : Nat :=
  ∑ i, (b.tabs i).elim 0 Tab.clears

def opened (b : Browser ι R) : Nat :=
  ∑ i, (b.tabs i).elim 0 fun _ => 1

end Browser

-- A tab that listens, and that nobody has told of a `localStorage.clear()`.
def Tab.Watching (t : Tab R) : Prop :=
  t.listening ∧ .everything ∉ t.inbox

-- The step leaves the same tabs open, and they have that many notices more to dispatch.
structure Adds (n : Nat) (b b' : Browser ι R) : Prop where
  opened   : ∀ i, (b'.tabs i).isSome = (b.tabs i).isSome
  watching : (∀ i t, b.tabs i = some t → t.Watching) → ∀ i t, b'.tabs i = some t → t.Watching
  clears   : b'.clears = b.clears + n

variable {b b' b'' : Browser ι R} {i j : ι} {m n : Nat} {t : Tab R}

omit [DecidableEq ι] in
theorem Adds.refl : Adds 0 b b where
  opened _ := rfl
  watching := id
  clears   := rfl

omit [DecidableEq ι] in
theorem Adds.trans (h : Adds m b b') (h' : Adds n b' b'') : Adds (m + n) b b'' where
  opened i    := (h'.opened i).trans (h.opened i)
  watching hw := h'.watching (h.watching hw)
  clears      := by rw [h'.clears, h.clears, Nat.add_assoc]

-- Only the tabs matter.
omit [DecidableEq ι] in
theorem Adds.of_tabs (h : Adds n b b') (ht : b''.tabs = b'.tabs) : Adds n b b'' where
  opened i      := by rw [ht, h.opened i]
  watching hw i := by
    rw [ht]
    exact h.watching hw i
  clears        := by rw [Browser.clears, ht]; exact h.clears

theorem Adds.modify {f : Tab R → Tab R}
    (hf : ∀ t, b.tabs i = some t → (t.Watching → (f t).Watching) ∧ (f t).clears = t.clears) :
    Adds 0 b (b.modify i f) where
  opened j := by
    rw [Browser.tabs_modify]
    split_ifs <;> simp
  watching hw j t ht := by
    rw [Browser.tabs_modify] at ht
    split_ifs at ht with hj
    case neg => exact hw j t ht
    case pos =>
      subst hj
      obtain ⟨t', ht', rfl⟩ := Option.map_eq_some_iff.mp ht
      exact (hf t' ht').1 (hw j t' ht')
  clears := by
    refine Finset.sum_congr rfl fun j _ => ?_
    rw [Browser.tabs_modify]
    split_ifs with hj
    case neg => rfl
    case pos =>
      subst hj
      cases ht : b.tabs j with
      | none   => rfl
      | some t => exact (hf t ht).2

theorem Adds.fire {e : StorageEvent R} (he : e ≠ .everything) (hc : e ≠ .osKey none) :
    Adds 0 b (b.fire i e) where
  opened j := by simp [Browser.fire]
  watching hw j t ht := by
    obtain ⟨t', ht', rfl⟩ := Option.map_eq_some_iff.mp ht
    have hj := hw j t' ht'
    split_ifs
    case pos => exact hj
    case neg => exact ⟨hj.1, by simp [hj.2, he.symm]⟩
  clears := by
    refine Finset.sum_congr rfl fun j _ => ?_
    rw [Browser.fire]
    dsimp only
    cases b.tabs j with
    | none   => rfl
    | some t => by_cases hj : j = i <;> simp [Tab.clears, hj, hc]

omit [DecidableEq R] in
theorem opened_eq (h : b.tabs i = some t) :
    b.opened = (∑ j, (b.tabs j).elim 0 fun _ => if j = i then 0 else 1) + 1 := by
  have hi : ∑ j, (if j = i then 1 else 0) = 1 := by simp
  rw [← hi, ← Finset.sum_add_distrib]
  refine Finset.sum_congr rfl fun j _ => ?_
  by_cases hj : j = i
  case pos => simp [hj, h]
  case neg => cases b.tabs j <;> simp [hj]

omit [DecidableEq R] in
theorem opened_pos (h : b.tabs i = some t) : 0 < b.opened :=
  (opened_eq h).symm ▸ Nat.succ_pos _

-- All the other tabs are told that `OS_KEY` was removed.
theorem clears_fire (h : b.tabs i = some t) :
    (b.fire i (.osKey none)).clears = b.clears + (b.opened - 1) := by
  rw [opened_eq h, Nat.add_sub_cancel, Browser.clears, Browser.clears, ← Finset.sum_add_distrib]
  refine Finset.sum_congr rfl fun j _ => ?_
  rw [Browser.fire]
  dsimp only
  cases b.tabs j with
  | none   => rfl
  | some t => by_cases hj : j = i <;> simp [Tab.clears, hj]

theorem Adds.setItem {text : Text R} : Adds 0 b (b.setItem i text) := by
  rw [Browser.setItem]
  split_ifs
  case pos => exact .refl
  case neg =>
    have hf : Adds 0 b (b.fire i (.osKey (some text))) := .fire (by simp) (by simp)
    exact hf.of_tabs rfl

theorem Adds.commit : Adds 0 b (b.commit i) := by
  rw [Browser.commit]
  split
  case h_1 => exact .setItem
  case h_2 => exact .refl

theorem Adds.update {f : AppState R → AppState R} : Adds 0 b (b.update i f) := by
  have hm : Adds 0 b (b.modify i fun t => { t with state := f t.state }) :=
    .modify fun _ _ => ⟨id, rfl⟩
  exact hm.trans .commit

theorem Adds.reset {empty : AppState R} (ho : b.osKey.isSome) (h : b.tabs i = some t) :
    Adds (b.opened - 1) b (b.reset i empty) := by
  obtain ⟨text, ht⟩ := Option.isSome_iff_exists.mp ho
  have hr : Adds (b.opened - 1) b (b.removeItem i) := {
    opened j := by
      rw [Browser.removeItem, ht]
      simp [Browser.fire]
    watching hw j t' ht' := by
      rw [Browser.removeItem, ht] at ht'
      obtain ⟨t'', ht'', rfl⟩ := Option.map_eq_some_iff.mp ht'
      have hj := hw j t'' ht''
      split_ifs
      case pos => exact hj
      case neg => exact ⟨hj.1, by simp [hj.2]⟩
    clears := by
      rw [Browser.removeItem, ht]
      exact clears_fire h
  }
  exact hr.trans .update

theorem Adds.session {marker : Option Nat} :
    Adds 0 b { b.fire i .session with session := marker } :=
  (Adds.fire (b := b) (i := i) (e := .session) (by simp) (by simp)).of_tabs rfl

theorem Adds.clearSession : Adds 0 b (b.clearSession i) := by
  rw [Browser.clearSession]
  split
  case h_1 => exact .session
  case h_2 => exact .refl

theorem Adds.setSession {authedUntil : Nat} : Adds 0 b (b.setSession i authedUntil) := by
  rw [Browser.setSession]
  split_ifs
  case pos => exact .refl
  case neg => exact .session

theorem Adds.syncAuthStateFromSession : Adds 0 b (b.syncAuthStateFromSession i) := by
  have ha : Adds 0 b (b.isAuthenticated i).2 := by
    rw [Browser.isAuthenticated]
    split
    case h_1 =>
      split_ifs
      case pos => exact .clearSession
      case neg => exact .refl
    case h_2 => exact .refl
  refine ha.trans (n := 0) ?_
  rw [Browser.syncAuthStateFromSession, Browser.setAuthed]
  split
  case h_1 =>
    split_ifs
    case pos => exact .refl
    case neg => exact .update
  case h_2 => exact .refl

theorem Adds.initializeSync : Adds 0 b (b.initializeSync i) :=
  Adds.trans (n := 0) syncAuthStateFromSession <| by
    rw [Browser.initializeSync]
    exact .modify fun _ _ => ⟨fun h => ⟨rfl, h.2⟩, rfl⟩

omit [Fintype ι] in
theorem isSome_setItem {text : Text R} : (b.setItem i text).osKey.isSome := by
  rw [Browser.osKey_setItem]
  rfl

omit [Fintype ι] in
theorem isSome_update {f : AppState R → AppState R} (h : b.osKey.isSome) :
    (b.update i f).osKey.isSome := by
  rw [Browser.update, Browser.commit]
  split
  case h_1 => exact isSome_setItem
  case h_2 => exact h

omit [Fintype ι] in
theorem isSome_reset {empty : AppState R} (h : b.tabs i = some t) :
    (b.reset i empty).osKey.isSome := by
  have ht : ((b.removeItem i).modify i fun t => { t with state := empty }).tabs i ≠ none := by
    rw [Browser.tabs_modify, if_pos rfl, Browser.removeItem]
    split <;> simp [Browser.fire, h]
  rw [Browser.reset, Browser.update, Browser.commit]
  split
  case h_1 => exact isSome_setItem
  case h_2 hn => exact absurd hn ht

omit [Fintype ι] in
theorem isSome_syncAuthStateFromSession (h : b.osKey.isSome) :
    (b.syncAuthStateFromSession i).osKey.isSome := by
  have ha : (b.isAuthenticated i).2.osKey = b.osKey := by
    rw [Browser.isAuthenticated]
    split
    case h_1 hs =>
      split_ifs
      case pos => rw [Browser.clearSession, hs]; rfl
      case neg => rfl
    case h_2 => rfl
  rw [Browser.syncAuthStateFromSession, Browser.setAuthed]
  split
  case h_1 =>
    split_ifs
    case pos => rwa [ha]
    case neg => exact isSome_update (ha ▸ h)
  case h_2 => rwa [ha]

-- The notices that the action takes off an inbox, and the logouts.
def Action.handled (b : Browser ι R) : Action ι R → Nat
  | dispatch i _ => if ((b.tabs i).bind fun t => t.inbox.head?) = some (.osKey none) then 1 else 0
  | _            => 0

def Action.logouts (b : Browser ι R) : Action ι R → Nat
  | logout i _ => if (b.tabs i).isSome then 1 else 0
  | _          => 0

-- The tabs stay as they are, and nobody uses the browser's tools.
def Action.IsOwn : Action ι R → Prop
  | load .. | close _ | clear _ => False
  | _                           => True

-- The storage has been written, and all open tabs watch it.
structure Watched (b : Browser ι R) : Prop where
  osKey : b.osKey.isSome
  tabs  : ∀ i t, b.tabs i = some t → t.Watching

omit [DecidableEq ι] in
theorem Watched.adds (h : Watched b) (ha : Adds n b b') (ho : b'.osKey.isSome) : Watched b' :=
  ⟨ho, ha.watching h.tabs⟩

omit [DecidableEq ι] in
theorem Adds.opened_eq (h : Adds n b b') : b'.opened = b.opened := by
  refine Finset.sum_congr rfl fun j _ => ?_
  have hj := h.opened j
  cases ht : b.tabs j <;> cases ht' : b'.tabs j <;> simp [ht, ht'] at hj <;> rfl

-- One tab's inbox is changed.
theorem clears_modify {f : Tab R → Tab R} (h : b.tabs i = some t) :
    (b.modify i f).clears + t.clears = b.clears + (f t).clears := by
  have hs (b' : Browser ι R) : b'.clears =
      (b'.tabs i).elim 0 Tab.clears + ∑ j ∈ Finset.univ.erase i, (b'.tabs j).elim 0 Tab.clears :=
    (Finset.add_sum_erase _ _ (Finset.mem_univ i)).symm
  have ho : ∑ j ∈ Finset.univ.erase i, ((b.modify i f).tabs j).elim 0 Tab.clears =
      ∑ j ∈ Finset.univ.erase i, (b.tabs j).elim 0 Tab.clears := by
    refine Finset.sum_congr rfl fun j hj => ?_
    rw [Browser.tabs_modify, if_neg (Finset.ne_of_mem_erase hj)]
  rw [hs, hs b, ho, Browser.tabs_modify, if_pos rfl, h]
  simp only [Option.map_some, Option.elim_some]
  omega

-- What a tab does with an event: it resets the store if `OS_KEY` was removed.
theorem Adds.handleStorageChange {e : StorageEvent R} {empty : AppState R} (h : b.tabs i = some t)
    (ho : b.osKey.isSome) (he : e ≠ .everything) :
    Adds (if e = .osKey none then b.opened - 1 else 0) b (b.handleStorageChange i empty e) ∧
      (b.handleStorageChange i empty e).osKey.isSome := by
  match e with
  | .everything                  => exact absurd rfl he
  | .osKey none                  => exact ⟨.reset ho h, isSome_reset h⟩
  | .osKey (some (.malformed _)) => exact ⟨.refl, ho⟩
  | .session                     => exact ⟨.syncAuthStateFromSession, isSome_syncAuthStateFromSession ho⟩
  | .osKey (some (.json saved))  =>
    rw [if_neg (by simp), Browser.handleStorageChange, Browser.syncStoreFromOsKey]
    split_ifs
    case pos =>
      rw [Browser.applyExternalState]
      exact ⟨.modify fun _ _ => ⟨id, rfl⟩, ho⟩
    case neg => exact ⟨.refl, ho⟩

-- What a step does to a browser whose tabs all listen: that many notices are sent and taken.
structure Moves (sent taken : Nat) (b b' : Browser ι R) : Prop where
  watched : Watched b'
  opened  : b'.opened = b.opened
  clears  : b'.clears + taken = b.clears + sent * (b.opened - 1)

omit [DecidableEq ι] in
theorem Moves.idle (h : Watched b) : Moves 0 0 b b :=
  ⟨h, rfl, by simp⟩

omit [DecidableEq ι] in
theorem Moves.of_adds (h : Watched b) (ha : Adds 0 b b') (ho : b'.osKey.isSome) : Moves 0 0 b b' :=
  ⟨h.adds ha ho, ha.opened_eq, by simp [ha.clears]⟩

omit [DecidableEq R] in
theorem opened_modify {f : Tab R → Tab R} : (b.modify i f).opened = b.opened := by
  refine Finset.sum_congr rfl fun j _ => ?_
  rw [Browser.tabs_modify]
  split_ifs
  case pos => cases b.tabs j <;> rfl
  case neg => rfl

-- An event is taken off the inbox, and dropped.
omit [DecidableEq R] [Fintype ι] in
theorem Watched.pop {e : StorageEvent R} {inbox : List (StorageEvent R)} (h : Watched b)
    (ht : b.tabs i = some t) (hi : t.inbox = e :: inbox) :
    Watched (b.modify i fun t => { t with inbox }) := by
  refine ⟨h.osKey, fun j t' hj => ?_⟩
  rw [Browser.tabs_modify] at hj
  split_ifs at hj with hji
  case neg => exact h.tabs j t' hj
  case pos =>
    subst hji
    obtain ⟨t'', ht'', rfl⟩ := Option.map_eq_some_iff.mp hj
    obtain rfl := Option.some.inj (ht.symm.trans ht'')
    obtain ⟨hl, he⟩ := h.tabs j t ht
    exact ⟨hl, fun hm => he (hi ▸ .tail _ hm)⟩

theorem clears_pop {e : StorageEvent R} {inbox : List (StorageEvent R)} (ht : b.tabs i = some t)
    (hi : t.inbox = e :: inbox) :
    (b.modify i fun t => { t with inbox }).clears + (if e = .osKey none then 1 else 0) = b.clears := by
  have hc := clears_modify (f := fun t => { t with inbox }) ht
  simp only [Tab.clears, hi, List.count_cons, beq_iff_eq] at hc
  omega

-- The tab takes the notice that `OS_KEY` was removed, and answers it with one to each other tab.
theorem Watched.dispatch (h : Watched b) {empty : AppState R} {rest : R} :
    Moves (Action.handled b (.dispatch i rest)) (Action.handled b (.dispatch i rest)) b
      (b.dispatch i empty) := by
  cases ht : b.tabs i with
  | none   => simpa [Browser.dispatch, Action.handled, ht] using Moves.idle h
  | some t =>
    obtain ⟨state, listening, inbox⟩ := t
    cases inbox with
    | nil            => simpa [Browser.dispatch, Action.handled, ht] using Moves.idle h
    | cons e inbox =>
      obtain ⟨hl, he⟩ := h.tabs i _ ht
      obtain rfl : listening = true := hl
      have hm : (b.modify i fun t => { t with inbox }).tabs i =
          some { state, listening := true, inbox } := by
        rw [Browser.tabs_modify, if_pos rfl, ht]
        rfl
      have hd : b.dispatch i empty =
          (b.modify i fun t => { t with inbox }).handleStorageChange i empty e := by
        simp [Browser.dispatch, ht]
      have hn : Action.handled b (.dispatch i rest) = if e = .osKey none then 1 else 0 := by
        simp [Action.handled, ht]
      have hc := clears_pop ht rfl
      have hev : e ≠ .everything := fun hj => he (hj ▸ .head _)
      obtain ⟨ha, hs⟩ := @Adds.handleStorageChange _ _ _ _ _ _ _ _ _ empty hm h.osKey hev
      rw [hd, hn]
      refine ⟨(h.pop ht rfl).adds ha hs, ha.opened_eq.trans opened_modify, ?_⟩
      rw [ha.clears, opened_modify]
      split_ifs at hc ⊢ <;> omega

theorem Watched.logout (h : Watched b) {empty : AppState R} (ht : (b.tabs i).isSome) :
    Moves 1 0 b (b.logout i empty) := by
  have hc : Adds 0 b (b.clearSession i) := .clearSession
  have ho : (b.clearSession i).osKey = b.osKey := by
    rw [Browser.clearSession]
    split <;> rfl
  obtain ⟨t, ht⟩ := Option.isSome_iff_exists.mp ((hc.opened i).trans ht)
  have hr : Adds _ _ ((b.clearSession i).reset i empty) := Adds.reset (ho ▸ h.osKey) ht
  have ha := hc.trans hr
  refine ⟨h.adds ha (isSome_reset ht), ha.opened_eq, ?_⟩
  rw [Browser.logout, ha.clears, hc.opened_eq]
  omega

theorem Watched.run {a : Action ι R} (h : Watched b) (ha : a.IsOwn) (he : a.Enabled b) :
    Moves (a.logouts b + a.handled b) (a.handled b) b (a.run detected b) := by
  cases a with
  | load | close | clear  => exact ha.elim
  | initializeSync i      =>
    exact .of_adds h .initializeSync (isSome_syncAuthStateFromSession h.osKey)
  | update i f            => exact .of_adds h .update (isSome_update h.osKey)
  | setSession i _        =>
    refine .of_adds h .setSession ?_
    rw [Action.run, Browser.setSession]
    split_ifs <;> exact h.osKey
  | sync i                =>
    exact .of_adds h .syncAuthStateFromSession (isSome_syncAuthStateFromSession h.osKey)
  | dispatch i rest       =>
    have hl : Action.logouts b (.dispatch i rest) = 0 := rfl
    rw [hl, Nat.zero_add]
    exact h.dispatch
  | logout i rest         =>
    have hl : Action.logouts b (.logout i rest) = 1 := if_pos he
    have hh : Action.handled b (.logout i rest) = 0 := rfl
    rw [hl, hh]
    exact h.logout he
  | tick                  => exact .of_adds h (Adds.refl.of_tabs rfl) h.osKey

omit [DecidableEq ι] [Fintype ι] in
theorem Action.counts_of_disabled {a : Action ι R} (h : ¬a.Enabled b) :
    a.logouts b = 0 ∧ a.handled b = 0 := by
  cases a <;> simp_all [Enabled, logouts, handled]

theorem Watched.exec {a : Action ι R} (h : Watched b) (ha : a.IsOwn) :
    Moves (a.logouts b + a.handled b) (a.handled b) b (a.exec detected b) := by
  rw [Action.exec]
  split_ifs with he
  case pos => exact h.run ha he
  case neg =>
    obtain ⟨hl, hh⟩ := Action.counts_of_disabled he
    rw [hl, hh]
    exact .idle h

-- The sum of what is counted at the actions of a run.
def Browser.tally (detected : Currency) (count : Browser ι R → Action ι R → Nat) :
    Browser ι R → List (Action ι R) → Nat
  | _, []      => 0
  | b, a :: as => count b a + (a.exec detected b).tally detected count as

-- Each notice that `OS_KEY` was removed makes the tab that takes it reset the store again, and so
-- sends one to each of the other tabs. With two tabs or more, the tabs never settle after a logout.
theorem clears_execs {as : List (Action ι R)} (h : Watched b) (ho : 2 ≤ b.opened)
    (ha : ∀ a ∈ as, a.IsOwn) : (b.execs detected as).clears = b.clears +
      b.tally detected Action.logouts as * (b.opened - 1) +
      b.tally detected Action.handled as * (b.opened - 2) := by
  induction as generalizing b with
  | nil          => simp [Browser.execs, Browser.tally]
  | cons a as ih =>
    have hm : Moves _ _ b (a.exec detected b) := h.exec (ha a (.head _))
    obtain ⟨hw, he, hc⟩ := hm
    rw [Browser.execs, ih hw (he ▸ ho) fun a' h' => ha a' (.tail _ h'), he, Browser.tally,
      Browser.tally]
    obtain ⟨n, hn⟩ := Nat.exists_eq_add_of_le ho
    have h1 : b.opened - 1 = n + 1 := by omega
    have h2 : b.opened - 2 = n := by omega
    rw [h1] at hc
    rw [h1, h2]
    linarith

theorem Sample.watched : Watched Sample.browser where
  osKey := rfl
  tabs i t h := by
    obtain rfl := Option.some.inj h
    exact ⟨rfl, List.not_mem_nil⟩

theorem sample_clears_execs :
    (Sample.browser.execs Sample.usd
      [.logout 0 7, .dispatch 1 8, .dispatch 1 8, .dispatch 0 9]).clears = 1 := by
  rw [clears_execs Sample.watched (by decide) (by simp [Action.IsOwn])]
  decide

end Resets

end Frontend
