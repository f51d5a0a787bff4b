import MallChain.Lib.Transition

-- The rooms of the realtime feed: the server's socket handlers (`backend/src/index.js`), and the
-- manager of the web app's socket (`mallchain-os-v14/src/services/socket.ts`).
namespace Rooms

-- The rooms that can be joined, besides the one that each socket is in from the start, which has
-- the socket's own id.
inductive Room
  | wallet (address : String)
  | user (id : String)
  | conversation (id : String)
  | market
  | price
  | blocks
deriving DecidableEq, Repr

namespace Room

def name : Room → String
  | wallet address  => "wallet:" ++ address
  | user id         => "user:" ++ id
  | conversation id => "conversation:" ++ id
  | market          => "market:feed"
  | price           => "price:updates"
  | blocks          => "blocks:live"

-- `^mall1[a-z0-9]{38,58}$`
def isAddress (address : String) : Bool :=
  match address.toList with
  | 'm' :: 'a' :: 'l' :: 'l' :: '1' :: cs =>
    38 ≤ cs.length && cs.length ≤ 58 && cs.all fun c => 'a' ≤ c && c ≤ 'z' || c.isDigit
  | _ => false

-- `^[0-9a-fA-F]{24}$`
def isObjectId (id : String) : Bool :=
  id.toList.length == 24 &&
    id.toList.all fun c => c.isDigit || 'a' ≤ c && c ≤ 'f' || 'A' ≤ c && c ≤ 'F'

-- What the handlers check of the argument of an event.
def isFormatted : Room → Bool
  | wallet address  => isAddress address
  | user id         => isObjectId id
  | conversation id => isObjectId id
  | market          => true
  | price           => true
  | blocks          => true

-- The handler waits for the database before the room is joined.
def isLookedUp : Room → Bool
  | wallet _       => true
  | conversation _ => true
  | _              => false

-- There is an event to leave the room.
def canLeave : Room → Bool
  | wallet _       => true
  | user _         => true
  | conversation _ => true
  | _              => false

-- The server knows the rooms by their names.
theorem name_injective : Function.Injective name := by
  intro room room' h
  have hl := congrArg String.toList h
  cases room <;> cases room' <;> simp [name] at h hl ⊢ <;> exact h

end Room

-- The addresses that users have linked, and the participants of conversations.
structure Db where
  walletAddress : String → Option String
  participants  : String → List String

-- What the handlers require of a socket for a room.
def Db.allows (db : Db) (userId : Option String) (room : Room) : Bool :=
  room.isFormatted && match room with
  | .wallet address  => userId.any fun id => db.walletAddress id = some address
  | .user id         => userId = some id
  | .conversation id => userId.any fun userId => db.participants id |>.contains userId
  | _                => true

inductive Msg
  | subscribe (room : Room)
  | unsubscribe (room : Room)
deriving DecidableEq, Repr

-- A handler that waits for the database, and then for its turn.
structure Lookup where
  room    : Room
  granted : Option Bool
deriving DecidableEq, Repr

-- A socket at the server. The user is the one of the token that came with the handshake.
structure Socket where
  userId  : Option String
  rooms   : List Room
  lookups : List Lookup
deriving DecidableEq, Repr

def maxRoomsPerSocket : Nat := 20

namespace Socket

def connect (userId : Option String) : Socket where
  userId
  rooms   := []
  lookups := []

-- `socket.rooms.size`, with the room of the socket's own id
def size (s : Socket) : Nat :=
  s.rooms.length + 1

def joinRoomWithCap (room : Room) (s : Socket) : Socket :=
  if room ∈ s.rooms then s
  else if maxRoomsPerSocket ≤ s.size then s
  else { s with rooms := s.rooms ++ [room] }

def leave (room : Room) (s : Socket) : Socket :=
  { s with rooms := s.rooms.erase room }

-- The handlers of the events, up to where they wait for the database.
def receive (s : Socket) : Msg → Socket
  | .subscribe room =>
    match room with
    | .wallet _ | .conversation _ =>
      if room.isFormatted && s.userId.isSome then
        { s with lookups := s.lookups ++ [{ room, granted := none }] }
      else
        s
    | .user id =>
      if room.isFormatted && s.userId = some id then s.joinRoomWithCap room else s
    | .market | .price | .blocks => s.joinRoomWithCap room
  | .unsubscribe room => if room.canLeave && room.isFormatted then s.leave room else s

-- The database answers the handler in that place.
def lookUp (db : Db) (i : Nat) (s : Socket) : Socket :=
  { s with lookups := s.lookups.modify i fun l => { l with granted := some (db.allows s.userId l.room) } }

-- The handler in that place goes on.
def resume (i : Nat) (s : Socket) : Socket :=
  match s.lookups[i]? with
  | some { room, granted := some granted } =>
    let s' := { s with lookups := s.lookups.eraseIdx i }
    if granted then s'.joinRoomWithCap room else s'
  | _ => s

end Socket

namespace Socket

variable {s : Socket} {r room : Room} {m : Msg} {db : Db} {i : Nat}

def Refuses (room : Room) (s : Socket) : Prop :=
  room ∉ s.rooms ∧ maxRoomsPerSocket ≤ s.size

theorem mem_join (h : r ∈ (s.joinRoomWithCap room).rooms) : r ∈ s.rooms ∨ r = room := by
  rw [joinRoomWithCap] at h
  split_ifs at h
  case pos => exact .inl h
  case pos => exact .inl h
  case neg => simpa using h

theorem subset_join (h : r ∈ s.rooms) : r ∈ (s.joinRoomWithCap room).rooms := by
  rw [joinRoomWithCap]
  split_ifs
  case pos => exact h
  case pos => exact h
  case neg => simp [h]

theorem self_mem_join (h : ¬s.Refuses room) : room ∈ (s.joinRoomWithCap room).rooms := by
  rw [joinRoomWithCap]
  split_ifs with hr hm
  case pos => exact hr
  case pos => exact absurd ⟨hr, hm⟩ h
  case neg => simp

@[simp]
theorem lookups_join : (s.joinRoomWithCap room).lookups = s.lookups := by
  rw [joinRoomWithCap]
  split_ifs <;> rfl

@[simp]
theorem userId_join : (s.joinRoomWithCap room).userId = s.userId := by
  rw [joinRoomWithCap]
  split_ifs <;> rfl

-- The rooms of a socket are different, and there are not too many of them.
def WithinCap (s : Socket) : Prop :=
  s.rooms.Nodup ∧ s.size ≤ maxRoomsPerSocket

theorem WithinCap.join (h : s.WithinCap) : (s.joinRoomWithCap room).WithinCap := by
  rw [joinRoomWithCap]
  split_ifs with hr hm
  case pos => exact h
  case pos => exact h
  case neg =>
    refine ⟨List.nodup_append.mpr ⟨h.1, List.nodup_singleton _, ?_⟩, ?_⟩
    case refine_1 =>
      rintro r hm _ hr' rfl
      exact hr (List.mem_singleton.mp hr' ▸ hm)
    case refine_2 =>
      simp only [size, List.length_append, List.length_singleton] at hm ⊢
      omega

theorem WithinCap.leave (h : s.WithinCap) : (s.leave room).WithinCap := by
  have hl : (s.leave room).rooms.length ≤ s.rooms.length := List.length_erase_le
  have hs : s.size ≤ maxRoomsPerSocket := h.2
  exact ⟨h.1.erase _, by simp only [size] at hs ⊢; omega⟩

-- What the handler of an event does at once.
inductive Received (s : Socket) : Msg → Socket → Prop
  | refused {room : Room} : (∀ db : Db, db.allows s.userId room = false) →
      Received s (.subscribe room) s
  | asked {room : Room} : room.isLookedUp → Received s (.subscribe room)
      { s with lookups := s.lookups ++ [{ room, granted := none }] }
  | joined {room : Room} : room.isLookedUp = false → (∀ db : Db, db.allows s.userId room) →
      Received s (.subscribe room) (s.joinRoomWithCap room)
  | kept {room : Room} : ¬(room.canLeave ∧ room.isFormatted) → Received s (.unsubscribe room) s
  | left {room : Room} : room.canLeave → room.isFormatted → Received s (.unsubscribe room) (s.leave room)

theorem received (s : Socket) (m : Msg) : s.Received m (s.receive m) := by
  match m with
  | .subscribe (.wallet _) | .subscribe (.conversation _) =>
    simp only [receive]
    split_ifs with h
    case pos => exact .asked rfl
    case neg => exact .refused fun db => by cases hu : s.userId <;> simp_all [Db.allows]
  | .subscribe (.user id) =>
    simp only [receive]
    split_ifs with h
    case pos => exact .joined rfl fun db => by simpa [Db.allows] using h
    case neg => exact .refused fun db => by simpa [Db.allows] using h
  | .subscribe .market | .subscribe .price | .subscribe .blocks => exact .joined rfl fun _ => rfl
  | .unsubscribe room =>
    simp only [receive]
    split_ifs with h
    case pos =>
      obtain ⟨hl, hf⟩ := Bool.and_eq_true_iff.mp h
      exact .left hl hf
    case neg => exact .kept fun hk => h (Bool.and_eq_true_iff.mpr hk)

-- What a handler does when it goes on.
inductive Resumed (s : Socket) (i : Nat) : Socket → Prop
  | waits : (∀ room granted, s.lookups[i]? ≠ some { room, granted := some granted }) → Resumed s i s
  | denied {room : Room} : s.lookups[i]? = some { room, granted := some false } →
      Resumed s i { s with lookups := s.lookups.eraseIdx i }
  | joined {room : Room} : s.lookups[i]? = some { room, granted := some true } →
      Resumed s i ({ s with lookups := s.lookups.eraseIdx i }.joinRoomWithCap room)

theorem resumed (s : Socket) (i : Nat) : s.Resumed i (s.resume i) := by
  unfold resume
  split
  case h_1 room granted h =>
    cases granted with
    | false => exact .denied h
    | true  => exact .joined h
  case h_2 h => exact .waits fun room granted hl => h room granted hl

end Socket

-- The server with one socket, which any client may have opened, and with the databases that there
-- were before the present one.
structure Server where
  db     : Db
  past   : List Db
  socket : Socket

inductive Server.Event
  | receive (m : Msg)
  | lookUp (i : Nat)
  | resume (i : Nat)
  | change (db : Db)

namespace Server

def exec (s : Server) : Event → Server
  | .receive m => { s with socket := s.socket.receive m }
  | .lookUp i  => { s with socket := s.socket.lookUp s.db i }
  | .resume i  => { s with socket := s.socket.resume i }
  | .change db => { s with db, past := s.db :: s.past }

def system : TransitionSystem Server Event where
  init s      := s.past = [] ∧ ∃ userId, s.socket = .connect userId
  step s e s' := s' = s.exec e

-- The room was the user's at some time.
def Authorised (s : Server) (room : Room) : Prop :=
  ∃ db ∈ s.db :: s.past, db.allows s.socket.userId room

structure Guarded (s : Server) : Prop where
  rooms   : ∀ r ∈ s.socket.rooms, s.Authorised r
  granted : ∀ l ∈ s.socket.lookups, l.granted = some true → s.Authorised l.room
  cap     : s.socket.WithinCap

variable {s : Server} {room : Room} {m : Msg} {i : Nat} {t : Socket}

theorem Guarded.received (h : s.Guarded) (hr : s.socket.Received m t) :
    Guarded { s with socket := t } := by
  cases hr with
  | refused | kept => exact h
  | asked   =>
    refine ⟨h.rooms, fun l hl hg => ?_, h.cap⟩
    rcases List.mem_append.mp hl with hl | hl
    case inl => exact h.granted l hl hg
    case inr =>
      obtain rfl := List.mem_singleton.mp hl
      exact nomatch hg
  | joined _ ha =>
    refine ⟨fun r hm => ?_, fun l hl hg => ?_, h.cap.join⟩
    case refine_1 =>
      rw [Authorised, Socket.userId_join]
      rcases Socket.mem_join hm with hm | rfl
      case inl => exact h.rooms r hm
      case inr => exact ⟨s.db, .head _, ha s.db⟩
    case refine_2 =>
      rw [Authorised, Socket.userId_join]
      exact h.granted l (by simpa using hl) hg
  | left => exact ⟨fun r hm => h.rooms r (List.mem_of_mem_erase hm), h.granted, h.cap.leave⟩

theorem Guarded.lookUp (h : s.Guarded) : Guarded { s with socket := s.socket.lookUp s.db i } := by
  refine ⟨h.rooms, fun l hl hg => ?_, h.cap⟩
  obtain ⟨j, hj⟩ := List.mem_iff_getElem?.mp hl
  rw [Socket.lookUp, List.getElem?_modify] at hj
  obtain ⟨l', hl', rfl⟩ := Option.map_eq_some_iff.mp hj
  split_ifs at hg ⊢
  case pos => exact ⟨s.db, .head _, Option.some.inj hg⟩
  case neg => exact h.granted l' (List.mem_of_getElem? hl') hg

theorem Guarded.resumed (h : s.Guarded) (hr : s.socket.Resumed i t) :
    Guarded { s with socket := t } := by
  have hd : Guarded { s with socket := { s.socket with lookups := s.socket.lookups.eraseIdx i } } :=
    ⟨h.rooms, fun l hl hg => h.granted l (List.mem_of_mem_eraseIdx hl) hg, h.cap⟩
  cases hr with
  | waits  => exact h
  | denied => exact hd
  | joined hl =>
    refine ⟨fun r hm => ?_, fun l hl hg => ?_, hd.cap.join⟩
    case refine_1 =>
      rw [Authorised, Socket.userId_join]
      rcases Socket.mem_join hm with hm | rfl
      case inl => exact h.rooms r hm
      case inr => exact h.granted _ (List.mem_of_getElem? hl) rfl
    case refine_2 =>
      rw [Authorised, Socket.userId_join]
      exact hd.granted l (by simpa using hl) hg

theorem guarded_invariant : system.Invariant (fun _ _ => True) Guarded where
  init := by
    rintro s ⟨_, userId, hs⟩
    refine ⟨?_, ?_, ?_⟩ <;> simp [hs, Socket.connect, Socket.WithinCap, Socket.size, maxRoomsPerSocket]
  step := by
    rintro s e _ h _ rfl
    cases e with
    | receive m => exact h.received (s.socket.received m)
    | lookUp i  => exact h.lookUp
    | resume i  => exact h.resumed (s.socket.resumed i)
    | change db =>
      have hm {r : Room} : s.Authorised r → (s.exec (.change db)).Authorised r :=
        fun ⟨d, hd, ha⟩ => ⟨d, .tail _ hd, ha⟩
      exact ⟨fun r hr => hm (h.rooms r hr), fun l hl hg => hm (h.granted l hl hg), h.cap⟩

-- Whatever a client sends, and however the handlers and the database take turns, a socket is only
-- in rooms that were its user's, in each of them once, and in no more of them than it may be.
theorem rooms_authorised (h : system.Reachable s) :
    (∀ r ∈ s.socket.rooms, s.Authorised r) ∧ s.socket.WithinCap :=
  let hg := guarded_invariant.holds h
  ⟨hg.rooms, hg.cap⟩

end Server

-- The manager of the socket in the web app: the rooms that it wants to be in, and the user whose
-- notifications it wants.
structure Manager where
  subscriptions : List Room
  pendingUserId : Option String
deriving DecidableEq, Repr

-- The app with the user of the browser's cookie, and, while the socket is connected, with the socket
-- at the server and with what was emitted and has not arrived there.
structure Session where
  cookie  : Option String
  manager : Manager
  link    : Option (Socket × List Msg)
deriving DecidableEq, Repr

-- The argument of the event is not empty.
def Room.isNamed : Room → Bool
  | wallet address  => address ≠ ""
  | user id         => id ≠ ""
  | conversation id => id ≠ ""
  | _               => true

namespace Session

def emit (m : Msg) (s : Session) : Session :=
  { s with link := s.link.map fun (socket, inbox) => (socket, inbox ++ [m]) }

-- What the methods that subscribe to a room have in common.
def subscribe (room : Room) (s : Session) : Session :=
  if s.link.isSome && room.isNamed && !s.manager.subscriptions.contains room then
    { s.emit (.subscribe room) with
      manager := { s.manager with subscriptions := s.manager.subscriptions ++ [room] } }
  else
    s

def subscribeWallet (address : String) (s : Session) : Session :=
  s.subscribe (.wallet address)

def subscribeConversation (conversationId : String) (s : Session) : Session :=
  s.subscribe (.conversation conversationId)

def subscribeMarket (s : Session) : Session :=
  s.subscribe .market

def subscribePrice (s : Session) : Session :=
  s.subscribe .price

def subscribeBlocks (s : Session) : Session :=
  s.subscribe .blocks

-- What the methods that unsubscribe have in common. The feeds are never left.
def unsubscribe (room : Room) (s : Session) : Session :=
  if s.link.isSome && room.isNamed && room.canLeave && s.manager.subscriptions.contains room then
    { s.emit (.unsubscribe room) with
      manager := { s.manager with subscriptions := s.manager.subscriptions.filter (· ≠ room) } }
  else
    s

def unsubscribeWallet (address : String) (s : Session) : Session :=
  s.unsubscribe (.wallet address)

def unsubscribeConversation (conversationId : String) (s : Session) : Session :=
  s.unsubscribe (.conversation conversationId)

def setPending (userId : Option String) (s : Session) : Session :=
  { s with manager := { s.manager with pendingUserId := userId } }

def subscribeUser (userId : String) (s : Session) : Session :=
  if userId = "" then s else (s.setPending (some userId)).subscribe (.user userId)

def unsubscribeUser (userId : String) (s : Session) : Session :=
  let s' := if s.manager.pendingUserId = some userId then s.setPending none else s
  s'.unsubscribe (.user userId)

-- The `connect` event of a new socket, after `resubscribeAll`.
def resubscribed (s : Session) : Session :=
  { s with link := some (.connect s.cookie, s.manager.subscriptions.map .subscribe) }

def connect (s : Session) : Session :=
  match s.link, s.manager.pendingUserId with
  | some _, _           => s
  | none, none          => s.resubscribed
  | none, some userId   => s.resubscribed.subscribeUser userId

-- The socket is gone. `reauth()` ends it as well, and connects again.
def drop (s : Session) : Session :=
  { s with link := none }

def disconnect (s : Session) : Session :=
  { s with link := none, manager := { s.manager with subscriptions := [] } }

-- The server receives what was emitted first.
def deliver (s : Session) : Session :=
  match s.link with
  | some (socket, m :: inbox) => { s with link := some (socket.receive m, inbox) }
  | _                         => s

def serve (f : Socket → Socket) (s : Session) : Session :=
  { s with link := s.link.map fun (socket, inbox) => (f socket, inbox) }

end Session

inductive Action
  | login (cookie : Option String)
  | connect
  | drop
  | disconnect
  | subscribeWallet (address : String)
  | subscribeConversation (conversationId : String)
  | subscribeMarket
  | subscribePrice
  | subscribeBlocks
  | unsubscribeWallet (address : String)
  | unsubscribeConversation (conversationId : String)
  | subscribeUser (userId : String)
  | unsubscribeUser (userId : String)
  | deliver
  | lookUp (i : Nat)
  | resume (i : Nat)
deriving DecidableEq, Repr

def Action.exec (db : Db) (s : Session) : Action → Session
  | login cookie               => { s with cookie }
  | connect                    => s.connect
  | drop                       => s.drop
  | disconnect                 => s.disconnect
  | subscribeWallet address    => s.subscribeWallet address
  | subscribeConversation id   => s.subscribeConversation id
  | subscribeMarket            => s.subscribeMarket
  | subscribePrice             => s.subscribePrice
  | subscribeBlocks            => s.subscribeBlocks
  | unsubscribeWallet address  => s.unsubscribeWallet address
  | unsubscribeConversation id => s.unsubscribeConversation id
  | subscribeUser userId       => s.subscribeUser userId
  | unsubscribeUser userId     => s.unsubscribeUser userId
  | deliver                    => s.deliver
  | lookUp i                   => s.serve (·.lookUp db i)
  | resume i                   => s.serve (·.resume i)

def system (db : Db) : TransitionSystem Session Action where
  init s      := s.link = none ∧ s.manager = { subscriptions := [], pendingUserId := none }
  step s a s' := s' = a.exec db s

-- The server does not turn a subscription down because the socket is in too many rooms.
def Admitted (s : Session) (a : Action) : Prop :=
  ∀ socket inbox, s.link = some (socket, inbox) →
    match a with
    | .deliver  => ∀ room, inbox.head? = some (.subscribe room) → ¬socket.Refuses room
    | .resume i => ∀ l, socket.lookups[i]? = some l → ¬socket.Refuses l.room
    | _         => True

-- Whether a room will be joined by a socket once the messages have arrived.
def after (allowed : Prop) (room : Room) : List Msg → Prop → Prop
  | [], p                          => p
  | .subscribe room' :: inbox, p   => after allowed room inbox (p ∨ room' = room ∧ allowed)
  | .unsubscribe room' :: inbox, p =>
    after allowed room inbox (p ∧ ¬(room' = room ∧ room.canLeave ∧ room.isFormatted))

section After

variable {allowed : Prop} {room room' : Room} {inbox inbox' : List Msg} {p q : Prop}

theorem after_append : after allowed room (inbox ++ inbox') p ↔
    after allowed room inbox' (after allowed room inbox p) := by
  induction inbox generalizing p with
  | nil          => rfl
  | cons m inbox ih => cases m <;> exact ih

theorem after_mono (h : p → q) (hp : after allowed room inbox p) : after allowed room inbox q := by
  induction inbox generalizing p q with
  | nil          => exact h hp
  | cons m inbox ih =>
    cases m with
    | subscribe room'   => exact ih (Or.imp_left h) hp
    | unsubscribe room' => exact ih (And.imp_left h) hp

theorem of_after (hp : after allowed room inbox p) : p ∨ allowed := by
  induction inbox generalizing p with
  | nil          => exact .inl hp
  | cons m inbox ih =>
    cases m with
    | subscribe room'   => exact (ih hp).elim (Or.imp_right And.right) .inr
    | unsubscribe room' => exact (ih hp).imp_left And.left

theorem after_subscriptions {rooms : List Room} :
    after allowed room (rooms.map .subscribe) p ↔ p ∨ room ∈ rooms ∧ allowed := by
  induction rooms generalizing p with
  | nil             => simp [after]
  | cons room' rooms ih =>
    rw [List.map_cons, after, ih, List.mem_cons]
    constructor <;> intro h <;> grind

end After

-- The socket is in the room, or a handler is about to let it in.
def Socket.Holds (s : Socket) (room : Room) : Prop :=
  room ∈ s.rooms ∨ ∃ l ∈ s.lookups, l.room = room

-- A socket that was served by this database.
structure Socket.Served (db : Db) (s : Socket) : Prop where
  allowed : ∀ r ∈ s.rooms, db.allows s.userId r
  cap     : s.WithinCap
  asked   : ∀ l ∈ s.lookups, l.room.isLookedUp
  granted : ∀ l ∈ s.lookups, ∀ g, l.granted = some g → g = db.allows s.userId l.room

-- Once the messages have arrived, the socket is in the rooms that were subscribed to.
structure Tracks (db : Db) (subscriptions : List Room) (s : Socket) (inbox : List Msg) : Prop where
  wanted : ∀ r ∈ subscriptions, db.allows s.userId r →
    after (db.allows s.userId r) r inbox (s.Holds r)
  joined : ∀ r, r.isLookedUp = false → after (db.allows s.userId r) r inbox (r ∈ s.rooms) →
    r ∈ subscriptions

section Socket

variable {db : Db} {s t : Socket} {room : Room} {m : Msg} {inbox : List Msg} {i : Nat}
  {subscriptions : List Room}

theorem Socket.Received.userId (h : s.Received m t) : t.userId = s.userId := by
  cases h with
  | joined => exact userId_join
  | refused | asked | kept | left => rfl

theorem Socket.Served.join (h : s.Served db) (ha : db.allows s.userId room) :
    (s.joinRoomWithCap room).Served db := by
  refine ⟨fun r hm => ?_, h.cap.join, ?_, ?_⟩
  case refine_1 =>
    rw [userId_join]
    rcases mem_join hm with hm | rfl
    case inl => exact h.allowed r hm
    case inr => exact ha
  case refine_2 => simpa using h.asked
  case refine_3 => simpa using h.granted

theorem Socket.Served.received (h : s.Served db) (hr : s.Received m t) : t.Served db := by
  cases hr with
  | refused | kept => exact h
  | joined _ ha  => exact h.join (ha db)
  | left         =>
    exact ⟨fun r hm => h.allowed r (List.mem_of_mem_erase hm), h.cap.leave, h.asked, h.granted⟩
  | asked hl     =>
    refine ⟨h.allowed, h.cap, fun l hm => ?_, fun l hm g hg => ?_⟩
    all_goals rcases List.mem_append.mp hm with hm | hm
    case refine_1.inl => exact h.asked l hm
    case refine_1.inr => exact List.mem_singleton.mp hm ▸ hl
    case refine_2.inl => exact h.granted l hm g hg
    case refine_2.inr => exact nomatch (List.mem_singleton.mp hm ▸ hg)

theorem Socket.mem_lookUp {l : Lookup} (h : l ∈ (s.lookUp db i).lookups) :
    l ∈ s.lookups ∨ ∃ l' ∈ s.lookups, l = { l' with granted := some (db.allows s.userId l'.room) } := by
  obtain ⟨j, hj⟩ := List.mem_iff_getElem?.mp h
  rw [lookUp, List.getElem?_modify] at hj
  obtain ⟨l', hl', rfl⟩ := Option.map_eq_some_iff.mp hj
  split_ifs
  case pos => exact .inr ⟨l', List.mem_of_getElem? hl', rfl⟩
  case neg => exact .inl (List.mem_of_getElem? hl')

theorem Socket.Served.lookUp (h : s.Served db) : (s.lookUp db i).Served db := by
  refine ⟨h.allowed, h.cap, fun l hm => ?_, fun l hm g hg => ?_⟩
  all_goals rcases mem_lookUp hm with hl | ⟨l', hl, rfl⟩
  case refine_1.inl => exact h.asked l hl
  case refine_1.inr => exact h.asked l' hl
  case refine_2.inl => exact h.granted l hl g hg
  case refine_2.inr => exact (Option.some.inj hg).symm

theorem Socket.Served.resumed (h : s.Served db) (hr : s.Resumed i t) : t.Served db := by
  have hd : Socket.Served db { s with lookups := s.lookups.eraseIdx i } :=
    ⟨h.allowed, h.cap, fun l hm => h.asked l (List.mem_of_mem_eraseIdx hm),
      fun l hm => h.granted l (List.mem_of_mem_eraseIdx hm)⟩
  cases hr with
  | waits     => exact h
  | denied    => exact hd
  | joined hl => exact hd.join (h.granted _ (List.mem_of_getElem? hl) true rfl).symm

theorem Socket.Holds.received (h : after (db.allows s.userId room) room [m] (s.Holds room))
    (ha : db.allows s.userId room) (hr : s.Received m t) (hc : ∀ r, m = .subscribe r → ¬s.Refuses r) :
    t.Holds room := by
  cases hr with
  | refused hn =>
    rcases h with h | ⟨rfl, _⟩
    case inl => exact h
    case inr => exact absurd ha (by simp [hn db])
  | asked hl =>
    rcases h with (h | ⟨l, hm, h⟩) | ⟨rfl, _⟩
    case inl.inl => exact .inl h
    case inl.inr => exact .inr ⟨l, List.mem_append_left _ hm, h⟩
    case inr => exact .inr ⟨_, List.mem_append_right _ (.head _), rfl⟩
  | joined hl hj =>
    rcases h with (h | h) | ⟨rfl, _⟩
    case inl.inl => exact .inl (subset_join h)
    case inl.inr => exact .inr (by simpa using h)
    case inr => exact .inl (self_mem_join (hc _ rfl))
  | kept hk => exact h.1
  | left hl hf =>
    obtain ⟨h | h, hn⟩ := h
    case inl =>
      refine .inl ((List.mem_erase_of_ne fun he => hn ?_).mpr h)
      obtain rfl := he
      exact ⟨rfl, hl, hf⟩
    case inr => exact .inr h

theorem Socket.Received.after (hr : s.Received m t) (hs : s.Served db) (h : room ∈ t.rooms)
    (hl : room.isLookedUp = false) :
    after (db.allows s.userId room) room [m] (room ∈ s.rooms) := by
  cases hr with
  | refused | asked => exact .inl h
  | joined _ ha  =>
    rcases mem_join h with h | rfl
    case inl => exact .inl h
    case inr => exact .inr ⟨rfl, ha db⟩
  | kept hk => exact ⟨h, fun hn => hk (hn.1 ▸ hn.2)⟩
  | left hl hf =>
    refine ⟨List.mem_of_mem_erase h, fun hn => ?_⟩
    obtain rfl := hn.1
    exact hs.cap.1.not_mem_erase h

theorem Tracks.deliver (h : Tracks db subscriptions s (m :: inbox)) (hs : s.Served db)
    (hr : s.Received m t) (hc : ∀ r, m = .subscribe r → ¬s.Refuses r) :
    Tracks db subscriptions t inbox := by
  refine ⟨fun r hm ha => ?_, fun r hl hj => ?_⟩
  all_goals rw [hr.userId] at *
  case refine_1 =>
    have hw := h.wanted r hm ha
    rw [← List.singleton_append, after_append] at hw
    exact after_mono (fun hp => Socket.Holds.received hp ha hr hc) hw
  case refine_2 =>
    refine h.joined r hl ?_
    rw [← List.singleton_append, after_append]
    exact after_mono (fun hp => hr.after hs hp hl) hj

theorem Socket.holds_lookUp : (s.lookUp db i).Holds room ↔ s.Holds room := by
  have hl : (s.lookUp db i).lookups.map Lookup.room = s.lookups.map Lookup.room := by
    refine List.ext_getElem? fun j => ?_
    rw [List.getElem?_map, List.getElem?_map, lookUp, List.getElem?_modify]
    cases s.lookups[j]? with
    | none   => rfl
    | some l => by_cases hj : i = j <;> simp [hj]
  rw [Holds, Holds, ← List.mem_map, ← List.mem_map, hl]
  rfl

theorem Tracks.lookUp (h : Tracks db subscriptions s inbox) :
    Tracks db subscriptions (s.lookUp db i) inbox :=
  ⟨fun r hm ha => after_mono Socket.holds_lookUp.mpr (h.wanted r hm ha), h.joined⟩

-- A handler that is denied the room leaves the others as they are.
theorem Socket.Holds.eraseIdx {l : Lookup} (h : s.Holds room) (hl : s.lookups[i]? = some l) :
    Socket.Holds { s with lookups := s.lookups.eraseIdx i } room ∨ room = l.room := by
  rcases h with h | ⟨l', hm, rfl⟩
  case inl => exact .inl (.inl h)
  case inr =>
    obtain ⟨j, hj⟩ := List.mem_iff_getElem?.mp hm
    by_cases he : j = i
    case pos =>
      subst he
      exact .inr (congrArg Lookup.room (Option.some.inj (hj.symm.trans hl)))
    case neg => exact .inl (.inr ⟨l', List.mem_eraseIdx_iff_getElem?.mpr ⟨j, he, hj⟩, rfl⟩)

theorem Tracks.resume (h : Tracks db subscriptions s inbox) (hs : s.Served db)
    (hr : s.Resumed i t) (hc : ∀ l, s.lookups[i]? = some l → ¬s.Refuses l.room) :
    Tracks db subscriptions t inbox := by
  cases hr with
  | waits => exact h
  | @denied room hl =>
    refine ⟨fun r hm ha => after_mono (fun hp => ?_) (h.wanted r hm ha), h.joined⟩
    rcases hp.eraseIdx hl with hp | rfl
    case inl => exact hp
    case inr =>
      have hn := hs.granted _ (List.mem_of_getElem? hl) false rfl
      exact absurd (hn.trans ha) Bool.false_ne_true
  | @joined room hl =>
    refine ⟨fun r hm ha => ?_, fun r hn hj => ?_⟩
    all_goals rw [Socket.userId_join] at *
    case refine_1 =>
      refine after_mono (fun hp => ?_) (h.wanted r hm ha)
      rcases hp.eraseIdx hl with (hp | ⟨l, hp⟩) | rfl
      case inl.inl => exact .inl (Socket.subset_join hp)
      case inl.inr => exact .inr ⟨l, by simpa using hp⟩
      case inr => exact .inl (Socket.self_mem_join (hc _ hl))
    case refine_2 =>
      refine h.joined r hn (after_mono (fun hp => ?_) hj)
      rcases Socket.mem_join hp with hp | rfl
      case inl => exact hp
      case inr => exact absurd (hs.asked _ (List.mem_of_getElem? hl)) (by simp [hn])

theorem Tracks.subscribe (h : Tracks db subscriptions s inbox) :
    Tracks db (subscriptions ++ [room]) s (inbox ++ [.subscribe room]) := by
  refine ⟨fun r hm ha => after_append.mpr ?_, fun r hl hj => ?_⟩
  case refine_1 =>
    rcases List.mem_append.mp hm with hm | hm
    case inl => exact .inl (h.wanted r hm ha)
    case inr => exact .inr ⟨(List.mem_singleton.mp hm).symm, ha⟩
  case refine_2 =>
    rcases after_append.mp hj with hj | ⟨rfl, _⟩
    case inl => exact List.mem_append_left _ (h.joined r hl hj)
    case inr => exact List.mem_append_right _ (.head _)

theorem Tracks.unsubscribe (h : Tracks db subscriptions s inbox) (hs : s.Served db)
    (hl : room.canLeave) :
    Tracks db (subscriptions.filter (· ≠ room)) s (inbox ++ [.unsubscribe room]) := by
  refine ⟨fun r hm ha => after_append.mpr ?_, fun r hn hj => ?_⟩
  case refine_1 =>
    obtain ⟨hm, hne⟩ := List.mem_filter.mp hm
    exact ⟨h.wanted r hm ha, fun he => of_decide_eq_true hne he.1.symm⟩
  case refine_2 =>
    obtain ⟨hj, hne⟩ := after_append.mp hj
    refine List.mem_filter.mpr ⟨h.joined r hn hj, decide_eq_true fun he => hne ⟨he.symm, he ▸ hl, ?_⟩⟩
    have ha : db.allows s.userId r := (of_after hj).elim (hs.allowed r) id
    exact (Bool.and_eq_true_iff.mp ha).1

theorem Tracks.resubscribed {userId : Option String} :
    Tracks db subscriptions (.connect userId) (subscriptions.map .subscribe) := by
  refine ⟨fun r hm ha => after_subscriptions.mpr (.inr ⟨hm, ha⟩), fun r _ hj => ?_⟩
  rcases after_subscriptions.mp hj with hj | hj
  case inl => exact nomatch hj
  case inr => exact hj.1

theorem Socket.Served.connect {userId : Option String} : (connect userId).Served db := by
  refine ⟨?_, ?_, ?_, ?_⟩ <;>
    simp [Socket.connect, WithinCap, size, maxRoomsPerSocket]

end Socket

namespace Session

-- The socket of a session that is connected is on its way to the rooms of the manager.
def Linked (db : Db) (s : Session) : Prop :=
  ∀ socket inbox, s.link = some (socket, inbox) →
    socket.Served db ∧ Tracks db s.manager.subscriptions socket inbox

-- While it is connected, the manager has subscribed to the pending user's room.
def Pending (s : Session) : Prop :=
  ∀ userId, s.manager.pendingUserId = some userId →
    userId ≠ "" ∧ (s.link.isSome → .user userId ∈ s.manager.subscriptions)

variable {db : Db} {s : Session} {room : Room} {userId : String} {m : Msg} {t : Socket}
  {inbox : List Msg}

theorem emit_eq (h : (s.emit m).link = some (t, inbox)) :
    ∃ inbox', s.link = some (t, inbox') ∧ inbox = inbox' ++ [m] := by
  obtain ⟨⟨t', inbox'⟩, hl, he⟩ := Option.map_eq_some_iff.mp h
  obtain ⟨rfl, rfl⟩ := Prod.mk.inj he
  exact ⟨inbox', hl, rfl⟩

theorem isSome_emit : (s.emit m).link.isSome = s.link.isSome :=
  Option.isSome_map

theorem Linked.subscribe (h : s.Linked db) : (s.subscribe room).Linked db := by
  rw [Session.subscribe]
  split_ifs
  case neg => exact h
  case pos =>
    intro t inbox ht
    obtain ⟨inbox', hl, rfl⟩ := emit_eq ht
    obtain ⟨hs, ht⟩ := h t inbox' hl
    exact ⟨hs, ht.subscribe⟩

theorem Linked.unsubscribe (h : s.Linked db) : (s.unsubscribe room).Linked db := by
  rw [Session.unsubscribe]
  split_ifs with hc
  case neg => exact h
  case pos =>
    intro t inbox ht
    obtain ⟨inbox', hl, rfl⟩ := emit_eq ht
    obtain ⟨hs, ht⟩ := h t inbox' hl
    have hr : room.canLeave := by simp_all
    exact ⟨hs, ht.unsubscribe hs hr⟩

theorem Linked.subscribeUser (h : s.Linked db) : (s.subscribeUser userId).Linked db := by
  rw [Session.subscribeUser]
  split_ifs
  case pos => exact h
  case neg => exact Linked.subscribe (s := s.setPending (some userId)) h

theorem Linked.unsubscribeUser (h : s.Linked db) : (s.unsubscribeUser userId).Linked db := by
  rw [Session.unsubscribeUser]
  refine Linked.unsubscribe ?_
  split_ifs
  case pos => exact h
  case neg => exact h

theorem Linked.resubscribed : s.resubscribed.Linked db := by
  intro t inbox ht
  obtain ⟨rfl, rfl⟩ := Prod.mk.inj (Option.some.inj ht)
  exact ⟨.connect, .resubscribed⟩

theorem Linked.connect (h : s.Linked db) : s.connect.Linked db := by
  rw [Session.connect]
  split
  case h_1 => exact h
  case h_2 => exact .resubscribed
  case h_3 => exact Linked.resubscribed.subscribeUser

theorem Linked.of_unlinked (h : s.link = none) : s.Linked db :=
  fun _ _ ht => nomatch h.symm.trans ht

theorem Linked.deliver (h : s.Linked db) (ha : Admitted s .deliver) : s.deliver.Linked db := by
  rw [Session.deliver]
  split
  case h_2 => exact h
  case h_1 socket m inbox hl =>
    intro t inbox' ht
    obtain ⟨rfl, rfl⟩ := Prod.mk.inj (Option.some.inj ht)
    obtain ⟨hs, ht⟩ := h _ _ hl
    refine ⟨hs.received (socket.received m), ht.deliver hs (socket.received m) fun r hr => ?_⟩
    exact ha _ _ hl r (by rw [hr]; rfl)

theorem serve_eq {f : Socket → Socket} (h : (s.serve f).link = some (t, inbox)) :
    ∃ socket, s.link = some (socket, inbox) ∧ t = f socket := by
  obtain ⟨⟨socket, inbox'⟩, hl, he⟩ := Option.map_eq_some_iff.mp h
  obtain ⟨rfl, rfl⟩ := Prod.mk.inj he
  exact ⟨socket, hl, rfl⟩

theorem Linked.lookUp {i : Nat} (h : s.Linked db) : (s.serve (·.lookUp db i)).Linked db := by
  intro t inbox ht
  obtain ⟨socket, hl, rfl⟩ := serve_eq ht
  obtain ⟨hs, ht⟩ := h _ _ hl
  exact ⟨hs.lookUp, ht.lookUp⟩

theorem Linked.resume {i : Nat} (h : s.Linked db) (ha : Admitted s (.resume i)) :
    (s.serve (·.resume i)).Linked db := by
  intro t inbox ht
  obtain ⟨socket, hl, rfl⟩ := serve_eq ht
  obtain ⟨hs, ht⟩ := h _ _ hl
  exact ⟨hs.resumed (socket.resumed i), ht.resume hs (socket.resumed i) (ha _ _ hl)⟩

theorem Pending.subscribe (h : s.Pending) : (s.subscribe room).Pending := by
  rw [Session.subscribe]
  split_ifs
  case neg => exact h
  case pos =>
    intro userId hp
    obtain ⟨hn, hm⟩ := h userId hp
    exact ⟨hn, fun hl => List.mem_append_left _ (hm (isSome_emit ▸ hl))⟩

-- The pending user's room is not left.
theorem Pending.unsubscribe (h : s.Pending)
    (hr : ∀ userId, s.manager.pendingUserId = some userId → room ≠ .user userId) :
    (s.unsubscribe room).Pending := by
  rw [Session.unsubscribe]
  split_ifs
  case neg => exact h
  case pos =>
    intro userId hp
    obtain ⟨hn, hm⟩ := h userId hp
    refine ⟨hn, fun hl => List.mem_filter.mpr ⟨hm (isSome_emit ▸ hl), ?_⟩⟩
    exact decide_eq_true (hr userId hp).symm

-- Whoever the pending user was, the new one's room is subscribed to.
theorem pending_subscribeUser (hn : userId ≠ "") : (s.subscribeUser userId).Pending := by
  rw [subscribeUser, if_neg hn, subscribe]
  split_ifs with hc
  all_goals
    intro userId' hp
    obtain rfl : userId = userId' := Option.some.inj hp
    refine ⟨hn, fun hl => ?_⟩
  case pos => exact List.mem_append_right _ (.head _)
  case neg =>
    have hl' : s.link.isSome := hl
    simpa [setPending, hl', Room.isNamed, hn] using hc

theorem Pending.subscribeUser (h : s.Pending) : (s.subscribeUser userId).Pending := by
  by_cases hn : userId = ""
  case pos => rwa [Session.subscribeUser, if_pos hn]
  case neg => exact pending_subscribeUser hn

theorem Pending.unsubscribeUser (h : s.Pending) : (s.unsubscribeUser userId).Pending := by
  rw [Session.unsubscribeUser]
  split_ifs with hu
  case pos => exact Pending.unsubscribe (fun _ hp => nomatch hp) fun _ hp => nomatch hp
  case neg =>
    refine h.unsubscribe fun userId' hp he => hu ?_
    obtain rfl := Room.user.inj he
    exact hp

theorem Pending.connect (h : s.Pending) : s.connect.Pending := by
  rw [Session.connect]
  split
  case h_1 => exact h
  case h_2 hp =>
    intro userId hu
    exact nomatch hp.symm.trans hu
  case h_3 userId _ hp => exact pending_subscribeUser (h userId hp).1

theorem Pending.of_unlinked (h : s.Pending) {s' : Session}
    (hp : s'.manager.pendingUserId = s.manager.pendingUserId) (hl : s'.link = none) : s'.Pending :=
  fun userId hu => ⟨(h userId (hp ▸ hu)).1, fun hs => absurd hs (by simp [hl])⟩

theorem Pending.of_isSome (h : s.Pending) {s' : Session} (hm : s'.manager = s.manager)
    (hl : s'.link.isSome → s.link.isSome) : s'.Pending :=
  fun userId hu => ⟨(h userId (hm ▸ hu)).1, fun hs => hm ▸ (h userId (hm ▸ hu)).2 (hl hs)⟩

theorem Pending.deliver (h : s.Pending) : s.deliver.Pending := by
  rw [Session.deliver]
  split
  case h_1 hl => exact h.of_isSome rfl fun _ => by simp [hl]
  case h_2 => exact h

end Session

variable {db : Db} {s : Session}

theorem session_invariant : (system db).Invariant Admitted fun s => s.Linked db ∧ s.Pending where
  init := by
    rintro s ⟨hl, hm⟩
    exact ⟨.of_unlinked hl, fun userId hp => nomatch (hm ▸ hp)⟩
  step := by
    rintro s a _ ⟨h, hp⟩ ha rfl
    have hs {f : Socket → Socket} : (s.serve f).Pending :=
      hp.of_isSome rfl fun hs => by simpa [Session.serve] using hs
    cases a with
    | login cookie               => exact ⟨h, hp⟩
    | connect                    => exact ⟨h.connect, hp.connect⟩
    | drop                       => exact ⟨.of_unlinked rfl, hp.of_unlinked rfl rfl⟩
    | disconnect                 => exact ⟨.of_unlinked rfl, hp.of_unlinked rfl rfl⟩
    | subscribeWallet address    => exact ⟨h.subscribe, hp.subscribe⟩
    | subscribeConversation id   => exact ⟨h.subscribe, hp.subscribe⟩
    | subscribeMarket            => exact ⟨h.subscribe, hp.subscribe⟩
    | subscribePrice             => exact ⟨h.subscribe, hp.subscribe⟩
    | subscribeBlocks            => exact ⟨h.subscribe, hp.subscribe⟩
    | unsubscribeWallet address  => exact ⟨h.unsubscribe, hp.unsubscribe (by simp)⟩
    | unsubscribeConversation id => exact ⟨h.unsubscribe, hp.unsubscribe (by simp)⟩
    | subscribeUser userId       => exact ⟨h.subscribeUser, hp.subscribeUser⟩
    | unsubscribeUser userId     => exact ⟨h.unsubscribeUser, hp.unsubscribeUser⟩
    | deliver                    => exact ⟨h.deliver ha, hp.deliver⟩
    | lookUp i                   => exact ⟨h.lookUp, hs⟩
    | resume i                   => exact ⟨h.resume ha, hs⟩

-- The socket could be in another room.
def Session.isRoomy (s : Session) : Bool :=
  s.link.all fun (socket, _) => socket.size < maxRoomsPerSocket

theorem admitted_of_isRoomy {a : Action} (h : s.isRoomy) : Admitted s a := by
  intro socket inbox hl
  have hr {room : Room} : ¬socket.Refuses room := by
    intro ⟨_, hm⟩
    rw [Session.isRoomy, hl] at h
    have hs := of_decide_eq_true h
    omega
  cases a with
  | deliver  => exact fun _ _ => hr
  | resume i => exact fun _ _ => hr
  | _        => trivial

def Session.execs (db : Db) : Session → List Action → Session
  | s, []      => s
  | s, a :: as => (a.exec db s).execs db as

def Session.isRoomyAlong (db : Db) : Session → List Action → Bool
  | _, []      => true
  | s, a :: as => s.isRoomy && (a.exec db s).isRoomyAlong db as

theorem run_execs {as : List Action} (h : (system db).Run Admitted s) (ha : s.isRoomyAlong db as) :
    (system db).Run Admitted (s.execs db as) := by
  induction as generalizing s with
  | nil          => exact h
  | cons a as ih =>
    obtain ⟨hr, ha⟩ := Bool.and_eq_true_iff.mp ha
    exact ih (h.step (admitted_of_isRoomy hr) rfl) ha

namespace Sample

def userId : String := "0123456789abcdef01234567"

def conversationId : String := "76543210fedcba9876543210"

def people : Db where
  walletAddress _ := none
  participants _  := [userId]

def start : Session where
  cookie  := some userId
  manager := { subscriptions := [], pendingUserId := none }
  link    := none

-- The user is subscribed to before the socket is connected. The conversation is left while its
-- handler waits for the database.
def visit : List Action :=
  [.subscribeUser userId, .connect, .deliver, .subscribeConversation conversationId,
    .unsubscribeConversation conversationId, .deliver, .deliver, .lookUp 0, .resume 0]

def socket : Socket where
  userId  := some userId
  rooms   := [.user userId, .conversation conversationId]
  lookups := []

end Sample

def Sample.server : Server where
  db     := people
  past   := []
  socket := .connect (some userId)

theorem Server.sample_rooms_authorised :
    let s := Sample.server.exec (.receive (.subscribe (.user Sample.userId)))
    s.socket.rooms = [.user Sample.userId] ∧ (∀ r ∈ s.socket.rooms, s.Authorised r) ∧
      s.socket.WithinCap :=
  ⟨by decide, rooms_authorised (.step (.init ⟨rfl, _, rfl⟩) trivial rfl)⟩

end Rooms
