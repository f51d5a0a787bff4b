import MallChain.Lib.Interleaving
import MallChain.Lib.KVStore

-- The sessions of one user: tokens, and the two denylists that revoke them.
namespace Sessions

open Interleaving

-- `USER_DENYLIST_TTL_SECONDS`
def userDenylistTtlSeconds : ℕ :=
  30 * 24 * 60 * 60

-- A token with its times in seconds. A token of a login knows which sign-out everywhere was the last
-- that had completed when the login started.
structure Token where
  jti     : ℕ
  iat     : ℕ
  exp     : ℕ
  session : ℕ
  login   : Option ℕ := none
  deriving DecidableEq, Repr

-- `denylist:user:`, the time in milliseconds up to which tokens are invalid.
structure Mark where
  value     : ℕ
  expiresAt : ℕ
  number    : ℕ
  deriving DecidableEq, Repr

-- Why a token that was issued is not accepted.
inductive Cause
  | expired (now : ℕ)
  | denied (revoked : Bool)
  | marked (number : ℕ)
  deriving DecidableEq, Repr

-- A token is accepted, and whether it or its session was revoked before. Or it is rejected.
inductive Event
  | accepted (token : Token) (revoked ended : Bool)
  | rejected (token : Token) (cause : Cause)
  deriving DecidableEq, Repr

-- The time is in milliseconds. Below the stores is what was revoked by requests that have completed: single
-- tokens, all sessions up to a number, and the number of the last sign-out everywhere.
structure World where
  now        : ℕ
  issued     : List Token := []
  sessions   : ℕ := 0
  denylist   : KVStore ℕ ℕ := .empty
  mark       : Option Mark := none
  revoking   : List ℕ := []
  revoked    : List ℕ := []
  marks      : ℕ := 0
  covered    : ℕ := 0
  endedBelow : ℕ := 0
  completed  : ℕ := 0
  events     : List Event := []

namespace World

variable (w : World)

def seconds : ℕ :=
  w.now / 1000

def find (jti : ℕ) : Option Token :=
  w.issued.find? (·.jti = jti)

def record (e : Event) : World :=
  { w with events := e :: w.events }

-- `jwt.verify`
def isLive (t : Token) : Bool :=
  w.seconds < t.exp

def isDenied (jti : ℕ) : Bool :=
  (w.denylist.get jti).any (w.now < ·)

-- The mark that invalidates the token, if the key is still there.
def markedBy (t : Token) : Option Mark :=
  w.mark.filter fun m => w.now < m.expiresAt && t.iat ≠ 0 && t.iat * 1000 < m.value

def isRevoked (t : Token) : Bool :=
  w.revoked.contains t.jti

def isEnded (t : Token) : Bool :=
  t.session < w.endedBelow

-- `signToken`. The id is new.
def issue (sessionTtlMin session : ℕ) (login : Option ℕ) : World :=
  { w with
    issued   := ⟨w.issued.length, w.seconds, w.seconds + sessionTtlMin * 60, session, login⟩ :: w.issued
    sessions := max w.sessions (session + 1) }

-- `revokeToken`, for the rest of the life of the token
def deny (t : Token) : World :=
  if w.seconds < t.exp then
    { w with
      denylist := w.denylist.set t.jti (w.now + (t.exp - w.seconds) * 1000)
      revoking := t.jti :: w.revoking }
  else w

-- `revokeAllUserTokens`, for a request that started when there were so many sessions
def setMark (covers : ℕ) : World :=
  { w with
    mark    := some ⟨w.now, w.now + userDenylistTtlSeconds * 1000, w.marks + 1⟩
    marks   := w.marks + 1
    covered := max w.covered covers }

end World

-- A token is looked for in the denylists, a request is let through, a login or a refresh signs a token, and
-- the mark of a user is set.
inductive Label
  | step
  | checking (token : Token)
  | accepting (token : Token) (wasRevoked wasEnded : Bool)
  | signing (seen : ℕ)
  | refreshing (session : ℕ)
  | marking (covers : ℕ)
  deriving DecidableEq, Repr

abbrev Handler := Prog Label World

-- The first denylist. Answers whether the token is on it, and had been revoked.
def checkToken (t : Token) : Handler (Bool × Bool) :=
  .act (.checking t)
    (fun w => if w.isDenied t.jti then w.record (.rejected t (.denied (w.revoking.contains t.jti))) else w)
    fun w => (w.isDenied t.jti, w.isRevoked t)

-- The second denylist
def checkUser (t : Token) : Handler (Bool × Bool) :=
  .act (.checking t)
    (fun w => match w.markedBy t with
      | some m => w.record (.rejected t (.marked m.number))
      | none   => w)
    fun w => ((w.markedBy t).isSome, w.isEnded t)

-- The token is a genuine one, or there is none. The user is there and not banned.
def requireAuth (jti : ℕ) : Handler (Option Token) := do
  let found ← Prog.act .step
    (fun w => match w.find jti with
      | some t => if w.isLive t then w else w.record (.rejected t (.expired w.now))
      | none   => w)
    fun w => (w.find jti).filter w.isLive
  match found with
  | none   => return none
  | some t => do
    let (denied, wasRevoked) ← checkToken t
    if denied then return none
    else do
      let (marked, wasEnded) ← checkUser t
      if marked then return none
      else do
        .skip .step
        .write (.accepting t wasRevoked wasEnded) fun w =>
          w.record (.accepted t (w.isRevoked t) (w.isEnded t))
        return some t

-- A login that succeeds opens a session.
def login (sessionTtlMin : ℕ) : Handler Unit := do
  let seen ← Prog.read .step (·.completed)
  .skip .step
  .write (.signing seen) fun w => w.issue sessionTtlMin w.sessions (some seen)

-- The token is revoked, and the request that does it completes.
def revoke (t : Token) : Handler Unit := do
  .write .step (·.deny t)
  .write .step fun w => { w with revoked := t.jti :: w.revoked }

def logout (jti : ℕ) : Handler Unit := do
  match ← requireAuth jti with
  | none   => return
  | some t => revoke t

-- The new token is signed before the old one is revoked.
def refresh (sessionTtlMin jti : ℕ) : Handler Unit := do
  match ← requireAuth jti with
  | none   => return
  | some t => do
    .write (.refreshing t.session) (·.issue sessionTtlMin t.session none)
    revoke t

def logoutEverywhere (jti : ℕ) : Handler Unit := do
  let covers ← Prog.read .step (·.sessions)
  match ← requireAuth jti with
  | none   => return
  | some _ => do
    let number ← Prog.act (.marking covers) (·.setMark covers) (·.marks + 1)
    .write .step fun w =>
      { w with endedBelow := max w.endedBelow covers, completed := max w.completed number }

inductive Request
  | login
  | use (jti : ℕ)
  | logout (jti : ℕ)
  | refresh (jti : ℕ)
  | logoutEverywhere (jti : ℕ)
  | tick (duration : ℕ)
  deriving DecidableEq, Repr

def Request.handler (sessionTtlMin : ℕ) : Request → Handler Unit
  | login                => Sessions.login sessionTtlMin
  | use jti              => do
    let _ ← requireAuth jti
    return
  | logout jti           => Sessions.logout jti
  | refresh jti          => Sessions.refresh sessionTtlMin jti
  | logoutEverywhere jti => Sessions.logoutEverywhere jti
  | tick duration        => .write .step fun w => { w with now := w.now + duration }

-- No token was issued yet, and the clock is past its first second.
def Start (w : World) : Prop :=
  1000 ≤ w.now ∧ w = { now := w.now }

def sessionSystem (sessionTtlMin : ℕ) : TransitionSystem (Pool Label World) (Action Request) :=
  system Start (Request.handler sessionTtlMin)

end Sessions
