import MallChain.Backend.Settings
import MallChain.Lib.Collection
import MallChain.Lib.Document
import MallChain.Lib.Interleaving

namespace Login

open Interleaving
open Settings (Security)

structure User where
  email    : String
  username : Option String := none
  password : Option String := none
  deriving DecidableEq, Repr

structure Crypto extends Settings.Crypto where
  comparePassword : (password hash : String) → Bool

def failedLoginLimit : ℕ :=
  10

def failedLoginWindowSeconds : ℕ :=
  15 * 60

def failedLoginWindow : ℕ :=
  failedLoginWindowSeconds * 1000

-- A key of Redis with a number, and the time in milliseconds at which it expires.
structure Counter where
  count     : ℕ
  expiresAt : Option ℕ := none
  deriving DecidableEq, Repr

-- A failed attempt that was evaluated, one that was counted, a login that succeeded and a backup code that
-- was accepted.
inductive Event
  | failed (time : ℕ)
  | counted (identifier : String) (time : ℕ)
  | succeeded
  | accepted (hash : String)
  deriving DecidableEq, Repr

-- One account with its settings, the counters of failed logins, and the attempts at the account that have
-- passed the check and are not evaluated yet, or have failed and are not counted yet.
structure World where
  user         : User
  settings     : Option Security := none
  failedLogins : KVStore String Counter := .empty
  now          : ℕ := 0
  pending      : ℕ := 0
  uncounted    : ℕ := 0
  events       : List Event := []

namespace World

variable (w : World) (identifier : String)

def record (e : Event) : World :=
  { w with events := e :: w.events }

-- A key that has expired is not there.
def counter : Option Counter :=
  (w.failedLogins.get identifier).filter fun c => c.expiresAt.all (w.now < ·)

def count : ℕ :=
  ((w.counter identifier).map (·.count)).getD 0

def isLocked : Bool :=
  failedLoginLimit ≤ w.count identifier

-- `redis.ttl`
def ttl : ℤ :=
  match w.counter identifier with
  | none   => -2
  | some c => c.expiresAt.elim (-1) fun t => (t - w.now + 500 : ℤ) / 1000

def enter (found : Bool) : World :=
  if found then { w with pending := w.pending + 1 } else w

def leave : World :=
  { w with pending := w.pending - 1 }

def fail : World :=
  w.leave.record (.failed w.now)

-- `redis.incr`
def incr (evaluated : Bool) : World :=
  { w with
    failedLogins := w.failedLogins.set identifier {
      count     := w.count identifier + 1
      expiresAt := (w.counter identifier).bind (·.expiresAt)
    }
    uncounted    := if evaluated then w.uncounted - 1 else w.uncounted
    events       := .counted identifier w.now :: w.events }

-- `redis.expire`
def expire : World :=
  match w.counter identifier with
  | some c =>
    let counter := { c with expiresAt := some (w.now + failedLoginWindow) }
    { w with failedLogins := w.failedLogins.set identifier counter }
  | none   => w

-- `redis.del` after a login that has succeeded
def clear : World :=
  { w.leave with
    failedLogins := w.failedLogins.remove identifier
    events       := .succeeded :: w.events }

end World

-- The lock is checked under an identifier, a failure is counted and its counter set to expire, a second
-- factor is verified, and backup codes are saved that were read as these.
inductive Label
  | step
  | checking (identifier : String)
  | counting (identifier : String)
  | expiring (identifier : String)
  | verifying (otp : String)
  | savingCodes (security : Security)
  deriving DecidableEq, Repr

abbrev Handler := Prog Label World

-- Seconds after which a locked account may be tried again.
def checkAccountLock (identifier : String) (found : User → Bool) : Handler (Option ℤ) := do
  let locked ← Prog.act (.checking identifier)
    (fun w => if w.isLocked identifier then w else w.enter (found w.user)) (·.isLocked identifier)
  if locked then
    let ttl ← Prog.read .step (·.ttl identifier)
    return some (if ttl > 0 then ttl else failedLoginWindowSeconds)
  else return none

def recordFailedLogin (identifier : String) (evaluated : Bool) : Handler Unit := do
  let count ← Prog.act (.counting identifier) (·.incr identifier evaluated) (·.count identifier + 1)
  if count = 1 then .write (.expiring identifier) (·.expire identifier)
  else return

def clearFailedLogins (identifier : String) : Handler Unit :=
  .write .step (·.clear identifier)

-- What a code comes to for the settings that were found.
inductive Verdict
  | passed
  | requires2fa
  | thrown
  | invalid
  | backup (security : Security) (hash : String)
  deriving DecidableEq, Repr

def verdict (crypto : Crypto) (settings : Option Security) (otp : String) (now : ℕ) : Verdict :=
  match settings.filter (·.twoFactorEnabled) with
  | none          => .passed
  | some security =>
    if otp = "" then .requires2fa
    else match crypto.verifyToken security.twoFactorSecret otp now with
    | none       => .thrown
    | some true  => .passed
    | some false =>
      match (security.twoFactorBackupCodeHashes.getD []).find? (crypto.compare otp) with
      | some hash => .backup security hash
      | none      => .invalid

def saveSecurity (d : Document Security) (stored : Security) : Security :=
  { stored with
    twoFactorEnabled          := d.written (·.twoFactorEnabled) stored
    twoFactorSecret           := d.written (·.twoFactorSecret) stored
    twoFactorBackupCodeHashes := d.written (·.twoFactorBackupCodeHashes) stored }

def World.saveSettings (w : World) (d : Document Security) (accepted : Option String) : World :=
  { w with
    settings := w.settings.map (saveSecurity d)
    events   := accepted.toList.map .accepted ++ w.events }

-- A backup code is removed from the list that was read.
def spliced (crypto : Crypto) (otp : String) (security : Security) : Security :=
  let hashes := security.twoFactorBackupCodeHashes.getD []
  { security with twoFactorBackupCodeHashes := some (hashes.eraseP (crypto.compare otp)) }

def World.verify (w : World) : Verdict → World
  | .passed | .backup _ _   => w
  | .requires2fa | .thrown  => w.leave
  | .invalid                => w.fail

def checkTwoFactor (crypto : Crypto) (otp : String) : Handler Verdict := do
  let result ← Prog.act (.verifying otp) (fun w => w.verify (verdict crypto w.settings otp w.now))
    fun w => verdict crypto w.settings otp w.now
  match result with
  | .backup security hash => do
    .write (.savingCodes security)
      (·.saveSettings ((Document.read security).modify (spliced crypto otp)) (some hash))
    return .passed
  | result => return result

-- What a password comes to for the user that was found.
inductive Credentials
  | unknown
  | oauth
  | invalid
  | valid
  deriving DecidableEq, Repr

def credentials (crypto : Crypto) (found : User → Bool) (password : String) (user : User) : Credentials :=
  if found user then
    match user.password.filter (· ≠ "") with
    | none      => .oauth
    | some hash => if crypto.comparePassword password hash then .valid else .invalid
  else .unknown

def World.judge (w : World) : Credentials → World
  | .unknown | .valid => w
  | .oauth            => w.leave
  | .invalid          => { w.fail with uncounted := w.uncounted + 1 }

inductive Response
  | required
  | locked (retryAfterSeconds : ℤ)
  | invalidCredentials
  | useOAuth
  | requires2fa
  | invalidCode
  | error
  | loggedIn
  deriving DecidableEq, Repr

-- The rest of a login of which the password is right. A session follows.
def secondFactor (crypto : Crypto) (identifier otp : String) : Handler Response := do
  match ← checkTwoFactor crypto otp with
  | .requires2fa => return .requires2fa
  | .thrown      => return .error
  | .invalid     => return .invalidCode
  | _            => do
    clearFailedLogins identifier
    return .loggedIn

def evaluate (crypto : Crypto) (found : User → Bool) (identifier password otp : String) :
    Handler Response := do
  let result ← Prog.act .step (fun w => w.judge (credentials crypto found password w.user))
    fun w => credentials crypto found password w.user
  match result with
  | .unknown => do
    recordFailedLogin identifier false
    return .invalidCredentials
  | .oauth   => return .useOAuth
  | .invalid => do
    recordFailedLogin identifier true
    return .invalidCredentials
  | .valid   => secondFactor crypto identifier otp

def loginWith (crypto : Crypto) (found : User → Bool) (identifier password otp : String) :
    Handler Response := do
  if identifier = "" ∨ password = "" then return .required
  else match ← checkAccountLock identifier found with
  | some retryAfterSeconds => return .locked retryAfterSeconds
  | none                   => evaluate crypto found identifier password otp

-- The email and the user name are trimmed and in lower case.
def login (crypto : Crypto) (email password otp : String) : Handler Response :=
  loginWith crypto (·.email = email) email password otp

def loginUsername (crypto : Crypto) (username password otp : String) : Handler Response :=
  loginWith crypto (·.username = some username) username password otp

def disabled (security : Security) : Security :=
  { security with
    twoFactorEnabled          := false
    twoFactorSecret           := none
    twoFactorBackupCodeHashes := none }

-- `POST /security/2fa/disable`
def disable (crypto : Crypto) (code : String) : Handler Unit := do
  let (settings, now) ← Prog.read .step fun w => (w.settings, w.now)
  match settings.filter (·.twoFactorEnabled) with
  | none          => return
  | some security =>
    let d := (Document.read security).modify disabled
    match verdict crypto settings code now with
    | .passed        => .write .step (·.saveSettings d none)
    | .backup _ hash => .write (.savingCodes security) (·.saveSettings d (some hash))
    | _              => return

inductive Request
  | login (email password otp : String)
  | loginUsername (username password otp : String)
  | disable (code : String)
  | tick (duration : ℕ)
  deriving DecidableEq, Repr

def Request.handler (crypto : Crypto) : Request → Handler Unit
  | login email password otp            => do
    let _ ← Login.login crypto email password otp
    return
  | loginUsername username password otp => do
    let _ ← Login.loginUsername crypto username password otp
    return
  | disable code                        => Login.disable crypto code
  | tick duration                       => .write .step fun w => { w with now := w.now + duration }

namespace Sample

-- Codes and passwords are compared as they are.
def plain : Crypto where
  verifyToken _ _ _             := some false
  compare code hash             := code = hash
  comparePassword password hash := password = hash

end Sample

end Login
