import MallChain.Account.Types

namespace Account

open Interleaving

-- A copy is put into the cache, the cache is emptied after a change, and an erasure is answered.
inductive Label
  | step
  | caching (userId : String) (version : ℕ)
  | invalidating (userId : String) (version : ℕ)
  | erased (userId : String) (version : ℕ)
  deriving DecidableEq, Repr

abbrev Handler := Prog Label World

structure Failure where
  status  : ℕ
  message : String
  deriving DecidableEq, Repr

namespace World

variable (w : World) (userId : String)

def historyOf : History :=
  (w.history.get userId).getD {}

def version : ℕ :=
  (w.historyOf userId).version

def settled : ℕ :=
  (w.historyOf userId).settled

def acked : ℕ :=
  (w.historyOf userId).acked

def modifyHistory (f : History → History) : World :=
  { w with history := w.history.set userId (f (w.historyOf userId)) }

-- `User.findById(userId).select('-password')`
def find : ℕ × Option Profile :=
  (w.version userId, (w.users.get userId).map (·.toProfile))

def setCachedUser (copy : Copy) : World :=
  { w with cache := w.cache.set userId copy }

-- The key is deleted, or has expired.
def dropCachedUser : World :=
  { w with cache := w.cache.remove userId }

def changed : World :=
  w.modifyHistory userId fun h => { h with version := h.version + 1 }

def settle (version : ℕ) : World :=
  w.modifyHistory userId fun h => { h with settled := max h.settled version }

def acknowledge (version : ℕ) : World :=
  w.modifyHistory userId fun h => { h with acked := max h.acked version }

-- `User.findByIdAndUpdate`
def updateUser (f : User → User) : World :=
  match w.users.get userId with
  | some u => { w with users := w.users.set userId (f u) }.changed userId
  | none   => w

-- `User.findByIdAndDelete`
def deleteUser : World :=
  match w.users.get userId with
  | some _ => { w with users := w.users.remove userId }.changed userId
  | none   => w

def decide (d : Decision) : World :=
  { w with decisions := d :: w.decisions }

def updateDb (f : Database → Database) : World :=
  { w with db := f w.db }

def log (entry : AuditLog) : World :=
  w.updateDb fun db => { db with auditLogs := entry :: db.auditLogs }

end World

def authorize (role : Option Role) (user : Profile) : Option Failure :=
  if user.banned then some ⟨403, "account is banned"⟩
  else match role with
  | some .admin =>
    if user.role ≠ .admin ∧ user.role ≠ .superadmin then some ⟨403, "admin access required"⟩
    else none
  | some .superadmin =>
    if user.role ≠ .superadmin then some ⟨403, "superadmin access required"⟩ else none
  | _ => none

-- The request is decided on this copy of the account.
def decideOn (role : Option Role) (userId : String) (started version : ℕ) (user : ReqUser) :
    Handler (Except Failure ReqUser) := do
  .write .step (·.decide { userId := userId, started := started, decided := version })
  match authorize role user.stored with
  | some failure => return .error failure
  | none         => return .ok user

-- The token is genuine, has not expired and was not revoked.
def requireAuth (role : Option Role) (userId : String) : Handler (Except Failure ReqUser) := do
  let started ← Prog.read .step (·.acked userId)
  let cached ← Prog.read .step (·.cache.get userId)
  match cached with
  | some copy => decideOn role userId started copy.version ⟨userId, copy.profile, false⟩
  | none      => do
    let found ← Prog.read .step (·.find userId)
    match found with
    | (version, none) => do
      .write .step (·.decide { userId := userId, started := started, decided := version })
      return .error ⟨401, "invalid token"⟩
    | (version, some profile) => do
      .write (.caching userId version) (·.setCachedUser userId ⟨version, profile⟩)
      decideOn role userId started version ⟨userId, profile, true⟩

-- No record and no account is changed.
structure Unchanged (w w' : World) : Prop where
  users : w'.users = w.users
  db    : w'.db = w.db

def admitted (role : Option Role) (user : ReqUser) : Except Failure ReqUser :=
  (authorize role user.stored).elim (.ok user) .error

-- Who the middleware lets through, from the cache or else from the database.
def authenticate (role : Option Role) (userId : String) (w : World) : Except Failure ReqUser :=
  match w.cache.get userId with
  | some copy => admitted role ⟨userId, copy.profile, false⟩
  | none      =>
    match w.users.get userId with
    | some u => admitted role ⟨userId, u.toProfile, true⟩
    | none   => .error ⟨401, "invalid token"⟩

section Alone

variable {role : Option Role} {userId : String} {w w' : World} {user : ReqUser}

theorem Unchanged.refl (w : World) : Unchanged w w where
  users := rfl
  db    := rfl

theorem Unchanged.trans {w'' : World} (h : Unchanged w w') (h' : Unchanged w' w'') :
    Unchanged w w'' where
  users := h'.users.trans h.users
  db    := h'.db.trans h.db

theorem decideOn_alone {started version : ℕ} :
    ((decideOn role userId started version user).alone w).1 = admitted role user ∧
      Unchanged w ((decideOn role userId started version user).alone w).2 := by
  rw [decideOn, Prog.write_bind, Prog.alone_step, admitted]
  cases authorize role user.stored with
  | none => exact ⟨rfl, ⟨rfl, rfl⟩⟩
  | some failure => exact ⟨rfl, ⟨rfl, rfl⟩⟩

-- The middleware changes nothing that is stored of the account.
theorem requireAuth_alone :
    ((requireAuth role userId).alone w).1 = authenticate role userId w ∧
      Unchanged w ((requireAuth role userId).alone w).2 := by
  simp only [requireAuth, Prog.read_bind, Prog.alone_step, authenticate, id_eq]
  cases w.cache.get userId with
  | some copy => exact decideOn_alone
  | none =>
    simp only [Prog.alone_step, World.find, id_eq]
    cases w.users.get userId with
    | none => exact ⟨rfl, ⟨rfl, rfl⟩⟩
    | some u =>
      refine decideOn_alone.imp_right ?_
      intro hunchanged
      exact ⟨hunchanged.users, hunchanged.db⟩

theorem of_admitted {user' : ReqUser} (h : admitted role user = .ok user') :
    user' = user ∧ user.stored.banned = false := by
  rw [admitted] at h
  cases ha : authorize role user.stored with
  | some failure =>
    rw [ha] at h
    cases h
  | none =>
    rw [ha] at h
    cases h
    cases hb : user.stored.banned with
    | false => exact ⟨rfl, rfl⟩
    | true => simp [authorize, hb] at ha

-- A user that was let through was not banned, and a document is as it is stored.
theorem of_authenticate (h : authenticate role userId w = .ok user) :
    user.stored.banned = false ∧ user.objectId = userId ∧
      (user.hydrated = true → ∃ u, w.users.get userId = some u ∧ user.stored = u.toProfile) := by
  rw [authenticate] at h
  cases hcache : w.cache.get userId with
  | some copy =>
    rw [hcache] at h
    obtain ⟨rfl, hb⟩ := of_admitted h
    exact ⟨hb, rfl, fun hhydrated => Bool.noConfusion hhydrated⟩
  | none =>
    rw [hcache] at h
    cases hu : w.users.get userId with
    | none =>
      rw [hu] at h
      cases h
    | some u =>
      rw [hu] at h
      obtain ⟨rfl, hb⟩ := of_admitted h
      exact ⟨hb, rfl, fun _ => ⟨u, rfl, rfl⟩⟩

end Alone

-- A handler behind the middleware.
def withAuth {α : Type} (role : Option Role) (userId : String)
    (handler : ReqUser → Handler (Except Failure α)) : Handler (Except Failure α) := do
  match ← requireAuth role userId with
  | .error failure => return .error failure
  | .ok user       => handler user

-- The cache is emptied after the account was changed, and the change is acknowledged.
def invalidateCachedUser (userId : String) (version : ℕ) : Handler Unit :=
  .write (.invalidating userId version) fun w => (w.dropCachedUser userId).settle userId version

-- What a change of an account answers. The user is not there, or is as it was changed.
def World.written (w : World) (userId : String) (f : User → User) : Option (ℕ × Profile) :=
  (w.users.get userId).map fun u => (w.version userId + 1, (f u).toProfile)

-- What follows when an administrator has changed an account.
def finishChange (admin : ReqUser) (userId action : String) (details : Fields) :
    Option (ℕ × Profile) → Handler (Except Failure Profile)
  | none                 => return .error ⟨404, "user not found"⟩
  | some (version, user) => do
    invalidateCachedUser userId version
    .write .step (·.log { action := action, actor := admin.stored.email, details := details })
    .write .step (·.acknowledge userId version)
    return .ok user

def Role.name : Role → String
  | .user       => "user"
  | .admin      => "admin"
  | .superadmin => "superadmin"

-- `PUT /users/:id/role`
def changeRole (userId : String) (role : Option Role) (admin : ReqUser) :
    Handler (Except Failure Profile) := do
  match role with
  | none      => return .error ⟨400, "invalid role"⟩
  | some role => do
    let existing ← Prog.read .step fun w => (w.users.get userId).map (·.role)
    match existing with
    | none          => return .error ⟨404, "user not found"⟩
    | some existing =>
      if existing = .superadmin ∧ role ≠ .superadmin then
        return .error ⟨403, "A superadmin account's role cannot be changed"⟩
      else do
        let result ← Prog.act .step (·.updateUser userId fun u => { u with role := role })
          (·.written userId fun u => { u with role := role })
        finishChange admin userId "user_role_change"
          [("targetUserId", userId), ("newRole", role.name)] result

def setBanned (banned : Bool) (reason : Option String) (u : User) : User :=
  { u with
    banned    := banned
    banReason := some (if banned then (reason.filter (· ≠ "")).getD "Banned by admin" else "") }

-- `PUT /users/:id/ban`
def ban (userId : String) (banned : Bool) (reason : Option String) (admin : ReqUser) :
    Handler (Except Failure Profile) := do
  let result ← Prog.act .step (·.updateUser userId (setBanned banned reason))
    (·.written userId (setBanned banned reason))
  finishChange admin userId "user_ban" [("targetUserId", userId), ("reason", reason.getD "")] result

-- `DELETE /users/:id`
def deleteUser (userId : String) (admin : ReqUser) : Handler (Except Failure Profile) := do
  let result ← Prog.act .step (·.deleteUser userId) (·.written userId id)
  finishChange admin userId "user_delete" [("targetUserId", userId)] result

end Account
