import MallChain.Account.Gdpr

namespace Account

open Interleaving

structure DeleteRequest where
  userId      : String
  password    : Option String := none
  erasedAt    : ℕ := 0
  fails       : Erasing → Bool := fun _ => false
  lookupFails : Bool := false

-- `POST /api/gdpr/delete`
def DeleteRequest.handler (req : DeleteRequest) (compare : (password hash : String) → Bool) :
    Handler (Except Failure ℕ) :=
  if req.lookupFails then return .error ⟨401, "invalid token"⟩
  else withAuth none req.userId (deleteData compare req.password req.erasedAt req.fails)

def DeleteRequest.outcome (req : DeleteRequest) (compare : (password hash : String) → Bool)
    (w : World) : World :=
  ((req.handler compare).alone w).2

structure Anonymised (id : String) (u : User) : Prop where
  email         : u.email = "erased-" ++ id ++ "@erased.mallchain.local"
  password      : u.password = none
  googleId      : u.googleId = none
  name          : u.name = none
  username      : u.username = none
  phone         : u.phone = none
  walletAddress : u.walletAddress = none
  banned        : u.banned = true
  erasedAt      : u.erasedAt.isSome = true

def AccountErased (id : String) (w : World) : Prop :=
  ∃ u, w.users.get id = some u ∧ Anonymised id u

variable (compare : (password hash : String) → Bool) (req : DeleteRequest) (w : World)

-- The request carries the password of the account, if it has one.
def Confirms : Prop :=
  ∀ u hash, w.users.get req.userId = some u → present u.password = some hash →
    ∃ password, req.password = some password ∧ compare password hash = true

def Confirmed : Prop :=
  Unchanged w (req.outcome compare w) ∨ Confirms compare req w

def NeverHalfDone : Prop :=
  Unchanged w (req.outcome compare w) ∨ AccountErased req.userId (req.outcome compare w)

section Touches

variable {ρ : Type} [DecidableEq ρ]

def touched (s : KVStore ℕ ρ) (f : ρ → ρ) (query : ρ → Bool) : Bool :=
  s.any fun r => query r && decide (f r ≠ r)

def touchedBy (s : KVStore ℕ ρ) (f : ρ → ρ) (query : Option (ρ → Bool)) : Bool :=
  query.any (touched s f)

theorem updateMany_eq_self {s : KVStore ℕ ρ} {f : ρ → ρ} {q : ρ → Bool} :
    s.updateMany q f = s ↔ touched s f q = false :=
  KVStore.updateMany_eq_self

theorem updateBy_eq_self {s : KVStore ℕ ρ} {f : ρ → ρ} {query : Option (ρ → Bool)} :
    updateBy s f query = s ↔ touchedBy s f query = false := by
  cases query with
  | none => exact iff_of_true rfl rfl
  | some query => exact updateMany_eq_self

end Touches

-- The write finds a record of the account that it would change.
def Erasing.touches (user : ReqUser) (erasedAt : ℕ) (db : Database) : Erasing → Bool
  | .notifications      => db.notifications.any (ownedBy user)
  | .settings           => db.settings.any (ownedBy user)
  | .apiKeys            => db.apiKeys.any (ownedBy user)
  | .contracts          => db.contracts.any (ownedBy user)
  | .kyc                => touched db.kyc (redactKYC erasedAt) (·.userId = user.objectId)
  | .messages           => touched db.messages redactMessage (·.senderId = user.objectId)
  | .badgePurchases     => touchedBy db.badgePurchases redactPhone (financialQuery user.stored)
  | .mallcoinPurchases  => touchedBy db.mallcoinPurchases redactPhone (financialQuery user.stored)
  | .withdrawalRequests => touchedBy db.withdrawalRequests redactPhone (financialQuery user.stored)
  | .liquidityActivity  => touchedBy db.liquidityActivity redactPhone (financialQuery user.stored)
  | .mallcoinSales      => touchedBy db.mallcoinSales redactSale (saleQuery user.stored)
  | .b2cPayouts         => touchedBy db.b2cPayouts redactPayout (payoutQuery user.stored)
  | .account            => false
  | .auditLog           => false

-- The user is a document and none of the writes fails.
def Completes (user : ReqUser) : Prop :=
  user.hydrated = true ∧ (eraseStages user.stored).any (·.any req.fails) = false ∧
    req.fails .account = false

-- The writes that are carried out find nothing.
def Untouched (user : ReqUser) : Prop :=
  ∀ s ∈ carriedOut req.fails (eraseStages user.stored), s.touches user req.erasedAt w.db = false

-- The condition under which an erasure is confirmed and not half done.
def ErasureSound : Prop :=
  req.lookupFails = true ∨ ∀ user, authenticate none req.userId w = .ok user →
    Completes req user ∧ Confirms compare req w ∨
      ¬Completes req user ∧ (Untouched req w user ∨ AccountErased req.userId w)

section Writes

variable {compare : (password hash : String) → Bool} {req : DeleteRequest} {w : World} {user : ReqUser}
  {erasedAt : ℕ} {db db' : Database}

-- Two states of the database agree on the collection of a write.
def Same (db db' : Database) : Erasing → Prop
  | .notifications      => db.notifications = db'.notifications
  | .settings           => db.settings = db'.settings
  | .apiKeys            => db.apiKeys = db'.apiKeys
  | .contracts          => db.contracts = db'.contracts
  | .kyc                => db.kyc = db'.kyc
  | .messages           => db.messages = db'.messages
  | .badgePurchases     => db.badgePurchases = db'.badgePurchases
  | .mallcoinPurchases  => db.mallcoinPurchases = db'.mallcoinPurchases
  | .withdrawalRequests => db.withdrawalRequests = db'.withdrawalRequests
  | .liquidityActivity  => db.liquidityActivity = db'.liquidityActivity
  | .mallcoinSales      => db.mallcoinSales = db'.mallcoinSales
  | .b2cPayouts         => db.b2cPayouts = db'.b2cPayouts
  | .account            => True
  | .auditLog           => True

theorem Same.refl (db : Database) (s : Erasing) : Same db db s := by
  cases s <;> trivial

theorem Same.symm {s : Erasing} (h : Same db db' s) : Same db' db s := by
  cases s <;> first | exact Eq.symm h | trivial

theorem Same.trans {db'' : Database} {s : Erasing} (h : Same db db' s) (h' : Same db' db'' s) :
    Same db db'' s := by
  cases s <;> first | exact Eq.trans h h' | trivial

-- A write is about its own collection.
theorem same_apply_of_ne {s t : Erasing} (h : s ≠ t) : Same (t.apply user erasedAt db) db s := by
  cases t <;> cases s <;> trivial

theorem apply_eq_self {s : Erasing} (h : Same (s.apply user erasedAt db) db s) :
    s.apply user erasedAt db = db := by
  cases s <;> simp only [Same, Erasing.apply] at h ⊢ <;> rw [h]

theorem same_apply_iff {s : Erasing} :
    Same (s.apply user erasedAt db) db s ↔ s.touches user erasedAt db = false := by
  cases s with
  | notifications => exact KVStore.removeMany_eq_self
  | settings => exact KVStore.removeMany_eq_self
  | apiKeys => exact KVStore.removeMany_eq_self
  | contracts => exact KVStore.removeMany_eq_self
  | kyc => exact updateMany_eq_self (f := redactKYC erasedAt) (q := (·.userId = user.objectId))
  | messages => exact updateMany_eq_self (f := redactMessage) (q := (·.senderId = user.objectId))
  | badgePurchases => exact updateBy_eq_self
  | mallcoinPurchases => exact updateBy_eq_self
  | withdrawalRequests => exact updateBy_eq_self
  | liquidityActivity => exact updateBy_eq_self
  | mallcoinSales => exact updateBy_eq_self
  | b2cPayouts => exact updateBy_eq_self
  | account => exact iff_of_true trivial rfl
  | auditLog => exact iff_of_true trivial rfl

theorem same_applyAll {s : Erasing} : {l : List Erasing} → {db : Database} → s ∉ l →
    Same (applyAll user erasedAt l db) db s
  | [], db, _ => Same.refl db s
  | t :: l, db, h => by
    obtain ⟨hne, hl⟩ := not_or.mp (List.mem_cons.not.mp h)
    have htail : Same (applyAll user erasedAt l (t.apply user erasedAt db)) (t.apply user erasedAt db) s :=
      same_applyAll hl
    exact htail.trans (same_apply_of_ne hne)

-- Writes to different collections change nothing exactly if none of them does.
theorem applyAll_eq_self : {l : List Erasing} → {db : Database} → l.Nodup →
    (applyAll user erasedAt l db = db ↔ ∀ s ∈ l, s.touches user erasedAt db = false)
  | [], _, _ => by simp [applyAll]
  | s :: l, db, h => by
    obtain ⟨hs, hl⟩ := List.nodup_cons.mp h
    have hcons : applyAll user erasedAt (s :: l) db =
      applyAll user erasedAt l (s.apply user erasedAt db) := rfl
    rw [hcons, List.forall_mem_cons]
    constructor
    case mp =>
      intro heq
      have hsame : Same (applyAll user erasedAt l (s.apply user erasedAt db)) (s.apply user erasedAt db) s :=
        same_applyAll hs
      rw [heq] at hsame
      have hself := apply_eq_self hsame.symm
      rw [hself] at heq
      exact ⟨same_apply_iff.mp hsame.symm, (applyAll_eq_self hl).mp heq⟩
    case mpr =>
      intro hall
      rw [apply_eq_self (same_apply_iff.mpr hall.1)]
      exact (applyAll_eq_self hl).mpr hall.2

theorem carriedOut_sublist {fails : Erasing → Bool} : (stages : List (List Erasing)) →
    (carriedOut fails stages).Sublist stages.flatten
  | [] => List.Sublist.refl _
  | stage :: rest => by
    rw [carriedOut, List.flatten_cons]
    apply List.Sublist.append List.filter_sublist
    split_ifs
    case pos => exact List.nil_sublist _
    case neg => exact carriedOut_sublist rest

theorem carriedOut_nodup {fails : Erasing → Bool} (user : Profile) :
    (carriedOut fails (eraseStages user)).Nodup := by
  apply (carriedOut_sublist _).nodup
  rw [eraseStages, redactPhoneOps]
  split_ifs <;> decide

end Writes

section Outcome

variable {compare : (password hash : String) → Bool} {req : DeleteRequest} {w w' : World} {user : ReqUser}
  {erasedAt : ℕ} {fails : Erasing → Bool}

theorem outcome_of_refused
    (h : req.lookupFails = true ∨ ∃ failure, authenticate none req.userId w = .error failure) :
    Unchanged w (req.outcome compare w) := by
  rw [DeleteRequest.outcome, DeleteRequest.handler]
  split_ifs with hl
  case pos => exact Unchanged.refl w
  case neg =>
    obtain ⟨hres, hunchanged⟩ := @requireAuth_alone none req.userId w
    obtain ⟨failure, hrefused⟩ := h.resolve_left hl
    rw [withAuth, Prog.alone_bind, hres, hrefused]
    exact hunchanged

-- The password of the user of a request is never there, and nothing asks for it.
theorem outcome_of_authenticated (hl : req.lookupFails = false)
    (h : authenticate none req.userId w = .ok user) :
    ∃ w₁, Unchanged w w₁ ∧
      req.outcome compare w = ((eraseUserData user req.erasedAt req.fails).alone w₁).2 := by
  obtain ⟨hres, hunchanged⟩ := @requireAuth_alone none req.userId w
  refine ⟨_, hunchanged, ?_⟩
  rw [DeleteRequest.outcome, DeleteRequest.handler, hl, if_neg Bool.false_ne_true, withAuth,
    Prog.alone_bind, hres, h]
  rfl

theorem eraseUserData_alone :
    (eraseUserData user erasedAt fails).alone w =
      let w' := w.updateDb (applyAll user erasedAt (carriedOut fails (eraseStages user.stored)))
      if (eraseStages user.stored).any (·.any fails) = true then (.error erasureFailed, w')
      else (eraseAccount user erasedAt fails).alone w' := by
  rw [eraseUserData, Prog.alone_bind, eraseRecords_alone]
  cases (eraseStages user.stored).any (·.any fails) <;> rfl

-- An erasure that does not complete leaves the accounts as they are.
theorem eraseUserData_stops (h : (eraseStages user.stored).any (·.any fails) = true ∨
      ¬user.hydrated = true ∨ fails .account = true) :
    let result := (eraseUserData user erasedAt fails).alone w
    result.1 = .error erasureFailed ∧
      result.2.db = applyAll user erasedAt (carriedOut fails (eraseStages user.stored)) w.db ∧
      result.2.users = w.users := by
  rw [eraseUserData_alone]
  dsimp only
  split_ifs with hany
  case pos => exact ⟨rfl, rfl, rfl⟩
  case neg =>
    rw [eraseAccount, if_pos (h.resolve_left hany)]
    exact ⟨rfl, rfl, rfl⟩

theorem stops_of_not_completes (h : ¬Completes req user) :
    (eraseStages user.stored).any (·.any req.fails) = true ∨
      ¬user.hydrated = true ∨ req.fails .account = true := by
  by_contra hn
  obtain ⟨hany, hn⟩ := not_or.mp hn
  obtain ⟨hhydrated, haccount⟩ := not_or.mp hn
  rw [Bool.not_eq_true] at hany haccount
  exact h ⟨not_not.mp hhydrated, hany, haccount⟩

theorem eraseAccount_alone {u : User} (hhydrated : user.hydrated = true)
    (haccount : fails .account = false) (hu : w.users.get user.objectId = some u) :
    let result := (eraseAccount user erasedAt fails).alone w
    let d := (Document.read user.stored).modify (anonymised user.objectId erasedAt)
    result.1 = .ok erasedAt ∧ result.2.users = w.users.set user.objectId (saveErased d u) := by
  rw [eraseAccount, if_neg (by simp [hhydrated, haccount])]
  simp only [Prog.act_bind, Prog.alone_step, World.written, hu, Option.map_some, Prog.write_bind,
    Prog.pure_eq, Prog.alone_done, World.updateUser]
  split_ifs <;> exact ⟨trivial, rfl⟩

-- An erasure of a document in which nothing fails.
theorem eraseUserData_completes {u : User} (hany : (eraseStages user.stored).any (·.any fails) = false)
    (hhydrated : user.hydrated = true) (haccount : fails .account = false)
    (hu : w.users.get user.objectId = some u) :
    let result := (eraseUserData user erasedAt fails).alone w
    let d := (Document.read user.stored).modify (anonymised user.objectId erasedAt)
    result.1 = .ok erasedAt ∧ result.2.users = w.users.set user.objectId (saveErased d u) := by
  rw [eraseUserData_alone]
  dsimp only
  rw [if_neg (by rw [hany]; exact Bool.false_ne_true)]
  exact eraseAccount_alone (w := w.updateDb _) hhydrated haccount hu

-- What is saved of a document that is as it was read.
theorem saveErased_anonymised {u : User} {id : String} :
    Anonymised id (saveErased ((Document.read u.toProfile).modify (anonymised id erasedAt)) u) where
  email         := Document.written_of_eq rfl
  password      := rfl
  googleId      := Document.written_of_eq rfl
  name          := Document.written_of_eq rfl
  username      := Document.written_of_eq rfl
  phone         := Document.written_of_eq rfl
  walletAddress := Document.written_of_eq rfl
  banned        := Document.written_of_eq rfl
  erasedAt      := by
    have h : (saveErased ((Document.read u.toProfile).modify (anonymised id erasedAt)) u).erasedAt =
      some erasedAt := Document.written_of_eq rfl
    rw [h]
    rfl

-- An erasure that completes has anonymised and banned an account that was not banned.
theorem outcome_of_completes (hl : req.lookupFails = false)
    (h : authenticate none req.userId w = .ok user) (hc : Completes req user) :
    AccountErased req.userId (req.outcome compare w) ∧ ¬Unchanged w (req.outcome compare w) := by
  obtain ⟨w₁, hw₁, hout⟩ := @outcome_of_authenticated compare _ _ _ hl h
  obtain ⟨hbanned, hid, hdocument⟩ := of_authenticate h
  obtain ⟨u, hu, hstored⟩ := hdocument hc.1
  have hu₁ : w₁.users.get user.objectId = some u := by rw [hw₁.users, hid, hu]
  have husers : (req.outcome compare w).users.get req.userId = some
      (saveErased ((Document.read u.toProfile).modify (anonymised req.userId req.erasedAt)) u) := by
    rw [hout, (eraseUserData_completes hc.2.1 hc.1 hc.2.2 hu₁).2, hid, hstored, KVStore.get_set_self]
  have hanon := @saveErased_anonymised req.erasedAt u req.userId
  refine ⟨⟨_, husers, hanon⟩, ?_⟩
  intro hunchanged
  rw [hunchanged.users, hu] at husers
  have hban := hanon.banned
  rw [← Option.some.inj husers, ← hstored, hbanned] at hban
  cases hban

end Outcome

-- An erasure is confirmed and never half done exactly if it completes for a request with the password,
-- or is refused, or stops before it has found anything, or comes to an account that is erased already.
theorem erasure_sound_iff {compare : (password hash : String) → Bool} {req : DeleteRequest} {w : World} :
    Confirmed compare req w ∧ NeverHalfDone compare req w ↔ ErasureSound compare req w := by
  cases hl : req.lookupFails with
  | true =>
    have hun : Unchanged w (req.outcome compare w) := outcome_of_refused (.inl hl)
    exact iff_of_true ⟨.inl hun, .inl hun⟩ (.inl hl)
  | false =>
    cases hauth : authenticate none req.userId w with
    | error failure =>
      have hun : Unchanged w (req.outcome compare w) := outcome_of_refused (.inr ⟨failure, hauth⟩)
      refine iff_of_true ⟨.inl hun, .inl hun⟩ (.inr ?_)
      rw [hauth]
      intro user huser
      cases huser
    | ok user =>
      have hsound : ErasureSound compare req w ↔ Completes req user ∧ Confirms compare req w ∨
          ¬Completes req user ∧ (Untouched req w user ∨ AccountErased req.userId w) := by
        simp [ErasureSound, hl, hauth]
      rw [hsound]
      by_cases hc : Completes req user
      case pos =>
        obtain ⟨herased, hchanged⟩ := @outcome_of_completes compare _ _ _ hl hauth hc
        simp only [Confirmed, NeverHalfDone, hchanged, herased, hc, false_or, or_true, and_true,
          true_and, not_true, false_and, or_false]
      case neg =>
        obtain ⟨w₁, hw₁, hout⟩ := @outcome_of_authenticated compare _ _ _ hl hauth
        obtain ⟨_, hdb, husers⟩ := @eraseUserData_stops w₁ _ req.erasedAt _ (stops_of_not_completes hc)
        rw [← hout, hw₁.users] at husers
        rw [← hout, hw₁.db] at hdb
        have hun : Unchanged w (req.outcome compare w) ↔ Untouched req w user := by
          rw [Untouched, ← applyAll_eq_self (carriedOut_nodup user.stored), ← hdb]
          exact ⟨fun h => h.db, fun h => ⟨husers, h⟩⟩
        have herased : AccountErased req.userId (req.outcome compare w) ↔ AccountErased req.userId w := by
          rw [AccountErased, husers, AccountErased]
        simp only [Confirmed, NeverHalfDone, hun, herased, hc, false_and, false_or, not_false_eq_true,
          true_and]
        refine ⟨And.right, fun h => ⟨h.imp_right ?_, h⟩⟩
        intro h u hash hu hhash
        obtain ⟨u', hu', hanon⟩ := h
        cases hu.symm.trans hu'
        rw [hanon.password] at hhash
        cases hhash

namespace Sample

def registered : World where
  users := KVStore.empty.set "alice" { email := "alice@example.com", password := some "secret" }

end Sample

-- Alice has a password, and is erased by a request that carries none.
theorem erased_without_password :
    ¬∀ (compare : (password hash : String) → Bool) (req : DeleteRequest) (w : World),
      Confirmed compare req w ∧ NeverHalfDone compare req w := by
  intro h
  cases (h (fun password hash => password = hash) { userId := "alice" } Sample.registered).1 with
  | inl hun =>
    have hbanned := congrArg (fun users => (users.get "alice").map (·.banned)) hun.users
    revert hbanned
    decide +kernel
  | inr hconfirms =>
    obtain ⟨password, hp, _⟩ := hconfirms _ "secret" rfl rfl
    cases hp

end Account
