import MallChain.Account.Gdpr

namespace Account.Freshness

open Interleaving

-- Any request behind the middleware, the changes of an account by an administrator or by its owner,
-- and a key of the cache that expires.
inductive Request
  | use (userId : String) (role : Option Role)
  | changeRole (adminId userId : String) (role : Option Role)
  | ban (adminId userId : String) (banned : Bool) (reason : Option String)
  | deleteUser (adminId userId : String)
  | erase (userId : String) (password : Option String) (erasedAt : ℕ) (fails : Erasing → Bool)
  | expire (userId : String)

def finish {α : Type} (handler : Handler α) : Handler Unit := do
  let _ ← handler
  return

-- All routes of the panel ask for an administrator, some of them for a superadmin as well.
def superadminOnly (adminId : String) (handler : ReqUser → Handler (Except Failure Profile)) :
    Handler (Except Failure Profile) :=
  withAuth (some .admin) adminId fun _ => withAuth (some .superadmin) adminId handler

def Request.handler (compare : (password hash : String) → Bool) : Request → Handler Unit
  | use userId role                      => finish (requireAuth role userId)
  | changeRole adminId userId role       => finish (superadminOnly adminId (Account.changeRole userId role))
  | ban adminId userId banned reason     =>
    finish (withAuth (some .admin) adminId (Account.ban userId banned reason))
  | deleteUser adminId userId            => finish (superadminOnly adminId (Account.deleteUser userId))
  | erase userId password erasedAt fails =>
    finish (withAuth none userId (deleteData compare password erasedAt fails))
  | expire userId                        => .write .step (·.dropCachedUser userId)

-- Every copy in the cache has seen what is settled, and all that is acknowledged is settled.
structure Fresh (w : World) : Prop where
  acked     : ∀ id, w.acked id ≤ w.settled id
  settled   : ∀ id, w.settled id ≤ w.version id
  cached    : ∀ id copy, w.cache.get id = some copy → w.settled id ≤ copy.version
  decisions : ∀ d ∈ w.decisions, d.started ≤ d.decided

structure Later (w w' : World) : Prop where
  acked   : ∀ id, w.acked id ≤ w'.acked id
  settled : ∀ id, w.settled id ≤ w'.settled id
  version : ∀ id, w.version id ≤ w'.version id

theorem Later.refl (w : World) : Later w w where
  acked _   := le_rfl
  settled _ := le_rfl
  version _ := le_rfl

theorem Later.trans {w₁ w₂ w₃ : World} (h : Later w₁ w₂) (h' : Later w₂ w₃) : Later w₁ w₃ where
  acked id   := (h.acked id).trans (h'.acked id)
  settled id := (h.settled id).trans (h'.settled id)
  version id := (h.version id).trans (h'.version id)

-- A copy is put into the cache only if it has seen what is settled, and when an erasure is answered the
-- cache holds no copy from before.
def guard : Label → World → Prop
  | .caching id version, w => w.settled id ≤ version
  | .erased id version, w  => (w.cache.get id).all fun copy => version ≤ copy.version
  | _, _                   => True

instance decidableGuard : (label : Label) → (w : World) → Decidable (guard label w)
  | .caching id version, w => inferInstanceAs (Decidable (w.settled id ≤ version))
  | .erased id version, w  =>
    inferInstanceAs (Decidable ((w.cache.get id).all fun copy => decide (version ≤ copy.version)))
  | .step, _               => .isTrue trivial
  | .invalidating _ _, _   => .isTrue trivial

def contract : Contract Label World ℕ where
  invariant w _ := Fresh w
  grows         := Later
  guard         := guard
  refl          := Later.refl
  trans         := Later.trans

section World

variable {w : World} {id id' : String} {f : History → History} {version : ℕ}

theorem historyOf_modify :
    (w.modifyHistory id f).historyOf id' = if id' = id then f (w.historyOf id) else w.historyOf id' := by
  rw [World.historyOf, World.modifyHistory, KVStore.get_set]
  split_ifs <;> rfl

-- A write that says nothing of the history and the cache.
theorem keeps_of_same {label : Label} {update : World → World}
    (hhistory : ∀ w, (update w).history = w.history) (hcache : ∀ w, (update w).cache = w.cache)
    (hdecisions : ∀ w, (update w).decisions = w.decisions) : contract.Keeps label update := by
  intro w own _ hI
  have hof : ∀ id, (update w).historyOf id = w.historyOf id := by
    intro id
    rw [World.historyOf, hhistory, World.historyOf]
  refine ⟨{ acked := ?acked, settled := ?settled, cached := ?cached, decisions := ?decisions }, ?later⟩
  case acked => simpa only [World.acked, World.settled, hof] using hI.acked
  case settled => simpa only [World.settled, World.version, hof] using hI.settled
  case cached => simpa only [World.settled, hof, hcache] using hI.cached
  case decisions => simpa only [hdecisions] using hI.decisions
  case later =>
    constructor <;> intro id <;> simp only [World.acked, World.settled, World.version, hof, le_refl]

theorem updateDb_keeps {label : Label} {f : Database → Database} :
    contract.Keeps label (·.updateDb f) :=
  keeps_of_same (fun _ => rfl) (fun _ => rfl) fun _ => rfl

theorem version_modify : (w.modifyHistory id f).version id' =
    if id' = id then (f (w.historyOf id)).version else w.version id' := by
  rw [World.version, historyOf_modify]
  split_ifs <;> rfl

theorem settled_modify : (w.modifyHistory id f).settled id' =
    if id' = id then (f (w.historyOf id)).settled else w.settled id' := by
  rw [World.settled, historyOf_modify]
  split_ifs <;> rfl

theorem acked_modify : (w.modifyHistory id f).acked id' =
    if id' = id then (f (w.historyOf id)).acked else w.acked id' := by
  rw [World.acked, historyOf_modify]
  split_ifs <;> rfl

theorem version_changed : (w.changed id).version id' = if id' = id then w.version id + 1 else w.version id' :=
  version_modify

theorem settled_changed : (w.changed id).settled id' = w.settled id' := by
  rw [World.changed, settled_modify]
  split_ifs with h
  case pos => rw [h]; rfl
  case neg => rfl

theorem acked_changed : (w.changed id).acked id' = w.acked id' := by
  rw [World.changed, acked_modify]
  split_ifs with h
  case pos => rw [h]; rfl
  case neg => rfl

theorem le_version_changed : w.version id' ≤ (w.changed id).version id' := by
  rw [version_changed]
  split_ifs with h
  case pos => rw [h]; exact Nat.le_succ _
  case neg => exact le_rfl

-- A change makes a new version that nobody has seen.
theorem fresh_changed (h : Fresh w) : Fresh (w.changed id) ∧ Later w (w.changed id) where
  left := {
    acked     := fun id' => by rw [acked_changed, settled_changed]; exact h.acked id'
    settled   := fun id' => by rw [settled_changed]; exact (h.settled id').trans le_version_changed
    cached    := fun id' copy hc => by rw [settled_changed]; exact h.cached id' copy hc
    decisions := h.decisions
  }
  right := {
    acked   := fun _ => acked_changed.ge
    settled := fun _ => settled_changed.ge
    version := fun _ => le_version_changed
  }

theorem settle_acked : (w.settle id version).acked id' = w.acked id' := by
  rw [World.settle, acked_modify]
  split_ifs with h
  case pos => rw [h]; rfl
  case neg => rfl

theorem settle_version {v : ℕ} : (w.settle id v).version id' = w.version id' := by
  rw [World.settle, version_modify]
  split_ifs with h
  case pos => rw [h]; rfl
  case neg => rfl

theorem settle_settled : (w.settle id version).settled id' =
    if id' = id then max (w.settled id) version else w.settled id' :=
  settled_modify

-- What the cache holds has seen a version that is settled.
theorem fresh_settle (h : Fresh w) (hv : version ≤ w.version id)
    (hc : ∀ copy, w.cache.get id = some copy → version ≤ copy.version) :
    Fresh (w.settle id version) ∧ Later w (w.settle id version) where
  left := {
    acked     := fun id' => by
      rw [settle_acked, settle_settled]
      split_ifs with heq
      case pos => rw [heq]; exact (h.acked id).trans (le_max_left _ _)
      case neg => exact h.acked id'
    settled   := fun id' => by
      rw [settle_settled, settle_version]
      split_ifs with heq
      case pos => rw [heq]; exact max_le (h.settled id) hv
      case neg => exact h.settled id'
    cached    := fun id' copy hcopy => by
      rw [settle_settled]
      split_ifs with heq
      case pos =>
        rw [heq] at hcopy
        exact max_le (h.cached id copy hcopy) (hc copy hcopy)
      case neg => exact h.cached id' copy hcopy
    decisions := h.decisions
  }
  right := {
    acked   := fun _ => settle_acked.ge
    settled := fun id' => by
      rw [settle_settled]
      split_ifs with heq
      case pos => rw [heq]; exact le_max_left _ _
      case neg => exact le_rfl
    version := fun _ => settle_version.ge
  }

theorem acknowledge_settled {v : ℕ} : (w.acknowledge id v).settled id' = w.settled id' := by
  rw [World.acknowledge, settled_modify]
  split_ifs with h
  case pos => rw [h]; rfl
  case neg => rfl

theorem acknowledge_version {v : ℕ} : (w.acknowledge id v).version id' = w.version id' := by
  rw [World.acknowledge, version_modify]
  split_ifs with h
  case pos => rw [h]; rfl
  case neg => rfl

theorem acknowledge_acked : (w.acknowledge id version).acked id' =
    if id' = id then max (w.acked id) version else w.acked id' :=
  acked_modify

theorem fresh_acknowledge (h : Fresh w) (hv : version ≤ w.settled id) :
    Fresh (w.acknowledge id version) ∧ Later w (w.acknowledge id version) where
  left := {
    acked     := fun id' => by
      rw [acknowledge_settled, acknowledge_acked]
      split_ifs with heq
      case pos => rw [heq]; exact max_le (h.acked id) hv
      case neg => exact h.acked id'
    settled   := fun id' => by
      rw [acknowledge_settled, acknowledge_version]
      exact h.settled id'
    cached    := fun id' copy hcopy => by
      rw [acknowledge_settled]
      exact h.cached id' copy hcopy
    decisions := h.decisions
  }
  right := {
    acked   := fun id' => by
      rw [acknowledge_acked]
      split_ifs with heq
      case pos => rw [heq]; exact le_max_left _ _
      case neg => exact le_rfl
    settled := fun _ => acknowledge_settled.ge
    version := fun _ => acknowledge_version.ge
  }

theorem fresh_drop (h : Fresh w) : Fresh (w.dropCachedUser id) ∧ Later w (w.dropCachedUser id) where
  left := {
    acked     := h.acked
    settled   := h.settled
    cached    := fun id' copy hcopy => by
      rw [World.dropCachedUser, KVStore.get_remove] at hcopy
      split_ifs at hcopy
      exact h.cached id' copy hcopy
    decisions := h.decisions
  }
  right := { acked := fun _ => le_rfl, settled := fun _ => le_rfl, version := fun _ => le_rfl }

theorem fresh_setCachedUser {copy : Copy} (h : Fresh w) (hc : w.settled id ≤ copy.version) :
    Fresh (w.setCachedUser id copy) ∧ Later w (w.setCachedUser id copy) where
  left := {
    acked     := h.acked
    settled   := h.settled
    cached    := fun id' copy' hcopy => by
      rw [World.setCachedUser, KVStore.get_set] at hcopy
      split_ifs at hcopy with heq
      case pos =>
        cases hcopy
        rw [heq]
        exact hc
      case neg => exact h.cached id' copy' hcopy
    decisions := h.decisions
  }
  right := { acked := fun _ => le_rfl, settled := fun _ => le_rfl, version := fun _ => le_rfl }

theorem fresh_decide {d : Decision} (h : Fresh w) (hd : d.started ≤ d.decided) :
    Fresh (w.decide d) ∧ Later w (w.decide d) where
  left := {
    acked     := h.acked
    settled   := h.settled
    cached    := h.cached
    decisions := List.forall_mem_cons.mpr ⟨hd, h.decisions⟩
  }
  right := { acked := fun _ => le_rfl, settled := fun _ => le_rfl, version := fun _ => le_rfl }

-- The users are not part of what is said of the cache.
theorem fresh_users {users : KVStore String User} (h : Fresh w) :
    Fresh { w with users := users } ∧ Later w { w with users := users } where
  left  := { acked := h.acked, settled := h.settled, cached := h.cached, decisions := h.decisions }
  right := { acked := fun _ => le_rfl, settled := fun _ => le_rfl, version := fun _ => le_rfl }

theorem written_le {g : User → User} {users : KVStore String User} {r : ℕ × Profile}
    (h : w.written id g = some r) : r.1 ≤ ({ w with users := users }.changed id).version id := by
  obtain ⟨u, _, hr⟩ := Option.map_eq_some_iff.mp h
  rw [← hr, version_changed, if_pos rfl]
  exact le_rfl

theorem fresh_updateUser {g : User → User} (h : Fresh w) :
    Fresh (w.updateUser id g) ∧ Later w (w.updateUser id g) ∧
      ∀ r, w.written id g = some r → r.1 ≤ (w.updateUser id g).version id := by
  simp only [World.updateUser]
  cases hu : w.users.get id with
  | none =>
    refine ⟨h, Later.refl w, ?_⟩
    intro r hr
    rw [World.written, hu] at hr
    cases hr
  | some u =>
    obtain ⟨hfresh, hlater⟩ := @fresh_users _ (w.users.set id (g u)) h
    obtain ⟨hfresh', hlater'⟩ := @fresh_changed _ id hfresh
    exact ⟨hfresh', hlater.trans hlater', fun r hr => written_le hr⟩

theorem fresh_deleteUser {g : User → User} (h : Fresh w) :
    Fresh (w.deleteUser id) ∧ Later w (w.deleteUser id) ∧
      ∀ r, w.written id g = some r → r.1 ≤ (w.deleteUser id).version id := by
  simp only [World.deleteUser]
  cases hu : w.users.get id with
  | none =>
    refine ⟨h, Later.refl w, ?_⟩
    intro r hr
    rw [World.written, hu] at hr
    cases hr
  | some u =>
    obtain ⟨hfresh, hlater⟩ := @fresh_users _ (w.users.remove id) h
    obtain ⟨hfresh', hlater'⟩ := @fresh_changed _ id hfresh
    exact ⟨hfresh', hlater.trans hlater', fun r hr => written_le hr⟩

end World

section Programs

variable {α β : Type} {w : World} {userId : String} {role : Option Role}

def Idle (_ : α) (_ : World) (own : ℕ) : Prop :=
  own = 0

-- The program keeps the contract from every state on.
def Keeping (p : Handler α) : Prop :=
  ∀ w, contract.Safe Idle p w 0

theorem Keeping.done {a : α} : Keeping (.done a) :=
  fun _ => rfl

theorem Keeping.bind {p : Handler α} {f : α → Handler β} (hp : Keeping p) (hf : ∀ a, Keeping (f a)) :
    Keeping (p >>= f) := by
  intro w
  apply Contract.Safe.bind
  apply (hp w).imp
  intro a s own hown
  cases hown
  exact hf a s

theorem Keeping.finish {p : Handler α} (hp : Keeping p) : Keeping (finish p) :=
  hp.bind fun _ => Keeping.done

theorem Keeping.of_keeps {p : Handler α} (hp : p.Steps contract.Keeps) : Keeping p :=
  fun _ => Contract.Safe.of_steps hp fun _ _ s own h hg hI => h s own hg hI

-- A request is decided on a copy that has seen what was acknowledged when it started.
theorem decideOn_safe {started version : ℕ} {user : ReqUser} (hle : started ≤ version) :
    contract.Safe Idle (decideOn role userId started version user) w 0 := by
  apply Contract.Safe.write
  intro s hs _ others hI
  obtain ⟨hfresh, hlater⟩ := fresh_decide (d := ⟨userId, started, version⟩) hI hle
  refine ⟨0, hfresh, hlater, ?_⟩
  cases authorize role user.stored <;> rfl

theorem requireAuth_keeping : Keeping (requireAuth role userId) := by
  intro w
  apply Contract.Safe.read
  intro s₁ _ _
  apply Contract.Safe.look
  intro s₂ hs₂ _ others₂ hI₂
  have hacked : s₁.acked userId ≤ s₂.settled userId :=
    (hs₂.acked userId).trans (hI₂.acked userId)
  cases hcache : s₂.cache.get userId with
  | some copy => exact decideOn_safe (hacked.trans (hI₂.cached userId copy hcache))
  | none =>
    apply Contract.Safe.look
    intro s₃ hs₃ _ others₃ hI₃
    have hversion : s₁.acked userId ≤ s₃.version userId :=
      hacked.trans ((hs₃.settled userId).trans (hI₃.settled userId))
    rw [World.find]
    cases s₃.users.get userId with
    | none =>
      apply Contract.Safe.write
      intro s₄ _ _ others₄ hI₄
      obtain ⟨hfresh, hlater⟩ := fresh_decide
        (d := ⟨userId, s₁.acked userId, s₃.version userId⟩) hI₄ hversion
      exact ⟨0, hfresh, hlater, rfl⟩
    | some u =>
      apply Contract.Safe.write
      intro s₄ _ hg₄ others₄ hI₄
      obtain ⟨hfresh, hlater⟩ := 
        @fresh_setCachedUser _ userId ⟨s₃.version userId, u.toProfile⟩ hI₄ hg₄
      exact ⟨0, hfresh, hlater, decideOn_safe hversion⟩

theorem withAuth_keeping {handler : ReqUser → Handler (Except Failure α)}
    (h : ∀ user, Keeping (handler user)) : Keeping (withAuth role userId handler) := by
  apply requireAuth_keeping.bind
  intro result
  cases result with
  | error failure => exact Keeping.done
  | ok user => exact h user

-- A version that was made, and is not settled yet.
theorem finishChange_safe {admin : ReqUser} {action : String} {details : Fields}
    {result : Option (ℕ × Profile)} (h : ∀ r, result = some r → r.1 ≤ w.version userId) :
    contract.Safe Idle (finishChange admin userId action details result) w 0 := by
  cases result with
  | none => rfl
  | some r =>
    obtain ⟨version, profile⟩ := r
    have hmade : version ≤ w.version userId := h _ rfl
    apply Contract.Safe.write
    intro s₁ hs₁ _ others₁ hI₁
    obtain ⟨hdropped, hlater⟩ := @fresh_drop _ userId hI₁
    have hnone : ∀ copy, (s₁.dropCachedUser userId).cache.get userId = some copy →
        version ≤ copy.version := by
      intro copy hcopy
      rw [World.dropCachedUser, KVStore.get_remove_self] at hcopy
      cases hcopy
    obtain ⟨hfresh, hlater'⟩ := fresh_settle hdropped (hmade.trans (hs₁.version userId)) hnone
    refine ⟨0, hfresh, hlater.trans hlater', ?_⟩
    have hsettled : version ≤ ((s₁.dropCachedUser userId).settle userId version).settled userId := by
      rw [settle_settled, if_pos rfl]
      exact le_max_right _ _
    apply Contract.Safe.write
    intro s₂ hs₂ _ others₂ hI₂
    obtain ⟨hI₂', hlater₂⟩ := @updateDb_keeps .step _ s₂ _ trivial hI₂
    refine ⟨0, hI₂', hlater₂, ?_⟩
    apply Contract.Safe.write
    intro s₃ hs₃ _ others₃ hI₃
    have hle := (hsettled.trans (hs₂.settled userId)).trans
      ((hlater₂.settled userId).trans (hs₃.settled userId))
    obtain ⟨hacknowledged, hlater₃⟩ := fresh_acknowledge hI₃ hle
    exact ⟨0, hacknowledged, hlater₃, rfl⟩

theorem changeRole_keeping {newRole : Option Role} {admin : ReqUser} :
    Keeping (changeRole userId newRole admin) := by
  cases newRole with
  | none => exact Keeping.done
  | some newRole =>
    intro w
    apply Contract.Safe.read
    intro s _ _
    cases (s.users.get userId).map (·.role) with
    | none => rfl
    | some existing =>
      apply Contract.Safe.ite (fun _ => Keeping.done s)
      intro _
      apply Contract.Safe.act
      intro s' _ _ others hI
      obtain ⟨hfresh, hlater, hmade⟩ := fresh_updateUser hI
      exact ⟨0, hfresh, hlater, finishChange_safe hmade⟩

theorem ban_keeping {banned : Bool} {reason : Option String} {admin : ReqUser} :
    Keeping (ban userId banned reason admin) := by
  intro w
  apply Contract.Safe.act
  intro s _ _ others hI
  obtain ⟨hfresh, hlater, hmade⟩ := fresh_updateUser hI
  exact ⟨0, hfresh, hlater, finishChange_safe hmade⟩

theorem deleteUser_keeping {admin : ReqUser} : Keeping (deleteUser userId admin) := by
  intro w
  apply Contract.Safe.act
  intro s _ _ others hI
  obtain ⟨hfresh, hlater, hmade⟩ := fresh_deleteUser hI
  exact ⟨0, hfresh, hlater, finishChange_safe hmade⟩

theorem eraseAll_steps {user : ReqUser} {erasedAt : ℕ} {fails : Erasing → Bool} : (l : List Erasing) →
    (eraseAll user erasedAt fails l).Steps contract.Keeps
  | []     => trivial
  | _ :: l => ⟨updateDb_keeps, fun _ => eraseAll_steps l⟩

theorem eraseRecords_steps {user : ReqUser} {erasedAt : ℕ} {fails : Erasing → Bool} :
    (stages : List (List Erasing)) → (eraseRecords user erasedAt fails stages).Steps contract.Keeps
  | []            => trivial
  | stage :: rest => by
    apply Prog.Steps.bind (eraseAll_steps stage)
    intro _
    exact Prog.Steps.ite (fun _ => trivial) fun _ => eraseRecords_steps rest

-- The cache is not emptied, and holds no copy from before when the erasure is answered.
theorem eraseAccount_keeping {user : ReqUser} {erasedAt : ℕ} {fails : Erasing → Bool} :
    Keeping (eraseAccount user erasedAt fails) := by
  intro w
  apply Contract.Safe.ite (fun _ => Keeping.done w)
  intro _
  apply Contract.Safe.act
  intro s₁ _ _ others₁ hI₁
  obtain ⟨hfresh, hlater, hmade⟩ := fresh_updateUser hI₁
  refine ⟨0, hfresh, hlater, ?_⟩
  cases hresult : s₁.written user.objectId _ with
  | none => rfl
  | some r =>
    obtain ⟨version, profile⟩ := r
    have hle := hmade _ hresult
    apply Contract.Safe.write
    intro s₂ hs₂ _ others₂ hI₂
    have hlog : contract.Keeps .step fun w : World =>
        if fails .auditLog = true then w
        else w.log ⟨"gdpr_erasure", "user:" ++ user.objectId, [("userId", user.objectId)]⟩ := by
      split_ifs
      case pos => exact keeps_of_same (fun _ => rfl) (fun _ => rfl) fun _ => rfl
      case neg => exact updateDb_keeps
    obtain ⟨hI₂', hlater₂⟩ := hlog s₂ _ trivial hI₂
    refine ⟨0, hI₂', hlater₂, ?_⟩
    apply Contract.Safe.write
    intro s₃ hs₃ hg₃ others₃ hI₃
    have hversion := (hle.trans (hs₂.version user.objectId)).trans
      ((hlater₂.version user.objectId).trans (hs₃.version user.objectId))
    obtain ⟨hsettled, hlater₃⟩ := fresh_settle hI₃ hversion (fun copy hcopy => by
      have hg : (s₃.cache.get user.objectId).all (fun copy => decide (version ≤ copy.version)) = true := hg₃
      rw [hcopy] at hg
      simpa using hg)
    have hle₃ : version ≤ (s₃.settle user.objectId version).settled user.objectId := by
      rw [settle_settled, if_pos rfl]
      exact le_max_right _ _
    obtain ⟨hacknowledged, hlater₄⟩ := fresh_acknowledge hsettled hle₃
    exact ⟨0, hacknowledged, hlater₃.trans hlater₄, rfl⟩

theorem eraseUserData_keeping {user : ReqUser} {erasedAt : ℕ} {fails : Erasing → Bool} :
    Keeping (eraseUserData user erasedAt fails) := by
  apply Keeping.bind (Keeping.of_keeps (eraseRecords_steps _))
  intro done
  cases done with
  | true => exact eraseAccount_keeping
  | false => exact Keeping.done

variable {compare : (password hash : String) → Bool}

theorem handler_handles (request : Request) (w : World) :
    contract.Handles (request.handler compare) w 0 := by
  cases request with
  | use userId role => exact requireAuth_keeping.finish w
  | changeRole adminId userId role =>
    exact (withAuth_keeping fun _ => withAuth_keeping fun _ => changeRole_keeping).finish w
  | ban adminId userId banned reason => exact (withAuth_keeping fun _ => ban_keeping).finish w
  | deleteUser adminId userId =>
    exact (withAuth_keeping fun _ => withAuth_keeping fun _ => deleteUser_keeping).finish w
  | erase userId password erasedAt fails =>
    exact (withAuth_keeping fun _ => eraseUserData_keeping).finish w
  | expire userId =>
    apply Contract.Handles.write
    intro s _ _ others hI
    exact fresh_drop hI

end Programs

-- Any accounts, nothing cached, and no change yet.
def Start (w : World) : Prop :=
  w.cache = .empty ∧ w.history = .empty ∧ w.decisions = []

def freshSystem (compare : (password hash : String) → Bool) :
    TransitionSystem (Pool Label World) (Action Request) :=
  system Start (Request.handler compare)

theorem fresh_start {w : World} (h : Start w) : Fresh w := by
  obtain ⟨hcache, hhistory, hdecisions⟩ := h
  have hof : ∀ id, w.historyOf id = {} := by
    intro id
    rw [World.historyOf, hhistory]
    rfl
  exact {
    acked     := fun id => by rw [World.acked, World.settled, hof]
    settled   := fun id => by rw [World.settled, World.version, hof]
    cached    := fun id copy hc => by
      rw [hcache] at hc
      cases hc
    decisions := by simp [hdecisions]
  }

-- Where no stale copy is put into the cache and no erasure is answered over one, every request is decided
-- on an account that has all changes that were acknowledged when it started.
theorem decided_on_changed {compare : (password hash : String) → Bool} {p : Pool Label World}
    (hp : (freshSystem compare).Run (fun p a => p.Meets guard a) p) :
    ∀ d ∈ p.store.decisions, d.started ≤ d.decided := by
  have hI : (freshSystem compare).Invariant (fun p a => p.Meets contract.guard a)
      fun p => ∃ owned, contract.Holds p owned :=
    Contract.invariant_of_handles (fun _ hs => fresh_start hs) handler_handles
  obtain ⟨owned, hholds⟩ := hI.holds hp
  exact hholds.invariant.decisions

namespace Sample

def admin : User where
  email := "admin@example.com"
  role  := .admin

def accounts : World where
  users := (KVStore.empty.set "alice" { email := "alice@example.com" }).set "admin" admin

def plain (password hash : String) : Bool :=
  password = hash

-- Alice uses her account before, while and after she is banned.
def banned : List (Action Request) :=
  inTurn 12 [.use "alice" none, .ban "admin" "alice" true none, .use "alice" none]

-- Her account is read before she is banned, and cached afterwards.
def overlapping : List (Action Request) :=
  [.start (.use "alice" none), .run 0, .run 0, .run 0, .start (.ban "admin" "alice" true none)] ++
    List.replicate 12 (.run 1) ++ List.replicate 2 (.run 0) ++
    .start (.use "alice" none) :: List.replicate 6 (.run 2)

end Sample

theorem sample_decided_on_changed :
    (Pool.execs (Request.handler Sample.plain) { store := Sample.accounts, running := [] }
      Sample.banned).store.decisions ≠ [] ∧
    ∀ d ∈ (Pool.execs (Request.handler Sample.plain) { store := Sample.accounts, running := [] }
      Sample.banned).store.decisions, d.started ≤ d.decided :=
  ⟨by decide +kernel, decided_on_changed (run_from ⟨rfl, rfl, rfl⟩ (by decide +kernel))⟩

-- The request after the ban is decided on the account before it.
theorem stale_copy_accepted :
    ¬∀ (compare : (password hash : String) → Bool) (p : Pool Label World),
      (freshSystem compare).Reachable p → ∀ d ∈ p.store.decisions, d.started ≤ d.decided := by
  intro h
  have hreachable : (freshSystem Sample.plain).Reachable
      (Pool.execs (Request.handler Sample.plain) { store := Sample.accounts, running := [] }
        Sample.overlapping) :=
    reachable_from ⟨rfl, rfl, rfl⟩
  have hall := h Sample.plain _ hreachable
  revert hall
  decide +kernel

end Account.Freshness
