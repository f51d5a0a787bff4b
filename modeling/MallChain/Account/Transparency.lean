import MallChain.Account.Erasure
import MallChain.Account.Handlers

namespace Account

open Interleaving

inductive Request
  | upload (file : Option File) (now : ℕ)
  | document (kycId : ℕ) (reason : Option String)
  | submit (kycId now : ℕ) (data : KycData)
  | check (kycId now : ℕ) (data : Option KycData)
  | status
  | exporting
  | delete (password : Option String) (erasedAt : ℕ) (fails : Erasing → Bool)
  | refresh (jti : String) (now sessionSeconds : ℕ) (old : TokenPayload)
  | declare (reviewId now : ℕ) (declaration : Declaration)
  | reviewStatus
  | reviewDocument (reviewId : ℕ) (reason : Option String)

inductive Response
  | documentRef (name : String)
  | document (name : String)
  | submitted (s : Submitted)
  | checked (checks : AmlChecks) (riskLevel : RiskLevel)
  | status (kyc : Option (ℕ × KYC))
  | exported (data : Export)
  | erased (erasedAt : ℕ)
  | refreshed (r : Refreshed)
  | declared (reviewId : ℕ) (status : ReviewStatus)
  | review (state : ReviewState)

def answer {α : Type} (handler : Handler (Except Failure α)) (f : α → Response) :
    Handler (Except Failure Response) := do
  let result ← handler
  return result.map f

def Request.handler (p : Provider) (compare : (password hash : String) → Bool) (user : ReqUser) :
    Request → Handler (Except Failure Response)
  | .upload file now                => answer (uploadDocument file now user) .documentRef
  | .document kycId reason          => answer (getDocument kycId reason user) .document
  | .submit kycId now data          => answer (submitKYC p kycId now data user) .submitted
  | .check kycId now data           => answer (runAMLCheck p kycId now data user) fun r => .checked r.1 r.2
  | .status                         => answer (getKYCStatus p user) .status
  | .exporting                      => answer (exportData p.toCipher user) .exported
  | .delete password erasedAt fails =>
    answer (deleteData compare password erasedAt fails user) .erased
  | .refresh jti now seconds old    => answer (Account.refresh jti now seconds old user) .refreshed
  | .declare reviewId now d         =>
    answer (Account.declare p reviewId now d user) fun r => .declared r.1 r.2
  | .reviewStatus                   => answer (getReviewStatus user) .review
  | .reviewDocument reviewId reason => answer (getReviewDocument reviewId reason user) .document

section Requests

variable (p : Provider) (compare : (password hash : String) → Bool) (userId : String) (req : Request)

-- What a request answers and leaves.
def serveRequest (w : World) : Except Failure Response × World :=
  (withAuth none userId fun user => req.handler p compare user).alone w

-- The cache holds the stored fields of the account, or nothing of it.
def Transparent (w : World) : Prop :=
  ∀ u, w.users.get userId = some u →
    let hit := serveRequest p compare userId req (w.setCachedUser userId ⟨w.version userId, u.toProfile⟩)
    let miss := serveRequest p compare userId req (w.dropCachedUser userId)
    hit.1 = miss.1 ∧ Unchanged miss.2 hit.2

-- The requests that use of the user only what the cache keeps. A document is refused or missed alike.
def StoredOnly (w : World) (u : Profile) : Request → Prop
  | .submit _ _ _ | .check _ _ _ | .status => False
  | .document kycId _  => ∀ kyc, w.db.kyc.get kycId = some kyc →
    access u userId kyc.userId kyc.idDocumentUrl = access u "undefined" kyc.userId kyc.idDocumentUrl ∧
      ∀ own name, access u userId kyc.userId kyc.idDocumentUrl ≠ .served own name
  | .delete _ _ fails  => (eraseStages u).any (·.any fails) = true ∨ fails .account = true
  | _ => True

end Requests

-- Programs that answer the same and leave the same, whatever the cache holds.
def Agree {α : Type} (p q : Handler α) : Prop :=
  ∀ w w', Unchanged w w' → (q.alone w').1 = (p.alone w).1 ∧ Unchanged (p.alone w).2 (q.alone w').2

section Agree

variable {α β : Type} {p q : Handler α} {f g : α → Handler β}

theorem Agree.done {a : α} : Agree (.done a) (.done a) :=
  fun _ _ h => ⟨rfl, h⟩

theorem Agree.bind (h : Agree p q) (hf : ∀ a, Agree (f a) (g a)) : Agree (p >>= f) (q >>= g) := by
  intro w w' hw
  obtain ⟨hres, hw'⟩ := h w w' hw
  rw [Prog.alone_bind, Prog.alone_bind, hres]
  exact hf _ _ _ hw'

theorem Agree.read {label : Label} {answer : World → α}
    (h : ∀ w w', Unchanged w w' → answer w' = answer w) : Agree (.read label answer) (.read label answer) :=
  fun w w' hw => ⟨h w w' hw, hw⟩

theorem Agree.updateDb {label : Label} {f : Database → Database} :
    Agree (.write label (·.updateDb f)) (.write label (·.updateDb f)) :=
  fun _ _ hw => ⟨rfl, ⟨hw.users, congrArg f hw.db⟩⟩

theorem Agree.answer {p q : Handler (Except Failure α)} {r : α → Response} (h : Agree p q) :
    Agree (answer p r) (answer q r) :=
  h.bind fun _ => Agree.done

end Agree

section Handlers

variable {id action viewer resourceId subject : String} {u : Profile} {reason : Option String} {w w' : World}

theorem serve_agree {a : Access} : Agree (serve action viewer resourceId subject u reason a)
    (serve action viewer resourceId subject u reason a) := by
  cases a with
  | forbidden => exact Agree.done
  | missing => exact Agree.done
  | served own name => exact Agree.updateDb.bind fun _ => Agree.done

theorem exportData_agree {cipher : Cipher} :
    Agree (exportData cipher ⟨id, u, true⟩) (exportData cipher ⟨id, u, false⟩) := by
  apply Agree.bind (Agree.read fun w w' hw => by rw [hw.db])
  intro data
  cases data <;> exact Agree.done

theorem declare_agree {p : Provider} {reviewId now : ℕ} {d : Declaration} :
    Agree (declare p reviewId now d ⟨id, u, true⟩) (declare p reviewId now d ⟨id, u, false⟩) := by
  have hid : anyId ⟨id, u, false⟩ = anyId ⟨id, u, true⟩ := rfl
  simp only [declare, hid]
  cases present u.walletAddress with
  | none => exact Agree.done
  | some wallet =>
    dsimp only
    split_ifs
    case pos => exact Agree.done
    case pos => exact Agree.done
    case neg => exact Agree.updateDb.bind fun _ => Agree.done

theorem getReviewStatus_agree :
    Agree (getReviewStatus ⟨id, u, true⟩) (getReviewStatus ⟨id, u, false⟩) := by
  rw [getReviewStatus, getReviewStatus]
  cases present u.walletAddress with
  | none => exact Agree.done
  | some wallet =>
    apply Agree.bind (Agree.read fun w w' hw => by rw [hw.db])
    intro found
    exact Agree.done

theorem getReviewDocument_agree {reviewId : ℕ} :
    Agree (getReviewDocument reviewId reason ⟨id, u, true⟩)
      (getReviewDocument reviewId reason ⟨id, u, false⟩) := by
  apply Agree.bind (Agree.read fun w w' hw => by rw [hw.db])
  intro found
  cases found with
  | none => exact Agree.done
  | some review => exact serve_agree

-- No password is ever asked for.
theorem deleteData_eq {compare : (password hash : String) → Bool} {password : Option String}
    {erasedAt : ℕ} {fails : Erasing → Bool} {user : ReqUser} :
    deleteData compare password erasedAt fails user = eraseUserData user erasedAt fails :=
  rfl

-- Where some write fails, neither a document nor a copy is saved.
theorem deleteData_agree {compare : (password hash : String) → Bool} {password : Option String}
    {erasedAt : ℕ} {fails : Erasing → Bool}
    (h : (eraseStages u).any (·.any fails) = true ∨ fails .account = true) :
    Agree (deleteData compare password erasedAt fails ⟨id, u, true⟩)
      (deleteData compare password erasedAt fails ⟨id, u, false⟩) := by
  intro w w' hw
  have happly : ∀ l db, applyAll ⟨id, u, false⟩ erasedAt l db = applyAll ⟨id, u, true⟩ erasedAt l db := by
    intro l db
    have hone : ∀ s, Erasing.apply ⟨id, u, false⟩ erasedAt s = Erasing.apply ⟨id, u, true⟩ erasedAt s := by
      intro s
      cases s <;> rfl
    simp only [applyAll, hone]
  obtain ⟨hres, hdb, husers⟩ :=
    @eraseUserData_stops w ⟨id, u, true⟩ erasedAt fails (h.imp_right .inr)
  obtain ⟨hres', hdb', husers'⟩ :=
    @eraseUserData_stops w' ⟨id, u, false⟩ erasedAt fails (h.imp_right .inr)
  have hdbs : ((eraseUserData ⟨id, u, false⟩ erasedAt fails).alone w').2.db =
      ((eraseUserData ⟨id, u, true⟩ erasedAt fails).alone w).2.db := by
    rw [hdb', hdb, hw.db, happly]
  exact ⟨hres'.trans hres.symm, ⟨husers'.trans (hw.users.trans husers.symm), hdbs⟩⟩

theorem submitKYC_ne_unauthorized {p : Provider} {kycId now : ℕ} {d : KycData} :
    ((submitKYC p kycId now d ⟨id, u, true⟩).alone w).1 ≠ .error unauthorized := by
  have hv : virtualId ⟨id, u, true⟩ = some id := rfl
  rw [submitKYC, hv]
  dsimp only
  split
  case isTrue => simp [forbidden, unauthorized, appError]
  case isFalse =>
    rw [Prog.read_bind, Prog.alone_step]
    split
    case isTrue => simp [unauthorized, appError]
    case isFalse =>
      cases p.screen (some d) with
      | none => simp [unauthorized, appError]
      | some checks =>
        dsimp only
        split
        case isTrue => split <;> simp
        case isFalse => simp [databaseError, unauthorized, appError]

theorem runAMLCheck_ne_unauthorized {p : Provider} {kycId now : ℕ} {d : Option KycData} :
    ((runAMLCheck p kycId now d ⟨id, u, true⟩).alone w).1 ≠ .error unauthorized := by
  have hv : virtualId ⟨id, u, true⟩ = some id := rfl
  rw [runAMLCheck, hv]
  cases hs : p.screen d with
  | none => simp [databaseError, unauthorized, appError]
  | some checks => simp

theorem getKYCStatus_ne_unauthorized {p : Provider} :
    ((getKYCStatus p ⟨id, u, true⟩).alone w).1 ≠ .error unauthorized := by
  have hv : virtualId ⟨id, u, true⟩ = some id := rfl
  rw [getKYCStatus, hv]
  simp only [Prog.read_bind, Prog.alone_step]
  cases latest w.db.kyc id with
  | none => simp
  | some found =>
    cases hd : p.decryptKycPii found.2 with
    | none => simp [hd, unauthorized, appError]
    | some decrypted => simp [hd]

-- What a document says of itself to a viewer is the same, or is not.
theorem getDocument_alone {kycId : ℕ} {user : ReqUser} :
    (getDocument kycId reason user).alone w =
      match w.db.kyc.get kycId with
      | none     => (.error (notFound "Not found"), w)
      | some kyc =>
        let viewer := textOf (virtualId user)
        (serve "kyc_document_viewed" viewer (toString kycId) kyc.userId user.stored (reasonOf reason)
          (access user.stored viewer kyc.userId kyc.idDocumentUrl)).alone w := by
  rw [getDocument, Prog.read_bind, Prog.alone_step]
  cases w.db.kyc.get kycId <;> rfl

theorem serve_iff {viewer' : String} {a a' : Access} (hv : viewer ≠ viewer') (hw : Unchanged w w') :
    ((serve action viewer' resourceId subject u reason a').alone w').1 =
          ((serve action viewer resourceId subject u reason a).alone w).1 ∧
        Unchanged ((serve action viewer resourceId subject u reason a).alone w).2
          ((serve action viewer' resourceId subject u reason a').alone w').2 ↔
      a = a' ∧ ∀ own name, a ≠ .served own name := by
  cases a with
  | forbidden =>
    cases a' with
    | forbidden => exact iff_of_true ⟨rfl, hw⟩ ⟨rfl, by simp⟩
    | missing => simp [serve, forbidden, notFound, appError]
    | served own name => simp [serve]
  | missing =>
    cases a' with
    | forbidden => simp [serve, forbidden, notFound, appError]
    | missing => exact iff_of_true ⟨rfl, hw⟩ ⟨rfl, by simp⟩
    | served own name => simp [serve]
  | served own name =>
    apply iff_of_false _ (by simp)
    cases a' with
    | forbidden => simp [serve]
    | missing => simp [serve]
    | served own' name' =>
      intro h
      have hlogs := congrArg (·.auditLogs.head?) h.2.db
      have hactor := congrArg (Option.map (·.actor)) hlogs
      exact hv (Option.some.inj hactor).symm

end Handlers

section Main

variable {p : Provider} {compare : (password hash : String) → Bool} {userId : String} {req : Request}
  {user : ReqUser} {u : Profile} {w w' : World}

theorem serveRequest_of_admitted (h : authenticate none userId w = .ok user) :
    ∃ w₁, Unchanged w w₁ ∧
      serveRequest p compare userId req w = (req.handler p compare user).alone w₁ := by
  obtain ⟨hres, hunchanged⟩ := @requireAuth_alone none userId w
  refine ⟨_, hunchanged, ?_⟩
  rw [serveRequest, withAuth, Prog.alone_bind, hres, h]

theorem serveRequest_of_refused {failure : Failure} (h : authenticate none userId w = .error failure) :
    (serveRequest p compare userId req w).1 = .error failure ∧
      Unchanged w (serveRequest p compare userId req w).2 := by
  obtain ⟨hres, hunchanged⟩ := @requireAuth_alone none userId w
  rw [serveRequest, withAuth, Prog.alone_bind, hres, h]
  exact ⟨rfl, hunchanged⟩

theorem answer_alone {α : Type} {h : Handler (Except Failure α)} {f : α → Response} :
    (answer h f).alone w = ((h.alone w).1.map f, (h.alone w).2) := by
  rw [answer, Prog.alone_bind]
  rfl

theorem map_eq_error_iff {α : Type} {r : Except Failure α} {f : α → Response} {e : Failure} :
    r.map f = .error e ↔ r = .error e := by
  cases r <;> simp [Except.map]

theorem map_eq_map_iff {α : Type} {r r' : Except Failure α} {f : α → Response}
    (hf : Function.Injective f) : r.map f = r'.map f ↔ r = r' := by
  cases r <;> cases r' <;> simp [Except.map, hf.eq_iff]

-- A document and a copy with the same stored fields are served alike exactly by these requests.
theorem handler_agrees_iff {u : User} (hid : userId ≠ "undefined") (hu : w.users.get userId = some u)
    (hw : Unchanged w w') :
    ((req.handler p compare ⟨userId, u.toProfile, false⟩).alone w').1 =
          ((req.handler p compare ⟨userId, u.toProfile, true⟩).alone w).1 ∧
        Unchanged ((req.handler p compare ⟨userId, u.toProfile, true⟩).alone w).2
          ((req.handler p compare ⟨userId, u.toProfile, false⟩).alone w').2 ↔
      StoredOnly userId w u.toProfile req := by
  cases req with
  | upload file now =>
    refine iff_of_true ?_ trivial
    cases file with
    | none => exact ⟨rfl, hw⟩
    | some file => exact ⟨rfl, hw⟩
  | document kycId reason =>
    rw [Request.handler, Request.handler, answer_alone, answer_alone, getDocument_alone, getDocument_alone,
      hw.db, StoredOnly, map_eq_map_iff fun _ _ => Response.document.inj]
    cases hkyc : w.db.kyc.get kycId with
    | none => exact iff_of_true ⟨rfl, hw⟩ (by simp)
    | some kyc =>
      simp only [Option.some.injEq, forall_eq']
      exact serve_iff hid hw
  | submit kycId now data =>
    refine iff_of_false ?_ id
    intro h
    have hres := h.1
    rw [Request.handler, Request.handler, answer_alone, answer_alone] at hres
    exact submitKYC_ne_unauthorized (map_eq_error_iff.mp hres.symm)
  | check kycId now data =>
    refine iff_of_false ?_ id
    intro h
    have hres := h.1
    rw [Request.handler, Request.handler, answer_alone, answer_alone] at hres
    exact runAMLCheck_ne_unauthorized (map_eq_error_iff.mp hres.symm)
  | status =>
    refine iff_of_false ?_ id
    intro h
    have hres := h.1
    rw [Request.handler, Request.handler, answer_alone, answer_alone] at hres
    exact getKYCStatus_ne_unauthorized (map_eq_error_iff.mp hres.symm)
  | exporting => exact iff_of_true (exportData_agree.answer w w' hw) trivial
  | delete password erasedAt fails =>
    rw [StoredOnly]
    constructor
    case mpr => exact fun h => (deleteData_agree h).answer w w' hw
    case mp =>
      intro h
      by_contra hn
      obtain ⟨hany, haccount⟩ := not_or.mp hn
      have hres := h.1
      rw [Request.handler, Request.handler, answer_alone, answer_alone,
        map_eq_map_iff fun _ _ => Response.erased.inj, deleteData_eq, deleteData_eq] at hres
      rw [(eraseUserData_stops (.inr (.inl Bool.false_ne_true))).1,
        (eraseUserData_completes (Bool.eq_false_of_not_eq_true hany) rfl
          (Bool.eq_false_of_not_eq_true haccount) hu).1] at hres
      cases hres
  | refresh jti now seconds old => exact iff_of_true ⟨rfl, hw⟩ trivial
  | declare reviewId now d => exact iff_of_true (declare_agree.answer w w' hw) trivial
  | reviewStatus => exact iff_of_true (getReviewStatus_agree.answer w w' hw) trivial
  | reviewDocument reviewId reason => exact iff_of_true (getReviewDocument_agree.answer w w' hw) trivial

end Main

-- The cache is transparent exactly for the requests of banned accounts, and for those that use only
-- stored fields.
theorem transparent_iff {p : Provider} {compare : (password hash : String) → Bool} {userId : String}
    {req : Request} {w : World} (hid : userId ≠ "undefined") :
    Transparent p compare userId req w ↔
      ∀ u, w.users.get userId = some u → u.banned = true ∨ StoredOnly userId w u.toProfile req := by
  apply forall_congr'
  intro u
  apply forall_congr'
  intro hu
  let hit := w.setCachedUser userId ⟨w.version userId, u.toProfile⟩
  let miss := w.dropCachedUser userId
  have hhit : authenticate none userId hit = admitted none ⟨userId, u.toProfile, false⟩ := by
    rw [authenticate, show hit.cache.get userId = _ from KVStore.get_set_self]
  have hmiss : authenticate none userId miss = admitted none ⟨userId, u.toProfile, true⟩ := by
    rw [authenticate, show miss.cache.get userId = _ from KVStore.get_remove_self,
      show miss.users.get userId = _ from hu]
  have hunchanged : Unchanged miss hit := ⟨rfl, rfl⟩
  cases hb : u.banned with
  | true =>
    have hrefused : ∀ hydrated, admitted none ⟨userId, u.toProfile, hydrated⟩ =
        .error ⟨403, "account is banned"⟩ := by
      intro hydrated
      simp [admitted, authorize, hb]
    rw [hrefused] at hhit hmiss
    obtain ⟨hres, hw⟩ := @serveRequest_of_refused p compare _ req _ _ hhit
    obtain ⟨hres', hw'⟩ := @serveRequest_of_refused p compare _ req _ _ hmiss
    exact iff_of_true ⟨hres.trans hres'.symm, ⟨hw.users.trans hw'.users.symm, hw.db.trans hw'.db.symm⟩⟩
      (.inl rfl)
  | false =>
    have hadmitted : ∀ hydrated, admitted none ⟨userId, u.toProfile, hydrated⟩ =
        .ok ⟨userId, u.toProfile, hydrated⟩ := by
      intro hydrated
      simp [admitted, authorize, hb]
    rw [hadmitted] at hhit hmiss
    obtain ⟨w₁, hw₁, hserve₁⟩ := @serveRequest_of_admitted p compare _ req _ _ hhit
    obtain ⟨w₂, hw₂, hserve₂⟩ := @serveRequest_of_admitted p compare _ req _ _ hmiss
    have hw : Unchanged w₂ w₁ := ⟨hw₁.users.trans hw₂.users.symm, hw₁.db.trans hw₂.db.symm⟩
    have hu₂ : w₂.users.get userId = some u := by
      rw [hw₂.users]
      exact hu
    have hstored : StoredOnly userId w₂ u.toProfile req ↔ StoredOnly userId w u.toProfile req := by
      cases req <;> simp only [StoredOnly, hw₂.db, miss, World.dropCachedUser]
    simp only [Bool.false_eq_true, false_or]
    rw [← hstored, ← @handler_agrees_iff p compare _ req _ _ _ hid hu₂ hw, ← hserve₁, ← hserve₂]

namespace Sample

def provider : Provider where
  decipher _ _ text := some text
  screen _          := some {}
  encrypt s         := s
  isDate _          := true

end Sample

theorem sample_transparent :
    Transparent Sample.provider (fun password hash => password = hash) "alice" .exporting
      Sample.registered := by
  apply (transparent_iff (by decide)).mpr
  intro u hu
  exact .inr trivial

-- With a copy in the cache, Alice is told that she has not logged in.
theorem status_unauthorized :
    ¬∀ (p : Provider) (compare : (password hash : String) → Bool) (userId : String) (req : Request)
      (w : World), userId ≠ "undefined" → Transparent p compare userId req w := by
  intro h
  have hres := (h Sample.provider (fun password hash => password = hash) "alice" .status
    Sample.registered (by decide) _ rfl).1
  have hok := congrArg Except.toBool hres
  revert hok
  decide +kernel

end Account
