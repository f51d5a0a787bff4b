import MallChain.Lib.Transition

namespace Settings

structure Security where
  twoFactorEnabled          : Bool := false
  twoFactorPendingSecret    : Option String := none
  twoFactorSecret           : Option String := none
  twoFactorBackupCodeHashes : Option (List String) := none
  sessionTimeout            : ℚ := 120
  loginNotifications        : Bool := true
  deviceManagement          : Bool := true
  trustedDevices            : List String := []
  deriving DecidableEq, Repr

-- The document of a user, if there is one, and the secrets of which a code was verified.
structure State where
  settings : Option Security := none
  verified : List String := []
  deriving DecidableEq, Repr

-- What a document that is not there is created with.
def State.security (s : State) : Security :=
  s.settings.getD {}

-- `verifyToken` throws an error if there is a token to verify and no secret. A backup code is compared
-- without blanks around it and in upper case.
structure Crypto where
  verifyToken : (base32Secret : Option String) → (token : String) → (now : ℤ) → Option Bool
  compare     : (code hash : String) → Bool

-- The fields of the security section that a client names.
structure SecurityBody where
  twoFactorEnabled          : Option Bool := none
  twoFactorPendingSecret    : Option (Option String) := none
  twoFactorSecret           : Option (Option String) := none
  twoFactorBackupCodeHashes : Option (Option (List String)) := none
  sessionTimeout            : Option ℚ := none
  loginNotifications        : Option Bool := none
  deviceManagement          : Option Bool := none
  trustedDevices            : Option (List String) := none
  deriving DecidableEq, Repr

namespace SecurityBody

variable (body : SecurityBody)

-- `Object.assign(settings.security, body)`
def assign (security : Security) : Security where
  twoFactorEnabled          := body.twoFactorEnabled.getD security.twoFactorEnabled
  twoFactorPendingSecret    := body.twoFactorPendingSecret.getD security.twoFactorPendingSecret
  twoFactorSecret           := body.twoFactorSecret.getD security.twoFactorSecret
  twoFactorBackupCodeHashes := body.twoFactorBackupCodeHashes.getD security.twoFactorBackupCodeHashes
  sessionTimeout            := body.sessionTimeout.getD security.sessionTimeout
  loginNotifications        := body.loginNotifications.getD security.loginNotifications
  deviceManagement          := body.deviceManagement.getD security.deviceManagement
  trustedDevices            := body.trustedDevices.getD security.trustedDevices

-- `allowedFields` of `PUT /security`
def allowed : SecurityBody where
  twoFactorEnabled   := body.twoFactorEnabled
  sessionTimeout     := body.sessionTimeout
  loginNotifications := body.loginNotifications
  deviceManagement   := body.deviceManagement

end SecurityBody

-- The requests of a session, with what is generated for them, and the logins of the user. An import
-- without a security section is refused.
inductive Request
  | get
  | update (security : Option SecurityBody)
  | security (body : SecurityBody)
  | reset
  | importSettings (security : Option SecurityBody)
  | setup (secret : String)
  | enable (code : String) (now : ℤ) (backupCodeHashes : List String)
  | disable (code : String) (now : ℤ)
  | checkTwoFactor (otp : String) (now : ℤ)
  deriving DecidableEq, Repr

variable (crypto : Crypto) (s : State)

def matchesBackup (security : Security) (code : String) : Bool :=
  (security.twoFactorBackupCodeHashes.getD []).any (crypto.compare code)

-- `POST /security/2fa/enable`
def enable (code : String) (now : ℤ) (backupCodeHashes : List String) : State :=
  match s.settings with
  | none          => s
  | some security =>
    match security.twoFactorPendingSecret.filter (· ≠ "") with
    | none               => s
    | some pendingSecret =>
      if crypto.verifyToken (some pendingSecret) code now = some true then {
        settings := some { security with
          twoFactorSecret           := some pendingSecret
          twoFactorPendingSecret    := none
          twoFactorBackupCodeHashes := some backupCodeHashes
          twoFactorEnabled          := true
        }
        verified := pendingSecret :: s.verified
      }
      else s

-- `POST /security/2fa/disable`
def disable (code : String) (now : ℤ) : State :=
  match s.settings with
  | none          => s
  | some security =>
    if !security.twoFactorEnabled ∨ code = "" then s
    else
      match crypto.verifyToken security.twoFactorSecret code now with
      | none           => s
      | some validTotp =>
        if validTotp ∨ matchesBackup crypto security code then { s with
          settings := some { security with
            twoFactorEnabled          := false
            twoFactorSecret           := none
            twoFactorBackupCodeHashes := none
          }
        }
        else s

-- `checkTwoFactor` of a login. A backup code is used once.
def checkTwoFactor (otp : String) (now : ℤ) : State :=
  match s.settings with
  | none          => s
  | some security =>
    if !security.twoFactorEnabled ∨ otp = "" then s
    else if crypto.verifyToken security.twoFactorSecret otp now = some false ∧
        matchesBackup crypto security otp then { s with
      settings := some { security with
        twoFactorBackupCodeHashes := some
          ((security.twoFactorBackupCodeHashes.getD []).eraseP (crypto.compare otp))
      }
    }
    else s

def handle : Request → State
  | .get                              => { s with settings := some s.security }
  | .update body                      =>
    { s with settings := some (body.elim s.security (·.assign s.security)) }
  | .security body                    => { s with settings := some (body.allowed.assign s.security) }
  | .reset                            => { s with settings := some {} }
  | .importSettings none              => s
  | .importSettings (some body)       => { s with settings := some (body.assign {}) }
  | .setup secret                     =>
    { s with settings := some { s.security with twoFactorPendingSecret := some secret } }
  | .enable code now backupCodeHashes => enable crypto s code now backupCodeHashes
  | .disable code now                 => disable crypto s code now
  | .checkTwoFactor otp now           => checkTwoFactor crypto s otp now

def settingsSystem : TransitionSystem State Request where
  init s      := s = {}
  step s r s' := s' = handle crypto s r

-- A code of the enrolled secret, or a backup code.
def validCode (code : String) (now : ℤ) : Bool :=
  code ≠ "" ∧ (crypto.verifyToken s.security.twoFactorSecret code now = some true ∨
    matchesBackup crypto s.security code)

def presents : Request → Bool
  | .enable code now _ | .disable code now | .checkTwoFactor code now => validCode crypto s code now
  | _ => false

-- The body leaves the second factor as it is.
def SecurityBody.leaves (body : SecurityBody) (security : Security) : Bool :=
  body.twoFactorEnabled.all (· = security.twoFactorEnabled) ∧ (security.twoFactorEnabled →
    body.twoFactorSecret.all (· = security.twoFactorSecret) ∧
      body.twoFactorBackupCodeHashes.all (· = security.twoFactorBackupCodeHashes))

-- The body has the second factor as it is.
def SecurityBody.restores (body : SecurityBody) (security : Security) : Bool :=
  body.twoFactorEnabled.getD false = security.twoFactorEnabled ∧ (security.twoFactorEnabled →
    body.twoFactorSecret.getD none = security.twoFactorSecret ∧
      body.twoFactorBackupCodeHashes.getD none = security.twoFactorBackupCodeHashes)

-- No request but the one to disable it changes an enabled second factor, and none but the one to enable
-- it turns it on.
def settingsGuard : Request → Prop
  | .update body         => body.all (·.leaves s.security)
  | .security body       => body.allowed.leaves s.security
  | .reset               => s.security.twoFactorEnabled = false
  | .importSettings body => body.all (·.restores s.security)
  | .enable code now _   => s.security.twoFactorEnabled = true →
    crypto.verifyToken s.security.twoFactorPendingSecret code now ≠ some true
  | _                    => True

-- The second factor is as it was before.
structure Kept (security security' : Security) : Prop where
  enabled : security'.twoFactorEnabled = security.twoFactorEnabled
  secret  : security.twoFactorEnabled = true → security'.twoFactorSecret = security.twoFactorSecret
  codes   : security.twoFactorEnabled = true →
    security'.twoFactorBackupCodeHashes = security.twoFactorBackupCodeHashes

-- What a request does to the second factor.
inductive Outcome (r : Request) (s' : State) : Prop
  | kept (security : Kept s.security s'.security) (verified : s'.verified = s.verified)
  | enrolled (secret : String) (disabled : s.security.twoFactorEnabled = false)
    (stored : s'.security.twoFactorSecret = some secret) (verified : s'.verified = secret :: s.verified)
  | presented (code : presents crypto s r = true) (verified : s'.verified = s.verified)
    (security : s'.security.twoFactorEnabled = false ∨
      s'.security.twoFactorSecret = s.security.twoFactorSecret ∧ s.security.twoFactorEnabled = true)

variable {crypto s} {s' : State} {r : Request} {body : SecurityBody} {security : Security}

theorem Kept.refl (security : Security) : Kept security security :=
  ⟨rfl, fun _ => rfl, fun _ => rfl⟩

theorem Kept.of_leaves (h : body.leaves security = true) : Kept security (body.assign security) := by
  simp only [SecurityBody.leaves, Bool.decide_and, Bool.and_eq_true, decide_eq_true_eq] at h
  obtain ⟨henabled, hrest⟩ := h
  refine ⟨?_, fun he => ?_, fun he => ?_⟩
  case refine_1 =>
    cases hb : body.twoFactorEnabled <;> simp_all [SecurityBody.assign]
  case refine_2 =>
    have hsecret := (hrest he).1
    cases hb : body.twoFactorSecret <;> simp_all [SecurityBody.assign]
  case refine_3 =>
    have hcodes := (hrest he).2
    cases hb : body.twoFactorBackupCodeHashes <;> simp_all [SecurityBody.assign]

theorem Kept.of_restores (h : body.restores security = true) : Kept security (body.assign {}) := by
  simp only [SecurityBody.restores, Bool.decide_and, Bool.and_eq_true, decide_eq_true_eq] at h
  obtain ⟨henabled, hrest⟩ := h
  exact ⟨henabled, fun he => (hrest he).1, fun he => (hrest he).2⟩

theorem Outcome.refl : Outcome crypto s r s :=
  .kept (.refl _) rfl

theorem enable_outcome {code : String} {now : ℤ} {codes : List String}
    (hg : settingsGuard crypto s (.enable code now codes)) :
    Outcome crypto s (.enable code now codes) (enable crypto s code now codes) := by
  rw [enable]
  cases hs : s.settings with
  | none          => exact .refl
  | some security =>
    have hsec : s.security = security := by rw [State.security, hs, Option.getD_some]
    dsimp only
    cases hp : security.twoFactorPendingSecret.filter (· ≠ "") with
    | none               => exact .refl
    | some pendingSecret =>
      have hpending := (Option.filter_eq_some_iff.mp hp).1
      dsimp only
      split_ifs with hcode
      case neg => exact .refl
      case pos =>
        refine .enrolled pendingSecret ?_ rfl rfl
        rw [settingsGuard, hsec, hpending] at hg
        rw [hsec]
        by_contra he
        exact hg (by simpa using he) hcode

theorem disable_outcome {code : String} {now : ℤ} :
    Outcome crypto s (.disable code now) (disable crypto s code now) := by
  rw [disable]
  cases hs : s.settings with
  | none          => exact .refl
  | some security =>
    have hsec : s.security = security := by rw [State.security, hs, Option.getD_some]
    dsimp only
    split_ifs with hcode
    case pos => exact .refl
    case neg =>
      cases hv : crypto.verifyToken security.twoFactorSecret code now with
      | none           => exact .refl
      | some validTotp =>
        dsimp only
        split_ifs with hvalid
        case neg => exact .refl
        case pos =>
          refine .presented ?_ rfl (.inl rfl)
          have hne : code ≠ "" := (not_or.mp hcode).2
          simpa [presents, validCode, hsec, hv, hne] using hvalid

theorem checkTwoFactor_outcome {otp : String} {now : ℤ} :
    Outcome crypto s (.checkTwoFactor otp now) (checkTwoFactor crypto s otp now) := by
  rw [checkTwoFactor]
  cases hs : s.settings with
  | none          => exact .refl
  | some security =>
    have hsec : s.security = security := by rw [State.security, hs, Option.getD_some]
    dsimp only
    split_ifs with hotp hvalid
    case pos => exact .refl
    case neg => exact .refl
    case pos =>
      obtain ⟨henabled, hne⟩ := not_or.mp hotp
      refine .presented ?_ rfl (.inr ⟨?_, ?_⟩)
      case refine_1 => simp [presents, validCode, hsec, hne, hvalid.2]
      case refine_2 =>
        rw [hsec]
        rfl
      case refine_3 => simpa [hsec] using henabled

theorem handle_outcome (hg : settingsGuard crypto s r) : Outcome crypto s r (handle crypto s r) := by
  cases r with
  | get => exact .kept (.refl _) rfl
  | update body =>
    cases body with
    | none      => exact .kept (.refl _) rfl
    | some body => exact .kept (.of_leaves hg) rfl
  | security body => exact .kept (.of_leaves hg) rfl
  | reset =>
    have he : s.security.twoFactorEnabled = false := hg
    refine .kept ⟨he.symm, fun h => ?_, fun h => ?_⟩ rfl
    case refine_1 => simp [he] at h
    case refine_2 => simp [he] at h
  | importSettings body =>
    cases body with
    | none      => exact .refl
    | some body => exact .kept (.of_restores hg) rfl
  | setup secret => exact .kept ⟨rfl, fun _ => rfl, fun _ => rfl⟩ rfl
  | enable code now codes  => exact enable_outcome hg
  | disable code now       => exact disable_outcome
  | checkTwoFactor otp now => exact checkTwoFactor_outcome

-- An enabled second factor has a secret that was verified by a code.
def Enrolled (s : State) : Prop :=
  s.security.twoFactorEnabled = true → ∃ secret ∈ s.verified, s.security.twoFactorSecret = some secret

theorem Enrolled.step (h : Enrolled s) (ho : Outcome crypto s r s') : Enrolled s' := by
  intro he
  cases ho with
  | kept security verified =>
    have he' := security.enabled ▸ he
    rw [verified, security.secret he']
    exact h he'
  | enrolled secret disabled stored verified =>
    rw [verified]
    exact ⟨secret, List.mem_cons_self, stored⟩
  | presented code verified security =>
    cases security with
    | inl hd => simp [hd] at he
    | inr hs =>
      rw [verified, hs.1]
      exact h hs.2

theorem enrolled_invariant : (settingsSystem crypto).Invariant (settingsGuard crypto) Enrolled where
  init hi := by
    subst hi
    intro he
    cases he
  step h hg hs := by
    subst hs
    exact h.step (handle_outcome hg)

-- A session that knows neither a code of the enrolled secret nor a backup code.
def Session (crypto : Crypto) (s : State) (r : Request) : Prop :=
  settingsGuard crypto s r ∧ presents crypto s r = false

theorem kept_invariant (s₀ : State) (he : s₀.security.twoFactorEnabled = true) :
    ((settingsSystem crypto).startingAt s₀).Invariant (Session crypto)
      fun s => Kept s₀.security s.security where
  init hi := by
    rw [hi]
    exact .refl _
  step {s r s'} h hg hs := by
    have he' := h.enabled.trans he
    subst hs
    cases handle_outcome hg.1 with
    | kept security verified =>
      exact ⟨security.enabled.trans h.enabled, fun _ => (security.secret he').trans (h.secret he),
        fun _ => (security.codes he').trans (h.codes he)⟩
    | enrolled secret disabled stored verified => simp [disabled] at he'
    | presented code verified security =>
      rw [hg.2] at code
      cases code

namespace Sample

def secret : String := "GEZDGNBVGY3TQOJQGEZDGNBVGY3TQOJQ"

-- One code of one secret.
def authenticator : Crypto where
  verifyToken base32Secret token _ := some (base32Secret = some secret ∧ token = "287082")
  compare _ _                      := false

def enrolled : State :=
  handle authenticator (handle authenticator {} (.setup secret)) (.enable "287082" 59 [])

theorem enrolled_run : (settingsSystem authenticator).Run (settingsGuard authenticator) enrolled := by
  refine .step (a := .enable "287082" 59 [])
    (.step (a := .setup secret) (.init rfl) trivial rfl) ?_ rfl
  intro he
  cases he

end Sample

-- An enabled second factor has a secret that was verified, and a session without a code cannot change it.
theorem second_factor_kept (crypto : Crypto) (s₀ s : State)
    (h₀ : (settingsSystem crypto).Run (settingsGuard crypto) s₀)
    (h : ((settingsSystem crypto).startingAt s₀).Run (Session crypto) s) :
    (s₀.security.twoFactorEnabled = true →
        ∃ secret ∈ s₀.verified, s₀.security.twoFactorSecret = some secret) ∧
      (s₀.security.twoFactorEnabled = true → s.security.twoFactorEnabled = true ∧
        s.security.twoFactorSecret = s₀.security.twoFactorSecret ∧
        s.security.twoFactorBackupCodeHashes = s₀.security.twoFactorBackupCodeHashes) := by
  refine ⟨enrolled_invariant.holds h₀, fun he => ?_⟩
  have hk := (kept_invariant s₀ he).holds h
  exact ⟨hk.enabled.trans he, hk.secret he, hk.codes he⟩

theorem sample_second_factor_kept :
    (Sample.enrolled.security.twoFactorEnabled = true →
        ∃ secret ∈ Sample.enrolled.verified, Sample.enrolled.security.twoFactorSecret = some secret) ∧
      (Sample.enrolled.security.twoFactorEnabled = true →
        (handle Sample.authenticator Sample.enrolled (.setup "other")).security.twoFactorEnabled = true ∧
        (handle Sample.authenticator Sample.enrolled (.setup "other")).security.twoFactorSecret =
          Sample.enrolled.security.twoFactorSecret ∧
        (handle Sample.authenticator Sample.enrolled (.setup "other")).security.twoFactorBackupCodeHashes =
          Sample.enrolled.security.twoFactorBackupCodeHashes) :=
  second_factor_kept Sample.authenticator _ _ Sample.enrolled_run
    (.step (a := .setup "other") (.init rfl) ⟨trivial, rfl⟩ rfl)

-- The route for the security settings turns the second factor off without a code.
theorem session_disables :
    ¬∀ (crypto : Crypto) (s₀ s : State), (settingsSystem crypto).Reachable s₀ →
      ((settingsSystem crypto).startingAt s₀).Run (fun s r => presents crypto s r = false) s →
      s₀.security.twoFactorEnabled = true → s.security.twoFactorEnabled = true := by
  intro h
  have he := h Sample.authenticator Sample.enrolled
    (handle Sample.authenticator Sample.enrolled (.security { twoFactorEnabled := some false }))
    Sample.enrolled_run.reachable
    (.step (a := .security { twoFactorEnabled := some false }) (.init rfl) rfl rfl) (by decide +kernel)
  cases he

end Settings
