import MallChain.Backend.Login

namespace Login

open Interleaving
open Settings (Security)

namespace World

variable (w : World)

-- The backup codes that were accepted, by their hashes.
def accepted : List String :=
  w.events.filterMap fun | .accepted hash => some hash | _ => none

end World

-- Each of the backup codes that the account had at first is accepted once at most, and those are left that
-- were not.
structure SingleUse (codes : List String) (w : World) : Prop where
  once : ∀ hash ∈ codes, w.accepted.count hash ≤ 1
  left : ∀ security ∈ w.settings, security.twoFactorEnabled = true →
    security.twoFactorBackupCodeHashes.getD [] = codes.filter (· ∉ w.accepted)

-- A login or a request to disable the second factor with a backup code finds the codes that it has read
-- when it saves.
def codesGuard : Label → World → Prop
  | .savingCodes read, w => ∃ security ∈ w.settings, security.twoFactorEnabled = true ∧
    security.twoFactorBackupCodeHashes = read.twoFactorBackupCodeHashes
  | _, _ => True

def codeSystem (crypto : Crypto) (codes : List String) :
    TransitionSystem (Pool Label World) (Action Request) :=
  system (fun w => codes.Nodup ∧ w.accepted = [] ∧
    ∀ security ∈ w.settings, security.twoFactorBackupCodeHashes = some codes) (Request.handler crypto)

structure Unused (codes : List String) (w : World) : Prop where
  distinct : codes.Nodup
  once     : w.accepted.Nodup
  left     : ∀ security ∈ w.settings, security.twoFactorEnabled = true →
    security.twoFactorBackupCodeHashes.getD [] = codes.filter (· ∉ w.accepted)

def codeContract (codes : List String) : Contract Label World ℕ where
  invariant w _ := Unused codes w
  grows _ _     := True
  guard         := codesGuard
  refl _        := trivial
  trans _ _     := trivial

-- The steps of all requests, as far as backup codes are concerned.
inductive CodeEffect (crypto : Crypto) : Label → (World → World) → Prop
  | plain {label : Label} {update : World → World} (settings : ∀ w, (update w).settings = w.settings)
    (accepted : ∀ w, (update w).accepted = w.accepted) : CodeEffect crypto label update
  | splice {read : Security} {otp hash : String}
    (found : (read.twoFactorBackupCodeHashes.getD []).find? (crypto.compare otp) = some hash) :
    CodeEffect crypto (.savingCodes read)
      (·.saveSettings ((Document.read read).modify (spliced crypto otp)) (some hash))
  | disable {label : Label} {read : Security} (enabled : read.twoFactorEnabled = true) :
    CodeEffect crypto label (·.saveSettings ((Document.read read).modify disabled) none)
  | disableWith {read : Security} {hash : String} (enabled : read.twoFactorEnabled = true)
    (mem : hash ∈ read.twoFactorBackupCodeHashes.getD []) :
    CodeEffect crypto (.savingCodes read)
      (·.saveSettings ((Document.read read).modify disabled) (some hash))

variable {crypto : Crypto} {codes : List String} {w : World} {label : Label} {update : World → World}
  {read stored : Security} {otp hash identifier password : String} {found : User → Bool}

section Codes

theorem accepted_saveSettings {d : Document Security} :
    (w.saveSettings d (some hash)).accepted = hash :: w.accepted :=
  rfl

-- The code that is found first is the one that is removed.
theorem eraseP_of_find? {p : String → Bool} : {l : List String} → l.Nodup → l.find? p = some hash →
    l.eraseP p = l.filter (· ≠ hash)
  | [], _, h => by cases h
  | a :: tl, hd, h => by
    obtain ⟨hnotin, hd⟩ := List.nodup_cons.mp hd
    rw [List.find?_cons] at h
    cases hp : p a with
    | true =>
      rw [hp] at h
      cases h
      rw [List.eraseP_cons_of_pos hp, List.filter_cons_of_neg (by simp)]
      refine (List.filter_eq_self.mpr fun b hb => decide_eq_true ?_).symm
      rintro rfl
      exact hnotin hb
    | false =>
      rw [hp] at h
      have hne : a ≠ hash := by
        rintro rfl
        have hfound := List.find?_some h
        rw [hp] at hfound
        cases hfound
      rw [List.eraseP_cons_of_neg (by simp [hp]), List.filter_cons_of_pos (by simpa using hne),
        eraseP_of_find? hd h]

theorem saveSecurity_disabled (h : read.twoFactorEnabled = true) :
    (saveSecurity ((Document.read read).modify disabled) stored).twoFactorEnabled = false := by
  have hne : (disabled read).twoFactorEnabled ≠ read.twoFactorEnabled := by
    rw [h]
    exact Bool.false_ne_true
  exact Document.written_current hne

theorem saveSecurity_spliced
    (h : stored.twoFactorBackupCodeHashes = read.twoFactorBackupCodeHashes) :
    (saveSecurity ((Document.read read).modify (spliced crypto otp)) stored).twoFactorBackupCodeHashes =
      some ((read.twoFactorBackupCodeHashes.getD []).eraseP (crypto.compare otp)) :=
  Document.written_of_eq h

namespace Unused

theorem congr {w' : World} (h : Unused codes w) (hsettings : w'.settings = w.settings)
    (haccepted : w'.accepted = w.accepted) : Unused codes w' where
  distinct := h.distinct
  once     := by rw [haccepted]; exact h.once
  left     := by rw [hsettings, haccepted]; exact h.left

theorem filter_nodup (h : Unused codes w) : (codes.filter (· ∉ w.accepted)).Nodup :=
  h.distinct.filter _

-- What is in the list that is left was not accepted.
theorem fresh (h : Unused codes w) (hg : codesGuard (.savingCodes read) w)
    (hmem : hash ∈ read.twoFactorBackupCodeHashes.getD []) : hash ∉ w.accepted := by
  obtain ⟨security, hget, henabled, hcodes⟩ := hg
  rw [← hcodes, h.left security hget henabled] at hmem
  simpa using (List.mem_filter.mp hmem).2

theorem disable {accepted : Option String} (h : Unused codes w) (henabled : read.twoFactorEnabled = true)
    (hfresh : ∀ hash ∈ accepted, hash ∉ w.accepted) :
    Unused codes (w.saveSettings ((Document.read read).modify disabled) accepted) where
  distinct := h.distinct
  once := by
    cases accepted with
    | none      => exact h.once
    | some hash => exact List.nodup_cons.mpr ⟨hfresh hash rfl, h.once⟩
  left := by
    intro security hget he
    obtain ⟨stored, _, heq⟩ := Option.map_eq_some_iff.mp hget
    rw [← heq, saveSecurity_disabled henabled] at he
    cases he

theorem splice (h : Unused codes w) (hg : codesGuard (.savingCodes read) w)
    (hfound : (read.twoFactorBackupCodeHashes.getD []).find? (crypto.compare otp) = some hash) :
    Unused codes (w.saveSettings ((Document.read read).modify (spliced crypto otp)) (some hash)) where
  distinct := h.distinct
  once := List.nodup_cons.mpr ⟨h.fresh hg (List.mem_of_find?_eq_some hfound), h.once⟩
  left := by
    intro security hget _
    obtain ⟨stored, hstored, heq⟩ := Option.map_eq_some_iff.mp hget
    obtain ⟨stored', hstored', henabled, hcodes⟩ := hg
    have hsame : stored' = stored := Option.some.inj (hstored'.symm.trans hstored)
    rw [hsame] at hcodes henabled
    have hleft := h.left stored hstored henabled
    rw [hcodes] at hleft
    rw [← heq, saveSecurity_spliced hcodes, Option.getD_some, eraseP_of_find? ?nodup hfound, hleft,
      List.filter_filter, accepted_saveSettings]
    case nodup =>
      rw [hleft]
      exact h.filter_nodup
    apply List.filter_congr
    intro code _
    simp [List.mem_cons, not_or]

end Unused

theorem CodeEffect.keeps (h : CodeEffect crypto label update) : (codeContract codes).Keeps label update := by
  intro w owned hg hI
  cases h with
  | plain hsettings haccepted => exact ⟨hI.congr (hsettings w) (haccepted w), trivial⟩
  | splice hfound => exact ⟨hI.splice hg hfound, trivial⟩
  | disable henabled => exact ⟨hI.disable henabled (by simp), trivial⟩
  | disableWith henabled hmem =>
    refine ⟨hI.disable henabled fun hash h => ?_, trivial⟩
    cases h
    exact hI.fresh hg hmem

end Codes

section Steps

theorem CodeEffect.look : CodeEffect crypto label id :=
  .plain (fun _ => rfl) fun _ => rfl

theorem checkAccountLock_steps : (checkAccountLock identifier found).Steps (CodeEffect crypto) := by
  apply Prog.Steps.act_bind
  case h =>
    refine .plain (fun w => ?_) fun w => ?_
    all_goals
      rw [World.enter]
      split_ifs <;> rfl
  case hf =>
    intro w
    exact .ite (fun _ => Prog.Steps.act_bind .look fun _ => trivial) fun _ => trivial

theorem recordFailedLogin_steps {evaluated : Bool} :
    (recordFailedLogin identifier evaluated).Steps (CodeEffect crypto) := by
  apply Prog.Steps.act_bind (.plain (fun _ => rfl) fun _ => rfl)
  intro w
  refine .ite (fun _ => .write (.plain (fun w => ?_) fun w => ?_)) fun _ => trivial
  all_goals
    rw [World.expire]
    split <;> rfl

theorem verdict_backup {settings : Option Security} {now : ℕ}
    (h : verdict crypto settings otp now = .backup read hash) :
    settings.filter (·.twoFactorEnabled) = some read ∧
      (read.twoFactorBackupCodeHashes.getD []).find? (crypto.compare otp) = some hash := by
  rw [verdict] at h
  split at h
  case h_1 => cases h
  case h_2 security hget =>
    split_ifs at h
    split at h
    case h_1 => cases h
    case h_2 => cases h
    case h_3 =>
      split at h
      case h_2 => cases h
      case h_1 hfound =>
        cases h
        exact ⟨hget, hfound⟩

theorem checkTwoFactor_steps : (checkTwoFactor crypto otp).Steps (CodeEffect crypto) := by
  apply Prog.Steps.act_bind
  case h =>
    refine .plain (fun w => ?_) fun w => ?_
    all_goals cases verdict crypto w.settings otp w.now <;> rfl
  case hf =>
    intro w
    cases hv : verdict crypto w.settings otp w.now with
    | backup read hash => exact Prog.Steps.act_bind (.splice (verdict_backup hv).2) fun _ => trivial
    | _ => trivial

theorem secondFactor_steps : (secondFactor crypto identifier otp).Steps (CodeEffect crypto) := by
  apply checkTwoFactor_steps.bind
  intro result
  have hclear : (do clearFailedLogins identifier; return Response.loggedIn : Handler Response).Steps
      (CodeEffect crypto) :=
    Prog.Steps.act_bind (.plain (fun _ => rfl) fun _ => rfl) fun _ => trivial
  cases result with
  | passed     => exact hclear
  | backup _ _ => exact hclear
  | _          => trivial

theorem loginWith_steps :
    (loginWith crypto found identifier password otp).Steps (CodeEffect crypto) := by
  refine .ite (fun _ => trivial) fun _ => ?_
  apply checkAccountLock_steps.bind
  intro locked
  cases locked with
  | some _ => trivial
  | none =>
    apply Prog.Steps.act_bind
    case h =>
      refine .plain (fun w => ?_) fun w => ?_
      all_goals cases credentials crypto found password w.user <;> rfl
    case hf =>
      intro w
      cases credentials crypto found password w.user with
      | unknown => exact recordFailedLogin_steps.bind fun _ => trivial
      | oauth   => trivial
      | invalid => exact recordFailedLogin_steps.bind fun _ => trivial
      | valid   => exact secondFactor_steps

theorem disable_steps {code : String} : (disable crypto code).Steps (CodeEffect crypto) := by
  apply Prog.Steps.act_bind .look
  intro w
  dsimp only
  split
  case h_1 => trivial
  case h_2 security hget =>
    have henabled := (Option.filter_eq_some_iff.mp hget).2
    cases hv : verdict crypto w.settings code w.now with
    | passed => exact .write (.disable henabled)
    | backup read hash =>
      obtain ⟨hread, hfound⟩ := verdict_backup hv
      rw [hget] at hread
      cases hread
      exact .write (.disableWith henabled (List.mem_of_find?_eq_some hfound))
    | _ => trivial

theorem handler_steps (request : Request) : (request.handler crypto).Steps (CodeEffect crypto) := by
  cases request with
  | login email password otp => exact loginWith_steps.bind fun _ => trivial
  | loginUsername username password otp => exact loginWith_steps.bind fun _ => trivial
  | disable code => exact disable_steps
  | tick duration => exact .write (.plain (fun _ => rfl) fun _ => rfl)

end Steps

instance decidableCodesGuard : (label : Label) → (w : World) → Decidable (codesGuard label w)
  | .savingCodes read, w => decidable_of_iff (w.settings.any fun security =>
      security.twoFactorEnabled && security.twoFactorBackupCodeHashes = read.twoFactorBackupCodeHashes) (by
    simp [codesGuard, Option.any_eq_true])
  | .step, _ | .checking _, _ | .counting _, _ | .expiring _, _ | .verifying _, _ => .isTrue trivial

namespace Sample

def backupCodes : List String :=
  ["A1", "B2", "C3"]

def enrolled : World where
  user     := { email := "alice@mall", username := some "alice", password := some "password" }
  settings := some { twoFactorEnabled := true, twoFactorBackupCodeHashes := some backupCodes }

def logins (actions : List (Action Request)) : Pool Label World :=
  Pool.execs (Request.handler plain) { store := enrolled, running := [] } actions

-- One code after another.
def codesInTurn : List (Action Request) :=
  inTurn 5 [.login "alice@mall" "password" "B2", .loginUsername "alice" "password" "B2",
    .login "alice@mall" "password" "A1"]

-- Two logins with the same code.
def codeTwice : List (Action Request) :=
  [.start (.login "alice@mall" "password" "B2"), .start (.login "alice@mall" "password" "B2")] ++
    List.replicate 3 (.run 0) ++ List.replicate 5 (.run 1) ++ [.run 0, .run 0]

end Sample

theorem Sample.enrolled_init : backupCodes.Nodup ∧ enrolled.accepted = [] ∧
    ∀ security ∈ enrolled.settings, security.twoFactorBackupCodeHashes = some backupCodes :=
  ⟨by decide, rfl, by simp [enrolled]⟩

end Login
