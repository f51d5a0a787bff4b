import MallChain.Lib.Binary64
import MallChain.Lib.Interleaving
import MallChain.Lib.KVStore

namespace Referrals

open Interleaving

structure User where
  mlptsBalance     : ℚ := 0
  referralCode     : Option String := none
  referredBy       : Option String := none
  referralEarnings : ℤ := 0
  referralCount    : ℕ := 0
  referralClaimed  : ℤ := 0
  deriving DecidableEq, Repr

-- The users, and what was credited by claims, the latest first.
structure World where
  users        : KVStore String User := .empty
  transactions : List (String × ℤ) := []

namespace World

variable (w : World)

def updateUser (id : String) (f : User → User) : World :=
  match w.users.get id with
  | some user => { w with users := w.users.set id (f user) }
  | none      => w

-- What the claims of a user have credited.
def credited (id : String) : ℤ :=
  (w.transactions.map fun t => if t.1 = id then t.2 else 0).sum

end World

-- A claim is committed with the earnings and the part of them that were claimed when it has read them.
inductive Label
  | read
  | write
  | claiming (user : String) (referralEarnings referralClaimed : ℤ)

abbrev Handler := Prog Label World

def referralSignupBonus : ℤ := 10

def referralCodeOf (id : String) : String :=
  ("MALL-" ++ String.ofList (id.toList.drop (id.length - 8))).toUpper

def findByCode (code : String) (w : World) : Option String :=
  (w.users.entries.find? (·.2.referralCode = some code)).map (·.1)

-- The code that comes with a sign-up is without blanks around it and in upper case.
def assignReferralCode (id : String) (referralCodeInput : Option String) : Handler Unit := do
  let referrer ← .read .read fun w => referralCodeInput.bind (findByCode · w)
  let code := referralCodeOf id
  -- The index of the codes is unique.
  let saved ← .act .write (fun w =>
    if (findByCode code w).isNone then
      w.updateUser id fun user => { user with referredBy := referrer, referralCode := some code }
    else w) fun w => (findByCode code w).isNone
  if !saved then return
  match referrer with
  | none          => return
  | some referrer =>
    .write .write (·.updateUser referrer fun user => { user with
      referralCount    := user.referralCount + 1
      referralEarnings := user.referralEarnings + referralSignupBonus
    })

-- `register`: the id is a new one.
def register (id : String) (referralCode : Option String) : Handler Unit := do
  let isNew ← .act .write (fun w =>
    if (w.users.get id).isNone then { w with users := w.users.set id {} } else w)
    fun w => (w.users.get id).isNone
  if isNew then assignReferralCode id referralCode

-- The transaction of a claim. Its callback writes the same when it is run again.
def commitClaim (id : String) (user : User) (unclaimed : ℤ) (w : World) : World :=
  let w := w.updateUser id fun stored => { stored with
    referralClaimed := user.referralEarnings
    mlptsBalance    := Binary64.add stored.mlptsBalance unclaimed
  }
  { w with transactions := (id, unclaimed) :: w.transactions }

-- `POST /claim`
def claim (id : String) (commits : Bool) : Handler Unit := do
  let some user ← .read .read (·.users.get id) | return
  let unclaimed := user.referralEarnings - user.referralClaimed
  if unclaimed ≤ 0 then return
  if commits then
    .write (.claiming id user.referralEarnings user.referralClaimed) (commitClaim id user unclaimed)

inductive Request
  | register (id : String) (referralCode : Option String)
  | claim (id : String) (commits : Bool)
  deriving DecidableEq, Repr

def Request.handler : Request → Handler Unit
  | .register id referralCode => Referrals.register id referralCode
  | .claim id commits         => Referrals.claim id commits

def referralSystem : TransitionSystem (Pool Label World) (Action Request) :=
  system (fun w => w.users = .empty ∧ w.transactions = []) Request.handler

-- A claim finds as much claimed as it has read.
def claimGuard : Label → World → Prop
  | .claiming id _ referralClaimed, w => ∀ user, w.users.get id = some user →
    user.referralClaimed = referralClaimed
  | _, _ => True

structure Settled (w : World) : Prop where
  unknown : ∀ {id}, w.users.get id = none → w.credited id = 0
  claimed : ∀ {id user}, w.users.get id = some user →
    user.referralClaimed = w.credited id ∧ user.referralClaimed ≤ user.referralEarnings

-- Users stay, and their earnings do not shrink.
def Earns (w w' : World) : Prop :=
  ∀ {id user}, w.users.get id = some user → ∃ user', w'.users.get id = some user' ∧
    user.referralEarnings ≤ user'.referralEarnings

def claimContract : Contract Label World Unit where
  invariant w _ := Settled w
  grows         := Earns
  guard         := claimGuard
  refl _        := fun h => ⟨_, h, le_rfl⟩
  trans h h'    := by
    intro id user hu
    obtain ⟨user₁, hu₁, hle₁⟩ := h hu
    obtain ⟨user₂, hu₂, hle₂⟩ := h' hu₁
    exact ⟨user₂, hu₂, hle₁.trans hle₂⟩

variable {w w' : World} {id : String} {user : User} {f : User → User}

theorem get_updateUser (id' : String) : (w.updateUser id f).users.get id' =
    if id' = id then (w.users.get id).map f else w.users.get id' := by
  rw [World.updateUser]
  cases hu : w.users.get id with
  | none =>
    split_ifs with heq
    case pos => rw [heq, hu, Option.map_none]
    case neg => rfl
  | some user =>
    rw [KVStore.get_set]
    rfl

theorem credited_updateUser (id' : String) :
    (w.updateUser id f).credited id' = w.credited id' := by
  rw [World.updateUser]
  split <;> rfl

-- An update that leaves what is claimed.
theorem Settled.updateUser (h : Settled w) (hc : ∀ user, (f user).referralClaimed = user.referralClaimed)
    (he : ∀ user, user.referralEarnings ≤ (f user).referralEarnings) :
    Settled (w.updateUser id f) ∧ Earns w (w.updateUser id f) := by
  refine ⟨⟨?_, ?_⟩, ?_⟩
  case refine_1 =>
    intro id' hn
    rw [credited_updateUser]
    rw [get_updateUser] at hn
    split_ifs at hn with heq
    case pos => exact h.unknown (heq ▸ Option.map_eq_none_iff.mp hn)
    case neg => exact h.unknown hn
  case refine_2 =>
    intro id' user' hu
    rw [credited_updateUser]
    rw [get_updateUser] at hu
    split_ifs at hu with heq
    case neg => exact h.claimed hu
    case pos =>
      obtain ⟨user, hs, hf⟩ := Option.map_eq_some_iff.mp hu
      obtain ⟨hcl, hle⟩ := h.claimed hs
      rw [← hf, hc, heq]
      exact ⟨hcl, hle.trans (he user)⟩
  case refine_3 =>
    intro id' user' hu
    rw [get_updateUser]
    split_ifs with heq
    case neg => exact ⟨user', hu, le_rfl⟩
    case pos =>
      rw [← heq, hu]
      exact ⟨f user', rfl, he user'⟩

theorem Settled.insert (h : Settled w) (hn : w.users.get id = none) :
    Settled { w with users := w.users.set id {} } ∧ Earns w { w with users := w.users.set id {} } := by
  refine ⟨⟨?_, ?_⟩, ?_⟩
  case refine_1 =>
    intro id' hn'
    rw [KVStore.get_set] at hn'
    split_ifs at hn' with heq
    exact h.unknown hn'
  case refine_2 =>
    intro id' user hu
    rw [KVStore.get_set] at hu
    split_ifs at hu with heq
    case neg => exact h.claimed hu
    case pos =>
      cases hu
      subst heq
      exact ⟨(h.unknown hn).symm, le_rfl⟩
  case refine_3 =>
    intro id' user hu
    have hne : id' ≠ id := by
      intro heq
      rw [heq, hn] at hu
      cases hu
    exact ⟨user, (KVStore.get_set_ne hne).trans hu, le_rfl⟩

-- A step of a sign-up.
def Keeps (_ : Label) (update : World → World) : Prop :=
  ∀ w, Settled w → Settled (update w) ∧ Earns w (update w)

theorem Settled.keeps (h : Settled w) : Settled w ∧ Earns w w :=
  ⟨h, fun hu => ⟨_, hu, le_rfl⟩⟩

theorem assignReferralCode_steps {referralCodeInput : Option String} :
    (assignReferralCode id referralCodeInput).Steps Keeps := by
  refine .bind (.read fun _ h => h.keeps) fun referrer => ?_
  refine .bind (.act ?save) fun saved => ?_
  case save =>
    intro w h
    dsimp only
    split_ifs
    case pos => exact h.updateUser (fun _ => rfl) fun _ => le_rfl
    case neg => exact h.keeps
  refine .ite (fun _ => trivial) fun _ => ?_
  split
  case h_1 => trivial
  case h_2 referrer =>
    refine .write fun w h => h.updateUser ?_ ?_
    case refine_1 =>
      intro user
      rfl
    case refine_2 =>
      intro user
      exact Int.le_add_of_nonneg_right (by decide)

theorem register_handles {referralCode : Option String} :
    claimContract.Handles (register id referralCode) w () := by
  apply Contract.Handles.of_steps (P := Keeps)
  case hp =>
    refine .bind (.act ?_) fun isNew => .ite (fun _ => assignReferralCode_steps) fun _ => trivial
    intro w h
    dsimp only
    split_ifs with hn
    case pos => exact h.insert (Option.isNone_iff_eq_none.mp hn)
    case neg => exact h.keeps
  case h =>
    intro label update w own hk _ h
    exact hk w h

-- What was claimed before and what is claimed now add up to the earnings that were read.
theorem Settled.claim (h : Settled w) {read : User} (hs : w.users.get id = some user)
    (hg : user.referralClaimed = read.referralClaimed)
    (hle : read.referralEarnings ≤ user.referralEarnings) :
    Settled (commitClaim id read (read.referralEarnings - read.referralClaimed) w) ∧
      Earns w (commitClaim id read (read.referralEarnings - read.referralClaimed) w) := by
  generalize hw : commitClaim id read (read.referralEarnings - read.referralClaimed) w = w'
  have husers : ∀ id', w'.users.get id' = if id' = id then some { user with
      referralClaimed := read.referralEarnings
      mlptsBalance    := Binary64.add user.mlptsBalance
        ((read.referralEarnings - read.referralClaimed : ℤ) : ℚ) } else w.users.get id' := by
    intro id'
    rw [← hw, commitClaim]
    dsimp only
    rw [get_updateUser, hs]
    rfl
  have hcredited : ∀ id', w'.credited id' =
      w.credited id' + if id = id' then read.referralEarnings - read.referralClaimed else 0 := by
    intro id'
    rw [← hw, commitClaim, World.credited, List.map_cons, List.sum_cons, add_comm]
    exact congrArg (· + _) (credited_updateUser id')
  obtain ⟨hclaimed, _⟩ := h.claimed hs
  refine ⟨⟨?_, ?_⟩, ?_⟩
  case refine_1 =>
    intro id' hn
    rw [husers] at hn
    split_ifs at hn with heq
    rw [hcredited, if_neg (Ne.symm heq), add_zero]
    exact h.unknown hn
  case refine_2 =>
    intro id' user' hu
    rw [husers] at hu
    rw [hcredited]
    split_ifs at hu with heq
    case neg =>
      rw [if_neg (Ne.symm heq), add_zero]
      exact h.claimed hu
    case pos =>
      cases hu
      subst heq
      rw [if_pos rfl]
      refine ⟨?_, hle⟩
      dsimp only
      omega
  case refine_3 =>
    intro id' user' hu
    rw [husers]
    split_ifs with heq
    case neg => exact ⟨user', hu, le_rfl⟩
    case pos =>
      subst heq
      cases hs.symm.trans hu
      exact ⟨_, rfl, le_rfl⟩

theorem claim_handles {commits : Bool} : claimContract.Handles (claim id commits) w () := by
  apply Contract.Safe.read
  intro w₁ _ _
  cases hu : w₁.users.get id with
  | none => exact Contract.Handles.done
  | some read =>
    apply Contract.Safe.ite
    case hp =>
      intro _
      exact Contract.Handles.done
    case hq =>
      intro _
      apply Contract.Safe.ite
      case hq =>
        intro _
        exact Contract.Handles.done
      case hp =>
        intro _
        apply Contract.Handles.write
        intro w₂ hearns hg _ h
        obtain ⟨user, hs, hle⟩ := hearns hu
        exact h.claim hs (hg user hs) hle

instance : (label : Label) → (w : World) → Decidable (claimGuard label w)
  | .claiming id _ referralClaimed, w =>
    decidable_of_iff ((w.users.get id).all (·.referralClaimed = referralClaimed) = true) (by
      rw [claimGuard]
      cases w.users.get id <;> simp)
  | .read, _ | .write, _ => .isTrue trivial

namespace Sample

-- Alice signs up, and bob with her code.
def signUps : List (Action Request) :=
  inTurn 4 [.register "alice" none, .register "bob" (some (referralCodeOf "alice"))]

def claimed : List (Action Request) :=
  signUps ++ [.start (.claim "alice" true), .run 2, .run 2]

-- Two claims read the earnings before either is committed.
def overlapping : List (Action Request) :=
  signUps ++ [.start (.claim "alice" true), .start (.claim "alice" true), .run 2, .run 3, .run 2, .run 3]

-- Alice after one sign-up with her code, which she has claimed.
def alice (mlptsBalance : ℚ) : User where
  mlptsBalance
  referralCode     := some "MALL-ALICE"
  referralEarnings := 10
  referralCount    := 1
  referralClaimed  := 10

def finish (actions : List (Action Request)) : Pool Label World :=
  Pool.execs Request.handler { store := {}, running := [] } actions

end Sample

-- What is marked as claimed is what the claims have credited, and no more than was earned.
theorem claimed_once (p : Pool Label World) (id : String) (user : User)
    (h : referralSystem.Run (fun p a => p.Meets claimGuard a) p)
    (hu : p.store.users.get id = some user) :
    user.referralClaimed = p.store.credited id ∧ p.store.credited id ≤ user.referralEarnings := by
  have hinv : referralSystem.Invariant (fun p a => p.Meets claimContract.guard a)
      fun p => ∃ owned, claimContract.Holds p owned :=
    Contract.invariant_of_handles ?init ?handles
  case init =>
    intro w hi
    refine ⟨?_, ?_⟩
    case refine_1 =>
      intro id _
      simp [World.credited, hi.2]
    case refine_2 =>
      intro id user hu
      rw [hi.1] at hu
      cases hu
  case handles =>
    intro request w
    cases request with
    | register id referralCode => exact register_handles
    | claim id commits         => exact claim_handles
  obtain ⟨owned, hp⟩ := hinv.holds h
  obtain ⟨hc, hle⟩ := hp.invariant.claimed hu
  exact ⟨hc, hc ▸ hle⟩

theorem sample_claimed_once : ∃ user,
    (Sample.finish Sample.claimed).store.users.get "alice" = some user ∧
      user.referralClaimed = (Sample.finish Sample.claimed).store.credited "alice" ∧
      (Sample.finish Sample.claimed).store.credited "alice" ≤ user.referralEarnings :=
  ⟨Sample.alice 10, by decide +kernel,
    claimed_once _ "alice" _ (run_from ⟨rfl, rfl⟩ (by decide +kernel)) (by decide +kernel)⟩

-- One sign-up earns 10, and two claims credit 20.
theorem overlapping_claims_pay_twice :
    ¬∀ (p : Pool Label World) (id : String) (user : User), referralSystem.Reachable p →
      p.store.users.get id = some user → p.store.credited id ≤ user.referralEarnings ∧
        (p.isIdle = true → user.referralClaimed = p.store.credited id) := by
  intro h
  have hp := h (Sample.finish Sample.overlapping) "alice" (Sample.alice 20)
    (reachable_from ⟨rfl, rfl⟩) (by decide +kernel)
  have hn : ¬(Sample.finish Sample.overlapping).store.credited "alice" ≤ 10 := by
    decide +kernel
  exact hn hp.1

end Referrals
