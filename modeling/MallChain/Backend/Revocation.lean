import MallChain.Backend.Sessions

namespace Sessions

open Interleaving

-- What is promised of an event.
def Event.Lawful : Event → Prop
  | .accepted _ revoked ended  => revoked = false ∧ ended = false
  | .rejected t (.expired now) => t.exp * 1000 ≤ now
  | .rejected _ (.denied r)    => r = true
  | .rejected t (.marked n)    => ∀ seen, t.login = some seen → seen < n

-- A token is looked for before it expires; a request goes on only if its token was not revoked since it
-- was looked for; no login after a sign-out everywhere signs within the second of its mark; no refresh
-- signs a token that outlives the mark on its session; and no session has a token of the millisecond of
-- its mark.
def guard : Label → World → Prop
  | .step, _                               => True
  | .checking t, w                         => w.seconds < t.exp
  | .accepting t wasRevoked wasEnded, w    =>
    (w.isRevoked t = true → wasRevoked = true) ∧ (w.isEnded t = true → wasEnded = true)
  | .signing seen, w                       =>
    w.mark.all (fun m => seen < m.number || m.value ≤ w.seconds * 1000) = true
  | .refreshing session, w                 =>
    session < w.covered → w.mark.any (fun m => w.seconds * 1000 < m.value) = true
  | .marking covers, w                     =>
    w.issued.all (fun t => covers ≤ t.session || t.iat * 1000 < w.now) = true

instance decidableGuard : (label : Label) → (w : World) → Decidable (guard label w)
  | .step, _                            => .isTrue trivial
  | .checking t, w                      => inferInstanceAs (Decidable (w.seconds < t.exp))
  | .accepting t wasRevoked wasEnded, w =>
    inferInstanceAs (Decidable ((w.isRevoked t = true → wasRevoked = true) ∧
      (w.isEnded t = true → wasEnded = true)))
  | .signing seen, w                    =>
    inferInstanceAs (Decidable
      (w.mark.all (fun m => seen < m.number || m.value ≤ w.seconds * 1000) = true))
  | .refreshing session, w              =>
    inferInstanceAs (Decidable (session < w.covered →
      w.mark.any (fun m => w.seconds * 1000 < m.value) = true))
  | .marking covers, w                  =>
    inferInstanceAs (Decidable
      (w.issued.all (fun t => covers ≤ t.session || t.iat * 1000 < w.now) = true))

-- A token that was revoked stays on the denylist until it expires.
def Denied (w : World) (t : Token) : Prop :=
  t.exp * 1000 ≤ w.now ∨ ∃ e, w.denylist.get t.jti = some e ∧ t.exp * 1000 ≤ e

structure Sound (ttl : ℕ) (w : World) : Prop where
  clock    : 1000 ≤ w.now
  iat      : ∀ t ∈ w.issued, t.iat * 1000 ≤ w.now ∧ t.iat ≠ 0
  exp      : ∀ t ∈ w.issued, t.exp = t.iat + ttl * 60
  jti      : ∀ t ∈ w.issued, t.jti < w.issued.length
  unique   : ∀ t ∈ w.issued, ∀ t' ∈ w.issued, t.jti = t'.jti → t = t'
  session  : ∀ t ∈ w.issued, t.session < w.sessions
  login    : ∀ t ∈ w.issued, ∀ seen, t.login = some seen → seen ≤ w.marks
  known    : ∀ j ∈ w.revoked, j < w.issued.length
  revoked  : ∀ t ∈ w.issued, t.jti ∈ w.revoked → Denied w t
  revoking : ∀ jti e, w.denylist.get jti = some e → jti ∈ w.revoking
  mark     : ∀ m, w.mark = some m →
    m.number = w.marks ∧ m.value ≤ w.now ∧ m.expiresAt = m.value + userDenylistTtlSeconds * 1000
  covered  : ∀ t ∈ w.issued, t.session < w.covered → ∃ m, w.mark = some m ∧ t.iat * 1000 < m.value
  after    : ∀ t ∈ w.issued, ∀ seen, t.login = some seen → ∀ m, w.mark = some m → m.number ≤ seen →
    m.value ≤ t.iat * 1000
  opened   : w.covered ≤ w.sessions
  ended    : w.endedBelow ≤ w.covered
  numbers  : w.completed ≤ w.marks
  lawful   : ∀ e ∈ w.events, e.Lawful

structure Later (w w' : World) : Prop where
  issued    : ∀ t ∈ w.issued, t ∈ w'.issued
  denied    : ∀ t ∈ w.issued, Denied w t → Denied w' t
  sessions  : w.sessions ≤ w'.sessions
  marks     : w.marks ≤ w'.marks
  covered   : w.covered ≤ w'.covered

theorem Later.refl (w : World) : Later w w where
  issued   := fun _ ht => ht
  denied   := fun _ _ hd => hd
  sessions := le_rfl
  marks    := le_rfl
  covered  := le_rfl

theorem Later.trans {w₁ w₂ w₃ : World} (h : Later w₁ w₂) (h' : Later w₂ w₃) : Later w₁ w₃ where
  issued   := fun t ht => h'.issued t (h.issued t ht)
  denied   := fun t ht hd => h'.denied t (h.issued t ht) (h.denied t ht hd)
  sessions := h.sessions.trans h'.sessions
  marks    := h.marks.trans h'.marks
  covered  := h.covered.trans h'.covered

def contract (ttl : ℕ) : Contract Label World ℕ where
  invariant w _ := Sound ttl w
  grows         := Later
  guard         := guard
  refl          := Later.refl
  trans         := Later.trans

section World

variable {ttl : ℕ} {w : World} {t : Token}

theorem World.seconds_mul_le : w.seconds * 1000 ≤ w.now :=
  Nat.div_mul_le_self _ _

-- A token that is live has time left.
theorem now_lt (h : w.seconds < t.exp) : w.now < t.exp * 1000 := by
  rw [World.seconds] at h
  omega

theorem sound_record {e : Event} (h : Sound ttl w) (he : e.Lawful) :
    Sound ttl (w.record e) ∧ Later w (w.record e) where
  left  := { h with lawful := List.forall_mem_cons.mpr ⟨he, h.lawful⟩ }
  right := { Later.refl w with }

-- A token that was revoked, and has not expired, is found on the first denylist.
theorem isDenied_of_revoked (h : Sound ttl w) (ht : t ∈ w.issued) (hlive : w.seconds < t.exp)
    (hr : w.isRevoked t = true) : w.isDenied t.jti = true := by
  have hnow := now_lt hlive
  rw [World.isRevoked, List.contains_iff_mem] at hr
  cases h.revoked t ht hr with
  | inl hexp => omega
  | inr hexp =>
    obtain ⟨e, hget, he⟩ := hexp
    rw [World.isDenied, hget, Option.any_some, decide_eq_true_eq]
    omega

-- A token of a session that was ended is invalidated by the mark.
theorem markedBy_of_ended (httl : ttl * 60 ≤ userDenylistTtlSeconds) (h : Sound ttl w)
    (ht : t ∈ w.issued) (hlive : w.seconds < t.exp) (he : w.isEnded t = true) : (w.markedBy t).isSome = true := by
  have hnow := now_lt hlive
  rw [World.isEnded, decide_eq_true_eq] at he
  obtain ⟨m, hm, hvalue⟩ := h.covered t ht (he.trans_le h.ended)
  obtain ⟨_, _, hexpires⟩ := h.mark m hm
  have hexp := h.exp t ht
  have hiat := (h.iat t ht).2
  have hkey : w.now < m.expiresAt := by
    rw [hexpires]
    generalize userDenylistTtlSeconds = seconds at httl
    omega
  rw [World.markedBy, hm, Option.filter_some]
  simp [hkey, hiat, hvalue]

theorem mem_issue {session : ℕ} {login : Option ℕ} (h : t ∈ (w.issue ttl session login).issued) :
    t = ⟨w.issued.length, w.seconds, w.seconds + ttl * 60, session, login⟩ ∨ t ∈ w.issued :=
  List.mem_cons.mp h

theorem sound_issue {session : ℕ} {login : Option ℕ} (h : Sound ttl w)
    (hcovered : session < w.covered → ∃ m, w.mark = some m ∧ w.seconds * 1000 < m.value)
    (hlogin : ∀ seen, login = some seen → seen ≤ w.marks ∧ ∀ m, w.mark = some m → m.number ≤ seen →
      m.value ≤ w.seconds * 1000) :
    Sound ttl (w.issue ttl session login) ∧ Later w (w.issue ttl session login) := by
  have hpos : w.seconds ≠ 0 := by
    have hclock := h.clock
    rw [World.seconds]
    omega
  refine ⟨?sound, ?later⟩
  case later =>
    exact { Later.refl w with
      issued   := fun t ht => List.mem_cons_of_mem _ ht
      sessions := le_max_left _ _ }
  case sound =>
    refine { h with
      iat     := List.forall_mem_cons.mpr ⟨⟨w.seconds_mul_le, hpos⟩, h.iat⟩
      exp     := List.forall_mem_cons.mpr ⟨rfl, h.exp⟩
      jti     := ?jti
      unique  := ?unique
      session := ?session
      login   := List.forall_mem_cons.mpr ⟨fun seen hs => (hlogin seen hs).1, h.login⟩
      known   := fun j hj => (h.known j hj).trans (Nat.lt_succ_self _)
      revoked := ?revoked
      covered := List.forall_mem_cons.mpr ⟨hcovered, h.covered⟩
      after   := List.forall_mem_cons.mpr ⟨fun seen hs => (hlogin seen hs).2, h.after⟩
      opened  := h.opened.trans (le_max_left _ _) }
    case jti =>
      exact List.forall_mem_cons.mpr
        ⟨Nat.lt_succ_self _, fun t ht => (h.jti t ht).trans (Nat.lt_succ_self _)⟩
    case session =>
      exact List.forall_mem_cons.mpr ⟨(Nat.lt_succ_self _).trans_le (le_max_right _ _),
        fun t ht => (h.session t ht).trans_le (le_max_left _ _)⟩
    case unique =>
      intro t ht t' ht' heq
      cases mem_issue ht with
      | inl hnew =>
        cases mem_issue ht' with
        | inl hnew' => rw [hnew, hnew']
        | inr hold' =>
          rw [hnew] at heq
          exact absurd heq (h.jti t' hold').ne'
      | inr hold =>
        cases mem_issue ht' with
        | inl hnew' =>
          rw [hnew'] at heq
          exact absurd heq (h.jti t hold).ne
        | inr hold' => exact h.unique t hold t' hold' heq
    case revoked =>
      intro t ht hr
      cases mem_issue ht with
      | inl hnew =>
        rw [hnew] at hr
        exact absurd (h.known _ hr) (lt_irrefl _)
      | inr hold => exact h.revoked t hold hr

-- The key of a token that is revoked lasts until the token expires.
theorem denied_deny (ht : w.seconds < t.exp) :
    t.exp * 1000 ≤ w.now + (t.exp - w.seconds) * 1000 := by
  rw [World.seconds] at ht ⊢
  omega

-- What is on the denylist stays there when another token, or the same token, is put onto it.
theorem Denied.deny {t' : Token} (h : Sound ttl w) (ht : t ∈ w.issued) (ht' : t' ∈ w.issued)
    (hlive : w.seconds < t.exp) (hd : t'.jti ≠ t.jti → Denied w t') : Denied (w.deny t) t' := by
  rw [World.deny, if_pos hlive]
  by_cases heq : t'.jti = t.jti
  case pos =>
    rw [h.unique t' ht' t ht heq]
    exact .inr ⟨_, KVStore.get_set_self, denied_deny hlive⟩
  case neg =>
    cases hd heq with
    | inl hdead => exact .inl hdead
    | inr hkey =>
      obtain ⟨e, hget, he⟩ := hkey
      exact .inr ⟨e, (KVStore.get_set_ne heq).trans hget, he⟩

theorem sound_deny (h : Sound ttl w) (ht : t ∈ w.issued) :
    Sound ttl (w.deny t) ∧ Later w (w.deny t) ∧ Denied (w.deny t) t := by
  by_cases hlive : w.seconds < t.exp
  case pos =>
    have hdeny : ∀ t' ∈ w.issued, (t'.jti ≠ t.jti → Denied w t') → Denied (w.deny t) t' :=
      fun t' ht' => Denied.deny h ht ht' hlive
    have hself := hdeny t ht fun hne => absurd rfl hne
    rw [World.deny, if_pos hlive] at hdeny hself ⊢
    refine ⟨?sound, ?later, hself⟩
    case later => exact { Later.refl w with denied := fun t' ht' hd => hdeny t' ht' fun _ => hd }
    case sound =>
      refine { h with revoked := ?revoked, revoking := ?revoking }
      case revoked => exact fun t' ht' hr => hdeny t' ht' fun _ => h.revoked t' ht' hr
      case revoking =>
        intro jti e hget
        rw [KVStore.get_set] at hget
        split_ifs at hget with heq
        case pos =>
          rw [heq]
          exact List.mem_cons_self
        case neg => exact List.mem_cons_of_mem _ (h.revoking jti e hget)
  case neg =>
    rw [World.deny, if_neg hlive]
    refine ⟨h, Later.refl w, .inl ?_⟩
    rw [World.seconds] at hlive
    omega

-- The request that revokes the token completes.
theorem sound_revoked (h : Sound ttl w) (ht : t ∈ w.issued) (hd : Denied w t) :
    Sound ttl { w with revoked := t.jti :: w.revoked } ∧
      Later w { w with revoked := t.jti :: w.revoked } where
  left  := { h with
    known   := List.forall_mem_cons.mpr ⟨h.jti t ht, h.known⟩
    revoked := fun t' ht' hr => by
      cases List.mem_cons.mp hr with
      | inl heq =>
        rw [h.unique t' ht' t ht heq]
        exact hd
      | inr hr => exact h.revoked t' ht' hr }
  right := { Later.refl w with }

theorem Denied.tick {duration : ℕ} (hd : Denied w t) :
    Denied { w with now := w.now + duration } t := by
  cases hd with
  | inl hdead => exact .inl (hdead.trans (Nat.le_add_right _ _))
  | inr hkey => exact .inr hkey

theorem sound_setMark {covers : ℕ} (h : Sound ttl w) (hcovers : covers ≤ w.sessions)
    (hg : guard (.marking covers) w) :
    Sound ttl (w.setMark covers) ∧ Later w (w.setMark covers) := by
  have hbefore : ∀ t ∈ w.issued, t.session < covers → t.iat * 1000 < w.now := by
    intro t ht hs
    have hall := List.all_eq_true.mp hg t ht
    simp only [Bool.or_eq_true, decide_eq_true_eq] at hall
    exact hall.resolve_left (Nat.not_le.mpr hs)
  refine ⟨?sound, ?later⟩
  case later =>
    exact { Later.refl w with marks := Nat.le_succ _, covered := le_max_left _ _ }
  case sound =>
    refine { h with
      login   := fun t ht seen hs => (h.login t ht seen hs).trans (Nat.le_succ _)
      mark    := ?mark
      covered := ?covered
      after   := ?after
      opened  := max_le h.opened hcovers
      ended   := h.ended.trans (le_max_left _ _)
      numbers := h.numbers.trans (Nat.le_succ _) }
    case mark =>
      intro m hm
      cases hm
      exact ⟨rfl, le_rfl, rfl⟩
    case covered =>
      intro t ht hs
      refine ⟨_, rfl, ?_⟩
      cases lt_max_iff.mp hs with
      | inl hs =>
        obtain ⟨m, hm, hvalue⟩ := h.covered t ht hs
        exact hvalue.trans_le (h.mark m hm).2.1
      | inr hs => exact hbefore t ht hs
    case after =>
      intro t ht seen hs m hm hle
      cases hm
      have hseen := h.login t ht seen hs
      exact absurd hle (Nat.not_le.mpr (Nat.lt_succ_of_le hseen))

-- The request that ends the sessions completes.
theorem sound_ended {covers number : ℕ} (h : Sound ttl w) (hcovers : covers ≤ w.covered)
    (hnumber : number ≤ w.marks) :
    Sound ttl { w with endedBelow := max w.endedBelow covers, completed := max w.completed number } ∧
      Later w { w with
        endedBelow := max w.endedBelow covers, completed := max w.completed number } where
  left  := { h with
    ended   := max_le h.ended hcovers
    numbers := max_le h.numbers hnumber }
  right := { Later.refl w with }

theorem sound_tick {duration : ℕ} (h : Sound ttl w) :
    Sound ttl { w with now := w.now + duration } ∧ Later w { w with now := w.now + duration } where
  left  := { h with
    clock   := h.clock.trans (Nat.le_add_right _ _)
    iat     := fun t ht => ⟨(h.iat t ht).1.trans (Nat.le_add_right _ _), (h.iat t ht).2⟩
    revoked := fun t ht hr => (h.revoked t ht hr).tick
    mark    := fun m hm => by
      obtain ⟨hnumber, hvalue, hexpires⟩ := h.mark m hm
      exact ⟨hnumber, hvalue.trans (Nat.le_add_right _ _), hexpires⟩ }
  right := { Later.refl w with denied := fun _ _ hd => hd.tick }

-- A token that was found among the denied ones is being revoked.
theorem lawful_denied (h : Sound ttl w) (hdenied : w.isDenied t.jti = true) :
    (Event.rejected t (.denied (w.revoking.contains t.jti))).Lawful := by
  obtain ⟨e, hget, _⟩ := (Option.any_eq_true _ _).mp hdenied
  exact List.contains_iff_mem.mpr (h.revoking t.jti e hget)

-- A token of a login that started later is not invalidated by the mark.
theorem lawful_marked {m : Mark} (h : Sound ttl w) (ht : t ∈ w.issued) (hm : w.markedBy t = some m) :
    (Event.rejected t (.marked m.number)).Lawful := by
  intro seen hseen
  obtain ⟨hmark, hkey⟩ := Option.filter_eq_some_iff.mp hm
  simp only [Bool.and_eq_true, decide_eq_true_eq] at hkey
  by_contra hle
  have hvalue := h.after t ht seen hseen m hmark (Nat.not_lt.mp hle)
  exact absurd hkey.2 (Nat.not_lt.mpr hvalue)

theorem lawful_expired (hlive : w.isLive t = false) : (Event.rejected t (.expired w.now)).Lawful := by
  rw [World.isLive, decide_eq_false_iff_not, World.seconds] at hlive
  change t.exp * 1000 ≤ w.now
  omega

end World

section Programs

variable {ttl : ℕ} {w : World} {t : Token} {jti : ℕ}

-- The program answers with a token that was issued, or with none.
def Found (found : Option Token) (w : World) (own : ℕ) : Prop :=
  own = 0 ∧ ∀ t, found = some t → t ∈ w.issued

theorem Found.none : Found none w 0 := by
  refine ⟨rfl, ?_⟩
  intro t h
  cases h

theorem mem_of_find (h : (w.find jti).filter w.isLive = some t) : t ∈ w.issued :=
  List.mem_of_find?_eq_some (Option.filter_eq_some_iff.mp h).1

-- The update of a step that looks for a token, if the token is rejected.
theorem sound_reject {c : Bool} {e : Event} (h : Sound ttl w) (he : c = true → e.Lawful) :
    Sound ttl (if c then w.record e else w) ∧ Later w (if c then w.record e else w) := by
  cases c with
  | true => exact sound_record h (he rfl)
  | false => exact ⟨h, Later.refl w⟩

theorem sound_checkUser (h : Sound ttl w) (ht : t ∈ w.issued) :
    Sound ttl (match w.markedBy t with
      | some m => w.record (.rejected t (.marked m.number))
      | none   => w) ∧
    Later w (match w.markedBy t with
      | some m => w.record (.rejected t (.marked m.number))
      | none   => w) := by
  cases hm : w.markedBy t with
  | none => exact ⟨h, Later.refl w⟩
  | some m => exact sound_record h (lawful_marked h ht hm)

-- The last step of the middleware.
theorem accept_safe (ht : t ∈ w.issued) :
    (contract ttl).Safe Found (do
      .skip .step
      .write (.accepting t false false) fun w =>
        w.record (.accepted t (w.isRevoked t) (w.isEnded t))
      return some t : Handler (Option Token)) w 0 := by
  apply Contract.Safe.skip
  intro s₁ hs₁ _
  apply Contract.Safe.write
  intro s₂ hs₂ hg₂ others₂ hI₂
  obtain ⟨hrevoked, hended⟩ := hg₂
  have hlawful : (Event.accepted t (s₂.isRevoked t) (s₂.isEnded t)).Lawful :=
    ⟨Bool.eq_false_iff.mpr fun h => Bool.false_ne_true (hrevoked h),
      Bool.eq_false_iff.mpr fun h => Bool.false_ne_true (hended h)⟩
  obtain ⟨hsound, hlater⟩ := sound_record hI₂ hlawful
  refine ⟨0, hsound, hlater, rfl, ?_⟩
  intro t' h
  cases h
  exact hlater.issued t (hs₂.issued t (hs₁.issued t ht))

-- A token that both denylists let through was not revoked, and neither was its session.
theorem requireAuth_safe (httl : ttl * 60 ≤ userDenylistTtlSeconds) :
    (contract ttl).Safe Found (requireAuth jti) w 0 := by
  apply Contract.Safe.act
  intro s₁ _ _ others₁ hI₁
  refine ⟨0, ?_⟩
  cases hfound : (s₁.find jti).filter s₁.isLive with
  | none =>
    cases hfind : s₁.find jti with
    | none => exact ⟨hI₁, Later.refl _, Found.none⟩
    | some t =>
      rw [hfind, Option.filter_some] at hfound
      have hlive : s₁.isLive t = false := by simpa using hfound
      obtain ⟨hsound, hlater⟩ := sound_record hI₁ (lawful_expired hlive)
      simp only [hlive, Bool.false_eq_true, if_false]
      exact ⟨hsound, hlater, Found.none⟩
  | some t =>
    have ht₁ := mem_of_find hfound
    obtain ⟨hfind, hlive⟩ := Option.filter_eq_some_iff.mp hfound
    simp only [hfind, hlive, if_true]
    refine ⟨hI₁, Later.refl _, ?_⟩
    apply Contract.Safe.act
    intro s₂ hs₂ hg₂ others₂ hI₂
    have ht₂ := hs₂.issued t ht₁
    obtain ⟨hsound₂, hlater₂⟩ := sound_reject hI₂ (lawful_denied hI₂)
    refine ⟨0, hsound₂, hlater₂, ?_⟩
    have ht₂' := hlater₂.issued t ht₂
    cases hdenied : s₂.isDenied t.jti with
    | true => exact Found.none
    | false =>
      rw [hdenied] at ht₂'
      have hrevoked : s₂.isRevoked t = false := by
        by_contra hr
        rw [Bool.not_eq_false] at hr
        rw [isDenied_of_revoked hI₂ ht₂ hg₂ hr] at hdenied
        cases hdenied
      apply Contract.Safe.act
      intro s₃ hs₃ hg₃ others₃ hI₃
      have ht₃ := hs₃.issued t ht₂'
      obtain ⟨hsound₃, hlater₃⟩ := sound_checkUser hI₃ ht₃
      refine ⟨0, hsound₃, hlater₃, ?_⟩
      cases hmarked : (s₃.markedBy t).isSome with
      | true => exact Found.none
      | false =>
        have hended : s₃.isEnded t = false := by
          by_contra he
          rw [Bool.not_eq_false] at he
          rw [markedBy_of_ended httl hI₃ ht₃ hg₃ he] at hmarked
          cases hmarked
        rw [hrevoked, hended]
        exact accept_safe (hlater₃.issued t ht₃)

-- A handler behind the middleware goes on with a token that was issued.
theorem Found.safe {f : Option Token → Handler Unit} (httl : ttl * 60 ≤ userDenylistTtlSeconds)
    (hf : ∀ found w, (∀ t, found = some t → t ∈ w.issued) → (contract ttl).Handles (f found) w 0) :
    (contract ttl).Handles (requireAuth jti >>= f) w 0 := by
  apply Contract.Safe.bind
  apply (requireAuth_safe httl).imp
  intro found s own hfound
  obtain ⟨hown, hissued⟩ := hfound
  cases hown
  exact hf found s hissued

theorem login_handles : (contract ttl).Handles (login ttl) w 0 := by
  apply Contract.Safe.look
  intro s₁ _ _ others₁ hI₁
  apply Contract.Safe.skip
  intro s₂ hs₂ _
  apply Contract.Handles.write
  intro s₃ hs₃ hg₃ others₃ hI₃
  have hseen : s₁.completed ≤ s₃.marks := hI₁.numbers.trans (hs₂.marks.trans hs₃.marks)
  apply sound_issue hI₃
  case hcovered => exact fun hlt => absurd hI₃.opened (Nat.not_le.mpr hlt)
  case hlogin =>
    intro seen hs
    cases hs
    refine ⟨hseen, ?_⟩
    intro m hm hle
    have hg : s₃.mark.all
        (fun m => s₁.completed < m.number || m.value ≤ s₃.seconds * 1000) = true := hg₃
    rw [hm, Option.all_some, Bool.or_eq_true, decide_eq_true_eq, decide_eq_true_eq] at hg
    exact hg.resolve_left (Nat.not_lt.mpr hle)

theorem revoke_handles (ht : t ∈ w.issued) : (contract ttl).Handles (revoke t) w 0 := by
  apply Contract.Safe.write
  intro s₁ hs₁ _ others₁ hI₁
  have ht₁ := hs₁.issued t ht
  obtain ⟨hsound, hlater, hdenied⟩ := sound_deny hI₁ ht₁
  refine ⟨0, hsound, hlater, ?_⟩
  apply Contract.Handles.write
  intro s₂ hs₂ _ others₂ hI₂
  have ht₂ := hlater.issued t ht₁
  exact sound_revoked hI₂ (hs₂.issued t ht₂) (hs₂.denied t ht₂ hdenied)

theorem logout_handles (httl : ttl * 60 ≤ userDenylistTtlSeconds) :
    (contract ttl).Handles (logout jti) w 0 := by
  apply Found.safe httl
  intro found s hissued
  cases found with
  | none => exact Contract.Handles.done
  | some t => exact revoke_handles (hissued t rfl)

theorem refresh_handles (httl : ttl * 60 ≤ userDenylistTtlSeconds) :
    (contract ttl).Handles (refresh ttl jti) w 0 := by
  apply Found.safe httl
  intro found s hissued
  cases found with
  | none => exact Contract.Handles.done
  | some t =>
    apply Contract.Safe.write
    intro s₁ hs₁ hg₁ others₁ hI₁
    have hcovered : t.session < s₁.covered → ∃ m, s₁.mark = some m ∧ s₁.seconds * 1000 < m.value := by
      intro hlt
      obtain ⟨m, hm, hvalue⟩ := (Option.any_eq_true _ _).mp (hg₁ hlt)
      exact ⟨m, hm, of_decide_eq_true hvalue⟩
    have hlogin : ∀ seen, (none : Option ℕ) = some seen → seen ≤ s₁.marks ∧
        ∀ m, s₁.mark = some m → m.number ≤ seen → m.value ≤ s₁.seconds * 1000 := by
      intro seen hs
      cases hs
    obtain ⟨hsound, hlater⟩ := sound_issue hI₁ hcovered hlogin
    exact ⟨0, hsound, hlater, revoke_handles (hlater.issued t (hs₁.issued t (hissued t rfl)))⟩

theorem logoutEverywhere_handles (httl : ttl * 60 ≤ userDenylistTtlSeconds) :
    (contract ttl).Handles (logoutEverywhere jti) w 0 := by
  apply Contract.Safe.read
  intro s₀ _ _
  apply Contract.Safe.bind
  have hframe : (contract ttl).Safe (fun found s own => Found found s own ∧ s₀.sessions ≤ s.sessions)
      (requireAuth jti) s₀ 0 :=
    (requireAuth_safe httl).frame (fun hs hle => hle.trans hs.sessions) le_rfl
  apply hframe.imp
  intro found s own hpost
  obtain ⟨hfound, hcovers⟩ := hpost
  cases hfound.1
  cases found with
  | none => exact Contract.Handles.done
  | some t =>
    apply Contract.Safe.act
    intro s₁ hs₁ hg₁ others₁ hI₁
    obtain ⟨hsound, hlater⟩ := sound_setMark hI₁ (hcovers.trans hs₁.sessions) hg₁
    refine ⟨0, hsound, hlater, ?_⟩
    apply Contract.Handles.write
    intro s₂ hs₂ _ others₂ hI₂
    exact sound_ended hI₂ ((le_max_right _ _).trans hs₂.covered) hs₂.marks

theorem handler_handles (httl : ttl * 60 ≤ userDenylistTtlSeconds) (request : Request) (w : World) :
    (contract ttl).Handles (request.handler ttl) w 0 := by
  cases request with
  | login => exact login_handles
  | use jti => exact Found.safe httl fun _ _ _ => Contract.Handles.done
  | logout jti => exact logout_handles httl
  | refresh jti => exact refresh_handles httl
  | logoutEverywhere jti => exact logoutEverywhere_handles httl
  | tick duration =>
    apply Contract.Handles.write
    intro s _ _ others hI
    exact sound_tick hI

end Programs

theorem sound_start {ttl : ℕ} {w : World} (h : Start w) : Sound ttl w := by
  obtain ⟨hclock, hw⟩ := h
  generalize w.now = now at hclock hw
  subst hw
  have hissued : ∀ P : Token → Prop, ∀ t ∈ ([] : List Token), P t := by simp
  exact {
    clock    := hclock
    iat      := hissued _
    exp      := hissued _
    jti      := hissued _
    unique   := hissued _
    session  := hissued _
    login    := hissued _
    known    := by simp
    revoked  := hissued _
    revoking := by
      intro jti e hget
      cases hget
    mark     := by
      intro m hm
      cases hm
    covered  := hissued _
    after    := hissued _
    opened   := le_rfl
    ended    := le_rfl
    numbers  := le_rfl
    lawful   := by simp
  }

-- Where the sessions are not longer than the mark of a user is kept, and no request is overtaken as the
-- guard says, no token is accepted that was revoked, nor one of a session that was ended, and every token
-- is accepted until it expires or is revoked.
theorem events_lawful {ttl : ℕ} (httl : ttl * 60 ≤ userDenylistTtlSeconds)
    {p : Pool Label World} (hp : (sessionSystem ttl).Run (fun p a => p.Meets guard a) p) :
    ∀ e ∈ p.store.events, e.Lawful := by
  have hI : (sessionSystem ttl).Invariant (fun p a => p.Meets (contract ttl).guard a)
      fun p => ∃ owned, (contract ttl).Holds p owned :=
    Contract.invariant_of_handles (fun _ hs => sound_start hs) (handler_handles httl)
  obtain ⟨owned, hholds⟩ := hI.holds hp
  exact hholds.invariant.lawful

namespace Sample

-- The clock stands within a second.
def evening : World where
  now := 5000

-- A token is refreshed, all sessions are ended, and the user logs in again in the next second.
def evenings : List (Action Request) :=
  inTurn 9 [.login, .tick 2500, .use 0, .refresh 0, .use 0, .use 1, .logoutEverywhere 1, .use 1,
    .tick 1000, .login, .use 2, .logout 2, .use 2]

-- A refresh has its token checked before all sessions are ended, and signs a second later.
def overtaken : List (Action Request) :=
  inTurn 9 [.login, .tick 2000] ++ .start (.refresh 0) :: List.replicate 5 (.run 2) ++
    .start (.logoutEverywhere 0) :: List.replicate 9 (.run 3) ++
    [.start (.tick 1000), .run 4] ++ List.replicate 3 (.run 2) ++
    .start (.use 1) :: List.replicate 9 (.run 5)

end Sample

theorem sample_events_lawful :
    (Pool.execs (Request.handler 120) { store := Sample.evening, running := [] }
      Sample.evenings).store.events ≠ [] ∧
    ∀ e ∈ (Pool.execs (Request.handler 120) { store := Sample.evening, running := [] }
      Sample.evenings).store.events, e.Lawful :=
  ⟨by decide +kernel, events_lawful (by decide) (run_from ⟨by decide, rfl⟩ (by decide +kernel))⟩

-- The token of the refresh is accepted after the sign-out everywhere has completed.
theorem refreshed_token_survives :
    ¬∀ (ttl : ℕ) (p : Pool Label World), (sessionSystem ttl).Reachable p →
      ∀ e ∈ p.store.events, e.Lawful := by
  intro h
  have haccepted : (Event.accepted ⟨1, 8, 7208, 0, none⟩ false true) ∈
      (Pool.execs (Request.handler 120) { store := Sample.evening, running := [] }
        Sample.overtaken).store.events := by
    decide +kernel
  have hreachable : (sessionSystem 120).Reachable
      (Pool.execs (Request.handler 120) { store := Sample.evening, running := [] } Sample.overtaken) :=
    reachable_from ⟨by decide, rfl⟩
  have hlawful := h 120 _ hreachable _ haccepted
  exact Bool.false_ne_true hlawful.2.symm

end Sessions
