import MallChain.Trade.System

namespace Trade

open Interleaving

namespace World

variable (w : World) (address : String)

def balanceOf : Option ℚ :=
  (w.accounts.get address).map (·.balance)

-- The points of an address whose coins were sent.
def sentPoints : ℤ :=
  (w.events.map fun | .sent owner points => if owner = address then points else 0 | _ => 0).sum

end World

-- A balance is saved over the one that was read, and points are given back only if no coins were sent.
def conversionGuard (address : String) : Label → World → Prop
  | .removing of acc, w          => of = address → w.balanceOf address = some acc.balance
  | .restoring of _ effective, _ => of = address → effective = false
  | _, _                         => True

-- The conversions that have taken points from an account, each with the balance that it has read. There
-- is at most one.
inductive Settled (address : String) (initial : ℚ) (w : World) : Multiset ℚ → Prop
  | free {balance : ℚ} : w.balanceOf address = some balance → Binary64.round balance = balance →
    balance + w.sentPoints address = initial → Settled address initial w 0
  | pending {balance : ℚ} : 1 ≤ balance → Binary64.round balance = balance →
    w.balanceOf address = some (balance - ⌊balance⌋) →
    balance + w.sentPoints address = initial → Settled address initial w {balance}

def settledContract (address : String) (initial : ℚ) : Contract Label World (Multiset ℚ) where
  invariant   := Settled address initial
  grows _ _   := True
  guard       := conversionGuard address
  refl _      := trivial
  trans _ _   := trivial

-- A step that changes neither the balance nor what was sent.
def Leaves (address : String) (_ : Label) (update : World → World) : Prop :=
  ∀ w, (update w).balanceOf address = w.balanceOf address ∧
    (update w).sentPoints address = w.sentPoints address

variable {address : String} {initial : ℚ} {w w' : World} {own : Multiset ℚ} {label : Label}
  {update : World → World} {C : String → Prop} {T : Target → Prop}

theorem Settled.congr (h : Settled address initial w own)
    (hb : w'.balanceOf address = w.balanceOf address)
    (hs : w'.sentPoints address = w.sentPoints address) : Settled address initial w' own := by
  cases h with
  | free hbalance hround hsum => exact .free (hb.trans hbalance) hround (hs ▸ hsum)
  | pending hone hround hbalance hsum => exact .pending hone hround (hb.trans hbalance) (hs ▸ hsum)

theorem Leaves.keeps (h : Leaves address label update) :
    (settledContract address initial).Keeps label update :=
  fun w _ _ hI => ⟨hI.congr (h w).1 (h w).2, trivial⟩

section Store

variable {e : Event} {other : String} {f : MallPointAccount → MallPointAccount}

theorem sentPoints_record (h : ∀ points, e ≠ .sent address points) :
    (w.record e).sentPoints address = w.sentPoints address := by
  rw [World.sentPoints, World.record, List.map_cons, List.sum_cons]
  cases e with
  | sent owner points =>
    have hne : owner ≠ address := fun heq => h points (heq ▸ rfl)
    simp [hne, World.sentPoints]
  | _ => simp [World.sentPoints]

theorem sentPoints_sent {points : ℤ} :
    (w.record (.sent address points)).sentPoints address = points + w.sentPoints address := by
  simp [World.sentPoints, World.record]

theorem Leaves.of_eq (h : ∀ w, (update w).accounts = w.accounts ∧ (update w).events = w.events) :
    Leaves address label update := by
  intro w
  rw [World.balanceOf, World.sentPoints, (h w).1, (h w).2]
  exact ⟨rfl, rfl⟩

theorem Leaves.record (h : ∀ points, e ≠ .sent address points) :
    Leaves address label (·.record e) :=
  fun _ => ⟨rfl, sentPoints_record h⟩

theorem Leaves.updatePurchase {quoteId : String} {f : MallcoinPurchase → MallcoinPurchase} :
    Leaves address label (·.updatePurchase quoteId f) := by
  refine .of_eq fun w => ?_
  rw [World.updatePurchase]
  split <;> exact ⟨rfl, rfl⟩

theorem Leaves.provide {target : Target} {amount0 amount1 : ℚ} {provision : Provision} :
    Leaves address label fun w =>
      if provision.effective then w.record (.provided target amount0 amount1) else w := by
  intro w
  dsimp only
  split_ifs
  case pos => exact ⟨rfl, sentPoints_record (by simp)⟩
  case neg => exact ⟨rfl, rfl⟩

theorem balanceOf_updateAccount (h : w.balanceOf address ≠ none) :
    ∃ acc, w.accounts.get address = some acc ∧
      (w.updateAccount address f).balanceOf address = some (f acc).balance := by
  cases hget : w.accounts.get address with
  | none =>
    rw [World.balanceOf, hget] at h
    exact absurd rfl h
  | some acc =>
    refine ⟨acc, rfl, ?_⟩
    rw [World.updateAccount, hget, World.balanceOf, KVStore.get_set_self, Option.map_some]

theorem Leaves.updateAccount (h : other ≠ address) :
    Leaves address label (·.updateAccount other f) := by
  intro w
  dsimp only [World.updateAccount]
  split
  case h_2 => exact ⟨rfl, rfl⟩
  case h_1 => exact ⟨by rw [World.balanceOf, KVStore.get_set_ne (Ne.symm h)]; rfl, rfl⟩

theorem sentPoints_updateAccount : (w.updateAccount other f).sentPoints address =
    w.sentPoints address := by
  rw [World.updateAccount]
  split <;> rfl

end Store

-- What a request leaves that converts nothing.
theorem Effect.leaves_account (h : Effect C T label update) (hT : ∀ i, ¬T (.conversion i)) :
    Leaves address label update := by
  cases h with
  | silent => exact fun _ => ⟨rfl, rfl⟩
  | reserve purchase _ =>
    intro w
    rw [insertPurchase]
    split
    case h_1 => exact ⟨rfl, rfl⟩
    case h_2 => exact ⟨rfl, sentPoints_record (by simp)⟩
  | push => exact .record (by simp)
  | savePush _ _ _ _ => exact .updatePurchase
  | collect paymentId hu =>
    intro w
    rcases hu w with hw | hw
    · rw [hw]
      exact ⟨rfl, rfl⟩
    · rw [hw]
      exact ⟨rfl, sentPoints_record (by simp)⟩
  | saveCallback _ _ _ _ => exact .updatePurchase
  | acknowledge => exact .record (by simp)
  | claim _ =>
    refine .of_eq fun w => ?_
    rw [Trade.claim]
    split
    case h_2 => exact ⟨rfl, rfl⟩
    case h_1 => split_ifs <;> exact ⟨rfl, rfl⟩
  | credit _ => exact .record (by simp)
  | provide _ => exact .provide
  | settle _ he =>
    cases he with
    | provide => exact .provide
    | ensure => exact .of_eq fun _ => ⟨rfl, rfl⟩
    | save _ _ => exact .updatePurchase
  | detect _ =>
    refine .of_eq fun w => ?_
    rw [insertReconciliation]
    split_ifs <;> exact ⟨rfl, rfl⟩
  | attempt => exact .record (by simp)
  | reconcile =>
    refine .of_eq fun w => ?_
    dsimp only [World.updateReconciliation]
    split <;> exact ⟨rfl, rfl⟩
  | saveCompensation _ _ _ _ => exact .updatePurchase
  | remove _ h => exact absurd (h 0) (hT 0)
  | send h => exact absurd h (hT _)
  | restore _ h => exact absurd h (hT _)
  | enqueue h => exact absurd h (hT _)
  | take h => exact absurd h (hT _)

section Convert

variable {req : ConvertRequest} {i : ℕ} {points : ℤ} {mlcoins : Option ℚ}
  {doc : Document MallPointAccount} {transfer : Transfer}

-- What follows a transfer.
theorem supply_leaves {job : ConvertLiquidityJob} {amount0 amount1 : ℚ} :
    (do
      provide (.conversion i) amount0 amount1 req.provision
      if req.provision.error.isSome ∧ req.queues then
        .write (.requeueing req.provision) (enqueueConvertLiquidityFailure i job) : Handler Unit).Steps
      (Leaves address) := by
  refine .bind (.write .provide) fun _ => ?_
  exact .ite (fun _ => .write (.of_eq fun _ => ⟨rfl, rfl⟩)) fun _ => trivial

theorem finishConversion_leaves (h : req.address ≠ address) :
    (finishConversion req i points mlcoins doc transfer).Steps (Leaves address) := by
  have hsend : Leaves address .write (·.record (.sent req.address points)) :=
    .record fun _ heq => h (by cases heq; rfl)
  cases transfer with
  | failed effective =>
    have hrestore : (Prog.write (.restoring req.address doc.saved.loaded effective)
        (World.updateAccount · req.address (saveAccount
          (doc.saved.modify (restored points doc.loaded.lastConversionAt))))).Steps (Leaves address) :=
      .write (.updateAccount h)
    exact .ite (fun _ => .bind (.write hsend) fun _ => hrestore) fun _ => hrestore
  | confirmed =>
    rw [finishConversion]
    refine .ite (fun _ => .bind (.write hsend) fun _ => supply_leaves) fun hn => absurd (Eq.refl true) hn

theorem convert_leaves {maxPerRequest : ℚ} (h : req.address ≠ address) :
    (convert maxPerRequest req).Steps (Leaves address) := by
  refine .bind (.read fun _ => ⟨rfl, rfl⟩) fun stored => ?_
  split
  case h_2 => trivial
  case h_1 acc =>
    refine .ite (fun _ => trivial) fun _ => ?_
    refine .ite (fun _ => trivial) fun _ => ?_
    refine .ite (fun _ => trivial) fun _ => ?_
    have hleaves : Leaves address .write (·.updateAccount req.address (saveAccount
        ((Document.read acc).modify (converted ⌊acc.balance⌋ req.now)))) := .updateAccount h
    refine .bind (.act fun w => ?_) fun i => finishConversion_leaves h
    exact ⟨by rw [← (hleaves w).1]; rfl, by rw [← (hleaves w).2]; rfl⟩

theorem processJob_leaves {job : ConvertLiquidityJob} {provisions : List Provision} :
    (processJob i job provisions).Steps (Leaves address) := by
  induction provisions with
  | nil => trivial
  | cons provision provisions ih =>
    refine .bind (.write .provide) fun _ => ?_
    exact .ite (fun _ => trivial) fun _ => .bind (.skip fun _ => ⟨rfl, rfl⟩) fun _ => ih

theorem convertLiquidityJob_leaves {provisions : List Provision} :
    (convertLiquidityJob i provisions).Steps (Leaves address) := by
  refine .bind (.act (.of_eq fun _ => ⟨rfl, rfl⟩)) fun job => ?_
  split
  case h_1 => exact processJob_leaves
  case h_2 => trivial

-- The one that is pending is all that is pending.
theorem Settled.of_pending {balance : ℚ} {others : Multiset ℚ}
    (h : Settled address initial w ({balance} + others)) : others = 0 ∧ 1 ≤ balance ∧
      Binary64.round balance = balance ∧ w.balanceOf address = some (balance - ⌊balance⌋) ∧
      balance + w.sentPoints address = initial := by
  generalize hown : {balance} + others = own at h
  cases h with
  | free => exact absurd hown (by simp)
  | pending hone hround hbalance hsum =>
    rw [Multiset.singleton_add] at hown
    obtain ⟨rfl, rfl⟩ := (Multiset.singleton_eq_cons_iff ..).mp hown.symm
    exact ⟨rfl, hone, hround, hbalance, hsum⟩

theorem Settled.of_free (h : Settled address initial w 0) : ∃ balance,
    w.balanceOf address = some balance ∧ balance + w.sentPoints address = initial := by
  generalize hown : (0 : Multiset ℚ) = own at h
  cases h with
  | free hbalance _ hsum => exact ⟨_, hbalance, hsum⟩
  | pending => exact absurd hown (by simp)

-- The coins of a conversion are sent.
theorem Settled.send {balance : ℚ} {others : Multiset ℚ}
    (h : Settled address initial w ({balance} + others)) :
    Settled address initial (w.record (.sent address ⌊balance⌋)) (0 + others) := by
  obtain ⟨rfl, hone, hround, hbalance, hsum⟩ := h.of_pending
  rw [add_zero]
  refine .free hbalance (Binary64.round_fract hone hround) ?_
  rw [sentPoints_sent]
  push_cast
  linarith

-- The points are taken.
theorem Settled.remove {acc : MallPointAccount} (now : ℤ) {others : Multiset ℚ}
    (h : Settled address initial w others) (hpoints : 1 ≤ ⌊acc.balance⌋)
    (hread : w.balanceOf address = some acc.balance) :
    Settled address initial (beginConversion address ((Document.read acc).modify
      (converted ⌊acc.balance⌋ now)) w) ({acc.balance} + others) ∧
    1 ≤ acc.balance ∧ Binary64.round acc.balance = acc.balance := by
  have hone : 1 ≤ acc.balance := by exact_mod_cast Int.le_floor.mp hpoints
  cases h with
  | free hbalance hround hsum =>
    rw [hread] at hbalance
    cases hbalance
    refine ⟨?_, hone, hround⟩
    rw [add_zero]
    have hnone : w.balanceOf address ≠ none := by simp [hread]
    obtain ⟨stored, _, hsaved⟩ := balanceOf_updateAccount
      (f := saveAccount ((Document.read acc).modify (converted ⌊acc.balance⌋ now))) hnone
    refine .pending hone hround (hsaved.trans (congrArg some ?_)) ?_
    · have hsub : Binary64.sub acc.balance ⌊acc.balance⌋ = acc.balance - ⌊acc.balance⌋ :=
        Binary64.round_fract hone hround
      have hne : Binary64.sub acc.balance ⌊acc.balance⌋ ≠ acc.balance := by
        have hpos : (1 : ℚ) ≤ ⌊acc.balance⌋ := by exact_mod_cast hpoints
        rw [hsub]
        linarith
      exact (Document.written_current hne).trans hsub
    · rw [beginConversion]
      exact (sentPoints_updateAccount (w := w)).symm ▸ hsum
  | @pending balance _ _ hbalance _ =>
    rw [hread] at hbalance
    have hlt := Int.lt_floor_add_one balance
    have heq : acc.balance = balance - ⌊balance⌋ := Option.some.inj hbalance
    linarith

-- The points are given back.
theorem Settled.restore {balance : ℚ} {others : Multiset ℚ} {previous : Option ℤ}
    (h : Settled address initial w ({balance} + others))
    (hcurrent : doc.current.balance = balance - ⌊balance⌋) :
    Settled address initial (w.updateAccount address (saveAccount
      (doc.saved.modify (restored ⌊balance⌋ previous)))) others := by
  obtain ⟨rfl, hone, hround, hbalance, hsum⟩ := h.of_pending
  have hnone : w.balanceOf address ≠ none := by simp [hbalance]
  obtain ⟨stored, _, hsaved⟩ := balanceOf_updateAccount
    (f := saveAccount (doc.saved.modify (restored ⌊balance⌋ previous))) hnone
  refine .free (hsaved.trans (congrArg some ?_)) hround ?_
  · have hadd : Binary64.add doc.current.balance ⌊balance⌋ = balance := by
      rw [Binary64.add, hcurrent, sub_add_cancel, hround]
    have hne : Binary64.add doc.current.balance ⌊balance⌋ ≠ doc.current.balance := by
      have hpos : (1 : ℚ) ≤ ⌊balance⌋ := by
        have hfloor : (1 : ℤ) ≤ ⌊balance⌋ := Int.le_floor.mpr (by exact_mod_cast hone)
        exact_mod_cast hfloor
      rw [hadd, hcurrent]
      linarith
    exact (Document.written_current hne).trans hadd
  · rw [sentPoints_updateAccount]
    exact hsum

theorem finishConversion_settles {balance : ℚ} (hreq : req.address = address)
    (hcurrent : doc.current.balance = balance - ⌊balance⌋) :
    (settledContract address initial).Handles
      (finishConversion req i ⌊balance⌋ mlcoins doc transfer) w {balance} := by
  subst hreq
  cases transfer with
  | failed effective =>
    cases effective with
    | true =>
      apply Contract.Safe.write
      intro w₁ _ _ others hI
      refine ⟨0, hI.send, trivial, ?_⟩
      apply Contract.Handles.write
      intro w₂ _ hg
      exact absurd (hg rfl) (by decide)
    | false =>
      apply Contract.Handles.write
      intro w₁ _ _ others hI
      exact ⟨hI.restore hcurrent, trivial⟩
  | confirmed =>
    apply Contract.Safe.write
    intro w₁ _ _ others hI
    refine ⟨0, hI.send, trivial, ?_⟩
    exact Contract.Handles.of_keeps (supply_leaves.mono fun h => h.keeps)

theorem convert_settles {maxPerRequest : ℚ} (hreq : req.address = address) :
    (settledContract address initial).Handles (convert maxPerRequest req) w 0 := by
  subst hreq
  apply Contract.Safe.read
  intro w₁ _ _
  cases w₁.accounts.get req.address with
  | none => exact Contract.Handles.done
  | some acc =>
    refine Contract.Safe.ite (fun _ => Contract.Handles.done) fun _ => ?_
    refine Contract.Safe.ite (fun _ => Contract.Handles.done) fun _ => ?_
    refine Contract.Safe.ite (fun _ => Contract.Handles.done) fun hpoints => ?_
    apply Contract.Safe.act
    intro w₂ _ hg others hI
    rw [zero_add] at hI
    obtain ⟨hremoved, hone, hround⟩ := hI.remove req.now (not_le.mp hpoints) (hg rfl)
    refine ⟨{acc.balance}, hremoved, trivial, ?_⟩
    exact finishConversion_settles rfl (Binary64.round_fract hone hround)

theorem handler_settles (maxPerRequest : ℚ) (request : Request) :
    (settledContract address initial).Handles (request.handler maxPerRequest) w 0 := by
  have hother : (∀ i, ¬request.targets (.conversion i)) →
      (settledContract address initial).Handles (request.handler maxPerRequest) w 0 := fun hT =>
    Contract.Handles.of_keeps ((handler_steps maxPerRequest request).mono fun h =>
      (h.leaves_account hT).keeps)
  cases request with
  | convert req =>
    by_cases hreq : req.address = address
    case pos => exact convert_settles hreq
    case neg => exact Contract.Handles.of_keeps ((convert_leaves hreq).mono fun h => h.keeps)
  | convertLiquidity i provisions =>
    exact Contract.Handles.of_keeps (convertLiquidityJob_leaves.mono fun h => h.keeps)
  | _ => exact hother fun i => by simp [Request.targets]

end Convert

-- All runs from an account with a balance of which nothing was sent.
def conversionSystem (maxPerRequest : ℚ) (address : String) (initial : ℚ) :
    TransitionSystem (Pool Label World) (Action Request) :=
  system (fun w => w.balanceOf address = some initial ∧ w.sentPoints address = 0)
    (Request.handler maxPerRequest)

-- What was sent and what is left are never more than what was there, and the same when all requests
-- are done.
def SettledOnce (address : String) (initial : ℚ) (p : Pool Label World) : Prop :=
  ∃ balance, p.store.balanceOf address = some balance ∧
    balance + p.store.sentPoints address ≤ initial ∧
    (p.isIdle = true → balance + p.store.sentPoints address = initial)

-- The points of an account become coins exactly once. The balance is a number of the language.
theorem conversion_settled_once (maxPerRequest : ℚ) (address : String) (initial : ℚ)
    (hround : Binary64.round initial = initial) {p : Pool Label World}
    (h : (conversionSystem maxPerRequest address initial).Run
      (fun p a => p.Meets (conversionGuard address) a) p) : SettledOnce address initial p := by
  have hinv : (conversionSystem maxPerRequest address initial).Invariant
      (fun p a => p.Meets (settledContract address initial).guard a)
      fun p => ∃ owned, (settledContract address initial).Holds p owned :=
    Contract.invariant_of_handles ?init ?handles
  case init =>
    rintro w ⟨hbalance, hsent⟩
    exact .free hbalance hround (by rw [hsent]; simp)
  case handles => exact fun request w => handler_settles maxPerRequest request
  obtain ⟨owned, hp⟩ := hinv.holds h
  have hidle : ∀ balance, p.store.balanceOf address = some balance → p.isIdle = true →
      balance + p.store.sentPoints address = initial := by
    intro balance hbalance hi
    obtain ⟨balance', hbalance', hsum⟩ := (hp.of_isIdle hi).of_free
    cases hbalance.symm.trans hbalance'
    exact hsum
  have hI := hp.invariant
  generalize ∑ i ∈ Finset.range p.running.length, owned i = own at hI
  cases hI with
  | free hbalance _ hsum => exact ⟨_, hbalance, hsum.le, hidle _ hbalance⟩
  | @pending balance hone _ hbalance hsum =>
    have hpos : (0 : ℚ) ≤ ⌊balance⌋ := by exact_mod_cast Int.floor_nonneg.mpr (by linarith)
    exact ⟨_, hbalance, by linarith, hidle _ hbalance⟩

instance (address : String) :
    (label : Label) → (w : World) → Decidable (conversionGuard address label w)
  | .removing _ _, _ | .restoring _ _ _, _ => inferInstanceAs (Decidable (_ → _))
  | .read, _ | .write, _ | .reserving _ _ _, _ | .pushing _ _ _, _ | .collecting _, _ | .savingPush _, _
  | .delivering _ _, _ | .savingCallback _, _ | .providing _, _ | .requeueing _, _ => .isTrue trivial

namespace Sample

def saver : World where
  accounts := KVStore.empty.set "bob" { balance := 2500 }

def conversionOf (transfer : Transfer) : Request :=
  .convert {
    address     := "bob"
    hasBadge    := true
    allowAnyDay := true
    now         := 0
    param       := 1000
    pointPrice  := 1
    transfer    := transfer
    provision   := .added "add" 1 none
  }

def saved (actions : List (Action Request)) : Pool Label World :=
  Pool.execs (Request.handler 500000) { store := saver, running := [] } actions

-- A transfer fails, and the next one is confirmed.
def retried : List (Action Request) :=
  inTurn 4 [conversionOf (.failed false), conversionOf .confirmed]

-- Two requests read the same balance.
def overlapping : List (Action Request) :=
  [.start (conversionOf .confirmed), .start (conversionOf .confirmed), .run 0, .run 1, .run 0, .run 1,
    .run 0, .run 1]

theorem saver_init : saver.balanceOf "bob" = some 2500 ∧ saver.sentPoints "bob" = 0 := by
  decide +kernel

end Sample

theorem retried_settled_once : SettledOnce "bob" 2500 (Sample.saved Sample.retried) :=
  conversion_settled_once 500000 "bob" 2500 (by decide +kernel)
    (run_from Sample.saver_init (by decide +kernel))

-- The coins of the same points are sent to both requests.
theorem overlapping_conversions_pay_twice :
    ¬∀ (maxPerRequest : ℚ) (address : String) (initial : ℚ), Binary64.round initial = initial →
      ∀ p : Pool Label World, (conversionSystem maxPerRequest address initial).Reachable p →
      SettledOnce address initial p := by
  intro h
  obtain ⟨balance, hbalance, hle, _⟩ := h 500000 "bob" 2500 (by decide +kernel)
    (Sample.saved Sample.overlapping) (reachable_from Sample.saver_init)
  have hzero : (Sample.saved Sample.overlapping).store.balanceOf "bob" = some 0 := by
    decide +kernel
  have hsent : (Sample.saved Sample.overlapping).store.sentPoints "bob" = 5000 := by
    decide +kernel
  rw [hzero] at hbalance
  cases hbalance
  rw [hsent] at hle
  norm_num at hle

end Trade
