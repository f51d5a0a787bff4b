import MallChain.Trade.Provisions

namespace Trade

open Interleaving

variable {w : World} {quoteId id : String} {C : String → Prop} {T : Target → Prop} {label : Label}
  {update : World → World} {target : Target}

section Purchases

namespace World

variable (w : World) (quoteId : String)

def hasStatus (status : PurchaseStatus) : Bool :=
  (w.purchases.get quoteId).any (·.status = status)

def hasError : Bool :=
  (w.purchases.get quoteId).any (·.liquidityError.isSome)

def isRecorded : Bool :=
  (w.reconciliations.get quoteId).isSome

-- A purchase that was credited without its liquidity, and of which no record is created.
def isLacking : Bool :=
  w.hasStatus quoteId .credited && w.hasError quoteId && !w.isRecorded quoteId

-- Liquidity may be added by a credit or by a compensation that is still to come.
def mayProvide : ℕ :=
  if w.isClaimed quoteId && !w.isLacking quoteId then 0 else 1

-- No program is about to save a credit.
def unsealed : ℕ :=
  if w.hasStatus quoteId .processing then 0 else 1

end World

-- What a program has found of a purchase holds from then on.
structure Advances (quoteId : String) (w w' : World) : Prop where
  claimed  : w.isClaimed quoteId = true → w'.isClaimed quoteId = true
  credited : w.hasStatus quoteId .credited = true → w'.hasStatus quoteId .credited = true
  recorded : w.isRecorded quoteId = true → w'.isRecorded quoteId = true
  clean    : w.isClaimed quoteId = true → w.hasError quoteId = false ∨ w.isRecorded quoteId = true →
    w'.hasError quoteId = false ∨ w'.isRecorded quoteId = true
  lacking  : w.isLacking quoteId = true → w'.isLacking quoteId = true ∨ w'.isRecorded quoteId = true

theorem Advances.refl : Advances quoteId w w where
  claimed h  := h
  credited h := h
  recorded h := h
  clean _ h  := h
  lacking h  := .inl h

theorem Advances.record {e : Event} : Advances quoteId w (w.record e) where
  claimed h  := h
  credited h := h
  recorded h := h
  clean _ h  := h
  lacking h  := .inl h

theorem Advances.trans {w' w'' : World} (h : Advances quoteId w w') (h' : Advances quoteId w' w'') :
    Advances quoteId w w'' where
  claimed hw    := h'.claimed (h.claimed hw)
  credited hw   := h'.credited (h.credited hw)
  recorded hw   := h'.recorded (h.recorded hw)
  clean hc hw   := h'.clean (h.claimed hc) (h.clean hc hw)
  lacking hw    := by
    rcases h.lacking hw with hl | hr
    · exact h'.lacking hl
    · exact .inr (h'.recorded hr)

-- A program owns the liquidity of a purchase that it may still add, and the save of its credit.
structure Provided (quoteId : String) (w : World) (owned : ℕ × ℕ) : Prop where
  once   : w.provisions (.purchase quoteId) + owned.1 + w.mayProvide quoteId ≤ 1
  sealed : owned.2 + w.unsealed quoteId ≤ 1

def purchaseContract (quoteId : String) : Contract Label World (ℕ × ℕ) where
  invariant  := Provided quoteId
  grows      := Advances quoteId
  guard      := provisionGuard
  refl _     := .refl
  trans h h' := h.trans h'

-- Nothing of a purchase is changed that matters for its liquidity.
structure SamePurchase (quoteId : String) (w w' : World) : Prop where
  claimed    : w'.isClaimed quoteId = w.isClaimed quoteId
  status     : ∀ status, status.isClaimed = true →
    w'.hasStatus quoteId status = w.hasStatus quoteId status
  error      : w.isClaimed quoteId = true → w'.hasError quoteId = w.hasError quoteId
  recorded   : w'.isRecorded quoteId = w.isRecorded quoteId
  provisions : w'.provisions (.purchase quoteId) = w.provisions (.purchase quoteId)

theorem isClaimed_of_hasStatus {status : PurchaseStatus} (hs : status.isClaimed = true)
    (h : w.hasStatus quoteId status = true) : w.isClaimed quoteId = true := by
  rw [World.hasStatus] at h
  rw [World.isClaimed]
  cases hget : w.purchases.get quoteId with
  | none =>
    rw [hget] at h
    cases h
  | some p =>
    rw [hget, Option.any_some, decide_eq_true_eq] at h
    rw [Option.any_some, h, hs]

theorem hasStatus_of_unclaimed {status : PurchaseStatus} (hs : status.isClaimed = true)
    (h : w.isClaimed quoteId = false) : w.hasStatus quoteId status = false := by
  cases hw : w.hasStatus quoteId status with
  | false => rfl
  | true  => exact Bool.noConfusion (h.symm.trans (isClaimed_of_hasStatus hs hw))

namespace SamePurchase

variable {w' : World} {owned : ℕ × ℕ}

theorem isLacking (h : SamePurchase quoteId w w') : w'.isLacking quoteId = w.isLacking quoteId := by
  rw [World.isLacking, World.isLacking, h.status .credited rfl, h.recorded]
  cases hc : w.hasStatus quoteId .credited with
  | false => rfl
  | true  => rw [h.error (isClaimed_of_hasStatus rfl hc)]

theorem provided (h : SamePurchase quoteId w w') (hp : Provided quoteId w owned) :
    Provided quoteId w' owned where
  once   := by
    rw [h.provisions, World.mayProvide, h.claimed, h.isLacking]
    exact hp.once
  sealed := by
    rw [World.unsealed, h.status .processing rfl]
    exact hp.sealed

theorem advances (h : SamePurchase quoteId w w') : Advances quoteId w w' where
  claimed hw  := by rwa [h.claimed]
  credited hw := by rwa [h.status .credited rfl]
  recorded hw := by rwa [h.recorded]
  clean hc hw := by rwa [h.error hc, h.recorded]
  lacking hw  := .inl (by rwa [h.isLacking])

theorem of_eq (hpurchases : w'.purchases.get quoteId = w.purchases.get quoteId)
    (hrecorded : w'.isRecorded quoteId = w.isRecorded quoteId)
    (hprovisions : w'.provisions (.purchase quoteId) = w.provisions (.purchase quoteId)) :
    SamePurchase quoteId w w' where
  claimed         := by rw [World.isClaimed, World.isClaimed, hpurchases]
  status _ _      := by rw [World.hasStatus, World.hasStatus, hpurchases]
  error _         := by rw [World.hasError, World.hasError, hpurchases]
  recorded        := hrecorded
  provisions      := hprovisions

-- What is not claimed before and after does not matter.
theorem of_unclaimed (h : w.isClaimed quoteId = false) (h' : w'.isClaimed quoteId = false)
    (hrecorded : w'.isRecorded quoteId = w.isRecorded quoteId)
    (hprovisions : w'.provisions (.purchase quoteId) = w.provisions (.purchase quoteId)) :
    SamePurchase quoteId w w' where
  claimed         := by rw [h, h']
  status _ hs     := by
    rw [hasStatus_of_unclaimed hs h, hasStatus_of_unclaimed hs h']
  error hc        := Bool.noConfusion (h.symm.trans hc)
  recorded        := hrecorded
  provisions      := hprovisions

theorem updatePurchase_ne {f : MallcoinPurchase → MallcoinPurchase} (h : quoteId ≠ id) :
    SamePurchase quoteId w (w.updatePurchase id f) := by
  rw [World.updatePurchase]
  split
  case h_2 => exact .of_eq rfl rfl rfl
  case h_1 => exact .of_eq (KVStore.get_set_ne h) rfl rfl

theorem updateReconciliation {f : LiquidityReconciliation → LiquidityReconciliation} :
    SamePurchase quoteId w (w.updateReconciliation id f) := by
  rw [World.updateReconciliation]
  split
  case h_2 => exact .of_eq rfl rfl rfl
  case h_1 recon hget =>
    refine .of_eq rfl ?_ rfl
    dsimp only [World.isRecorded]
    rw [KVStore.get_set]
    split_ifs with heq
    case pos => rw [heq, hget]; rfl
    case neg => rfl

theorem savePurchase {d : Document MallcoinPurchase} (hd : d.current.status.isClaimed = false)
    (h : w.isClaimed id = false) : SamePurchase quoteId w (w.updatePurchase id (Trade.savePurchase d)) := by
  by_cases heq : quoteId = id
  case neg => exact updatePurchase_ne heq
  case pos =>
    subst heq
    refine of_unclaimed h ?_ ?_ (provisions_of_events events_updatePurchase)
    · rw [isClaimed_savePurchase hd h, h]
    · rw [World.updatePurchase]
      split <;> rfl

end SamePurchase

-- What a request leaves of the purchases that are not its own.
theorem Effect.samePurchase (h : Effect C T label update) (hC : ¬C quoteId) (hT : ¬T (.purchase quoteId))
    (hg : saveGuard label w) : SamePurchase quoteId w (update w) := by
  have hne : ∀ {id}, T (.purchase id) → quoteId ≠ id := by
    rintro id hid rfl
    exact hT hid
  have hneC : ∀ {id}, C id → quoteId ≠ id := by
    rintro id hid rfl
    exact hC hid
  cases h with
  | silent => exact .of_eq rfl rfl rfl
  | @reserve id purchase _ hpending =>
    rw [insertPurchase]
    split
    case h_1 => exact .of_eq rfl rfl rfl
    case h_2 hget =>
      by_cases heq : quoteId = id
      case neg => exact .of_eq (KVStore.get_set_ne heq) rfl (provisions_record (by simp))
      case pos =>
        refine .of_unclaimed ?_ ?_ rfl (provisions_record (by simp))
        · rw [World.isClaimed, heq, hget]
          rfl
        · rw [World.isClaimed, heq, World.record, KVStore.get_set_self, Option.any_some, hpending]
          rfl
  | push => exact .of_eq rfl rfl (provisions_record (by simp))
  | savePush hstatus _ _ _ => exact .savePurchase (by rw [hstatus]; rfl) hg
  | collect paymentId hu =>
    rcases hu w with hw | hw
    · rw [hw]
      exact .of_eq rfl rfl rfl
    · rw [hw]
      exact .of_eq rfl rfl (provisions_record (by simp))
  | saveCallback hstatus _ _ _ =>
    refine .savePurchase ?_ hg
    rcases hstatus with hs | hs
    · rw [hs]
      rfl
    · rw [hs]
      rfl
  | acknowledge => exact .of_eq rfl rfl (provisions_record (by simp))
  | claim hid =>
    rw [Trade.claim]
    split
    case h_2 => exact .of_eq rfl rfl rfl
    case h_1 =>
      split_ifs
      case pos => exact .of_eq (KVStore.get_set_ne (hneC hid)) rfl rfl
      case neg => exact .of_eq rfl rfl rfl
  | credit _ => exact .of_eq rfl rfl (provisions_record (by simp))
  | provide ht =>
    dsimp only
    split_ifs
    case pos =>
      refine .of_eq rfl rfl (provisions_record fun amount0 amount1 heq => ?_)
      cases heq
      exact hT ht
    case neg => exact .of_eq rfl rfl rfl
  | settle hid he =>
    cases he with
    | provide =>
      dsimp only
      split_ifs
      case pos =>
        refine .of_eq rfl rfl (provisions_record fun amount0 amount1 heq => ?_)
        cases heq
        exact hC hid
      case neg => exact .of_eq rfl rfl rfl
    | ensure =>
      refine .of_eq rfl ?_ rfl
      rw [World.isRecorded, World.isRecorded, ensureLiquidityReconciliation,
        KVStore.get_set_ne (hneC hid)]
    | save _ _ => exact .updatePurchase_ne (hneC hid)
  | detect hid =>
    rw [insertReconciliation]
    split_ifs
    case pos =>
      refine .of_eq rfl ?_ rfl
      rw [World.isRecorded, World.isRecorded, KVStore.get_set_ne (hne hid)]
    case neg => exact .of_eq rfl rfl rfl
  | attempt => exact .of_eq rfl rfl (provisions_record (by simp))
  | reconcile => exact .updateReconciliation
  | saveCompensation hid _ _ _ => exact .updatePurchase_ne (hne hid)
  | remove acc _ =>
    dsimp only [beginConversion, World.updateAccount]
    split <;> exact .of_eq rfl rfl rfl
  | send => exact .of_eq rfl rfl (provisions_record (by simp))
  | restore acc =>
    dsimp only [World.updateAccount]
    split <;> exact .of_eq rfl rfl rfl
  | enqueue _ => exact .of_eq rfl rfl rfl
  | take _ => exact .of_eq rfl rfl rfl

theorem saveGuard_of_provisionGuard (h : provisionGuard label w) : saveGuard label w := by
  cases label with
  | requeueing provision => trivial
  | _ => exact h

theorem SamePurchase.keeps (h : ∀ w, provisionGuard label w → SamePurchase quoteId w (update w)) :
    (purchaseContract quoteId).Keeps label update :=
  fun w _ hg hI => ⟨(h w hg).provided hI, (h w hg).advances⟩

theorem Effect.keeps_purchase (h : Effect C T label update) (hC : ¬C quoteId)
    (hT : ¬T (.purchase quoteId)) : (purchaseContract quoteId).Keeps label update :=
  SamePurchase.keeps fun _ hg => h.samePurchase hC hT (saveGuard_of_provisionGuard hg)

theorem isLacking_of_recorded (h : w.isRecorded quoteId = true) : w.isLacking quoteId = false := by
  rw [World.isLacking, h, Bool.not_true, Bool.and_false]

theorem isClaimed_of_isLacking (h : w.isLacking quoteId = true) : w.isClaimed quoteId = true := by
  rw [World.isLacking, Bool.and_eq_true, Bool.and_eq_true] at h
  exact isClaimed_of_hasStatus rfl h.1.1

theorem mayProvide_le {w' : World} (hclaimed : w.isClaimed quoteId = true → w'.isClaimed quoteId = true)
    (hlacking : w'.isLacking quoteId = true → w.isLacking quoteId = true) :
    w'.mayProvide quoteId ≤ w.mayProvide quoteId := by
  rw [World.mayProvide, World.mayProvide]
  cases hc : w.isClaimed quoteId with
  | false =>
    simp only [Bool.false_and, Bool.false_eq_true, if_false]
    split_ifs <;> omega
  | true =>
    rw [hclaimed hc]
    cases hl : w'.isLacking quoteId with
    | false => simp
    | true  => rw [hlacking hl]

section Reconcile

variable {owned : ℕ × ℕ} {f : Unit → Handler Unit}

-- The compensations of a purchase that are still to come.
def owed (quoteId : String) (l : List (String × LiquidityReconciliation)) : ℕ :=
  l.countP fun e => e.1 = quoteId ∧ e.2.status = .detected

def isFound (quoteId : String) (w : World) : Prop :=
  w.isLacking quoteId = true ∨ w.isRecorded quoteId = true

theorem Advances.isFound {w' : World} (h : Advances quoteId w w') (hw : isFound quoteId w) :
    isFound quoteId w' := by
  rcases hw with hl | hr
  · exact h.lacking hl
  · exact .inr (h.recorded hr)

-- A record is created for a purchase that lacks its liquidity, which is then owed.
theorem insertReconciliation_provided (recon : LiquidityReconciliation) {owed : ℕ}
    (hfound : isFound quoteId w) (hnew : (w.reconciliations.get quoteId).isNone = true)
    (hI : Provided quoteId w owned) (howed : owed ≤ owned.1 + 1) :
    Provided quoteId (insertReconciliation quoteId recon w) (owed, owned.2) ∧
      Advances quoteId w (insertReconciliation quoteId recon w) ∧
      (insertReconciliation quoteId recon w).isRecorded quoteId = true := by
  have hrecorded : w.isRecorded quoteId = false := by
    rw [World.isRecorded, ← Option.not_isNone, hnew, Bool.not_true]
  have hlacking : w.isLacking quoteId = true := by
    rcases hfound with hl | hr
    · exact hl
    · exact Bool.noConfusion (hrecorded.symm.trans hr)
  have hclaimed : w.isClaimed quoteId = true := isClaimed_of_isLacking hlacking
  rw [insertReconciliation, if_pos hnew]
  have hrecorded' : World.isRecorded { w with reconciliations := w.reconciliations.set quoteId recon }
      quoteId = true := by
    rw [World.isRecorded, KVStore.get_set_self]
    rfl
  refine ⟨{ once := ?once, sealed := hI.sealed }, ?advances, hrecorded'⟩
  case once =>
    have hbefore : w.mayProvide quoteId = 1 := by
      rw [World.mayProvide, hclaimed, hlacking]
      rfl
    have hafter : World.mayProvide { w with reconciliations := w.reconciliations.set quoteId recon }
        quoteId = 0 := by
      rw [World.mayProvide, isLacking_of_recorded hrecorded', Bool.not_false, Bool.and_true]
      exact if_pos hclaimed
    have hp : World.provisions { w with reconciliations := w.reconciliations.set quoteId recon }
        (.purchase quoteId) = w.provisions (.purchase quoteId) := rfl
    have honce := hI.once
    rw [hafter, hp]
    rw [hbefore] at honce
    omega
  case advances =>
    exact {
      claimed  := fun h => h
      credited := fun h => h
      recorded := fun _ => hrecorded'
      clean    := fun _ _ => .inr hrecorded'
      lacking  := fun _ => .inr hrecorded'
    }

theorem owed_append {l l' : List (String × LiquidityReconciliation)} :
    owed quoteId (l ++ l') = owed quoteId l + owed quoteId l' :=
  List.countP_append ..

theorem Provided.weaken {owned' : ℕ × ℕ} (h : Provided quoteId w owned) (h₁ : owned'.1 ≤ owned.1)
    (h₂ : owned'.2 ≤ owned.2) : Provided quoteId w owned' where
  once   := by
    have := h.once
    omega
  sealed := by
    have := h.sealed
    omega

-- What was detected is owed, and has a record.
theorem detectEach_safe {l : List (String × MallcoinPurchase)}
    {results : List (String × LiquidityReconciliation)}
    (hl : ∀ e ∈ l, e.1 = quoteId → isFound quoteId w)
    (hr : ∀ e ∈ results, e.1 = quoteId → w.isRecorded quoteId = true) :
    (purchaseContract quoteId).Safe (fun results w own => own = (owed quoteId results, 0) ∧
      ∀ e ∈ results, e.1 = quoteId → w.isRecorded quoteId = true)
      (detectEach l results) w (owed quoteId results, 0) := by
  induction l generalizing results w with
  | nil => exact ⟨rfl, hr⟩
  | cons e rest ih =>
    apply Contract.Safe.read
    intro w₁ hgrows₁ _
    have hl₁ : ∀ e' ∈ e :: rest, e'.1 = quoteId → isFound quoteId w₁ :=
      fun e' he heq => hgrows₁.isFound (hl e' he heq)
    have hr₁ : ∀ e' ∈ results, e'.1 = quoteId → w₁.isRecorded quoteId = true :=
      fun e' he heq => hgrows₁.recorded (hr e' he heq)
    refine Contract.Safe.ite (fun _ => ih (fun e' he => hl₁ e' (List.mem_cons_of_mem _ he)) hr₁) fun _ => ?_
    apply Contract.Safe.act
    intro w₂ hgrows₂ hg others hI
    have hl₂ : ∀ e' ∈ e :: rest, e'.1 = quoteId → isFound quoteId w₂ :=
      fun e' he heq => hgrows₂.isFound (hl₁ e' he heq)
    have hr₂ : ∀ e' ∈ results, e'.1 = quoteId → w₂.isRecorded quoteId = true :=
      fun e' he heq => hgrows₂.recorded (hr₁ e' he heq)
    cases hnew : (w₂.reconciliations.get e.1).isNone with
    | false =>
      refine ⟨(0, 0), ?_, ?_, rfl, by simp⟩
      · rw [insertReconciliation, hnew]
        exact hI.weaken (by simp) (by simp)
      · rw [insertReconciliation, hnew]
        exact .refl
    | true =>
      by_cases heq : e.1 = quoteId
      case pos =>
        have hle : owed quoteId results + 1 + others.1 ≤ ((owed quoteId results, 0) + others).1 + 1 := by
          simp only [Prod.fst_add]
          omega
        rw [heq]
        obtain ⟨hprovided, hgrows, hrecorded⟩ := insertReconciliation_provided (detectedFrom e.2)
          (hl₂ e (List.mem_cons_self ..) heq) (heq ▸ hnew) hI hle
        have howed : owed quoteId (results ++ [(quoteId, detectedFrom e.2)]) = owed quoteId results + 1 := by
          rw [owed_append]
          congr 1
          rw [owed, List.countP_cons_of_pos (by simp [detectedFrom])]
          rfl
        refine ⟨(owed quoteId results + 1, 0), hprovided, hgrows, ?_⟩
        rw [if_pos (Eq.refl true), ← howed]
        refine ih (fun e' he heq' => hgrows.isFound (hl₂ e' (List.mem_cons_of_mem _ he) heq')) ?_
        exact fun _ _ _ => hrecorded
      case neg =>
        have heffect : Effect (fun _ => False) (· = .purchase e.1) .write
            (insertReconciliation e.1 (detectedFrom e.2)) := .detect rfl
        have hkeeps : (purchaseContract quoteId).Keeps .write
            (insertReconciliation e.1 (detectedFrom e.2)) :=
          heffect.keeps_purchase (fun h => h) fun h => heq (Target.purchase.inj h).symm
        obtain ⟨hprovided, hgrows⟩ := hkeeps w₂ _ hg hI
        have howed : owed quoteId (results ++ [(e.1, detectedFrom e.2)]) = owed quoteId results := by
          rw [owed_append]
          have hz : owed quoteId [(e.1, detectedFrom e.2)] = 0 := by
            rw [owed, List.countP_cons_of_neg (by simp [heq])]
            rfl
          rw [hz, add_zero]
        refine ⟨(owed quoteId results, 0), hprovided, hgrows, ?_⟩
        rw [if_pos (Eq.refl true), ← howed]
        refine ih (fun e' he heq' => hgrows.isFound (hl₂ e' (List.mem_cons_of_mem _ he) heq')) ?_
        intro e' he heq'
        rcases List.mem_append.mp he with he | he
        · exact hgrows.recorded (hr₂ e' he heq')
        · rw [List.mem_singleton.mp he] at heq'
          exact absurd heq' heq

theorem reconcile_keeps {f : LiquidityReconciliation → LiquidityReconciliation} :
    (purchaseContract quoteId).Keeps .write (·.updateReconciliation id f) :=
  SamePurchase.keeps fun _ _ => .updateReconciliation

-- A purchase with a record may be saved without its error.
theorem saveCompensation_keeps {d : Document MallcoinPurchase}
    (hs : d.current.status = d.loaded.status) :
    (purchaseContract quoteId).KeepsWhere (·.isRecorded quoteId = true) .write
      (·.updatePurchase quoteId (savePurchase d)) := by
  intro w own hrecorded _ hI
  have hclaimed : (w.updatePurchase quoteId (savePurchase d)).isClaimed quoteId = w.isClaimed quoteId :=
    isClaimed_keepStatus hs
  have hstatus : ∀ status, (w.updatePurchase quoteId (savePurchase d)).hasStatus quoteId status =
      w.hasStatus quoteId status := by
    intro status
    rw [World.hasStatus, World.hasStatus, World.updatePurchase]
    split
    case h_2 hget => rfl
    case h_1 p hget => rw [KVStore.get_set_self, hget, Option.any_some, Option.any_some, savePurchase,
      Document.written_stored hs]
  have hrecorded' : (w.updatePurchase quoteId (savePurchase d)).isRecorded quoteId = true := by
    rw [World.updatePurchase]
    split <;> exact hrecorded
  refine ⟨{ once := ?once, sealed := ?sealed }, ?advances⟩
  case once =>
    rw [provisions_of_events events_updatePurchase, World.mayProvide, hclaimed,
      isLacking_of_recorded hrecorded']
    have honce := hI.once
    rwa [World.mayProvide, isLacking_of_recorded hrecorded] at honce
  case sealed =>
    rw [World.unsealed, hstatus]
    exact hI.sealed
  case advances =>
    exact {
      claimed  := fun h => by rwa [hclaimed]
      credited := fun h => by rwa [hstatus]
      recorded := fun _ => hrecorded'
      clean    := fun _ _ => .inr hrecorded'
      lacking  := fun _ => .inr hrecorded'
    }

theorem finishCompensation_keeps {txHash : String} {lpTokens : ℚ} {poolId : ℕ}
    {purchase : Option MallcoinPurchase} {outcome : CompensationOutcome} :
    (finishCompensation quoteId txHash lpTokens poolId purchase outcome).Steps
      ((purchaseContract quoteId).KeepsWhere (·.isRecorded quoteId = true)) := by
  have hreconcile : ∀ f, (purchaseContract quoteId).KeepsWhere (·.isRecorded quoteId = true) .write
      (World.updateReconciliation · quoteId f) :=
    fun f w own _ hg hI => reconcile_keeps w own hg hI
  unfold finishCompensation
  split
  case h_1 => exact .write (hreconcile _)
  case h_2 =>
    refine .bind (.write (hreconcile _)) fun _ => ?_
    split
    case h_1 => trivial
    case h_2 purchase =>
      split
      case h_1 => exact .write (hreconcile _)
      case h_2 => exact .write (saveCompensation_keeps rfl)

-- What was owed for a purchase is used by its attempt.
theorem provide_purchase {α : Type} {post : α → World → ℕ × ℕ → Prop} {f : Unit → Handler α} {n m : ℕ}
    {amount0 amount1 : ℚ} {provision : Provision}
    (hf : ∀ w', Advances quoteId w w' → (purchaseContract quoteId).Safe post (f ()) w' (n, m)) :
    (purchaseContract quoteId).Safe post
      (provide (.purchase quoteId) amount0 amount1 provision >>= f) w (n + 1, m) := by
  apply Contract.Safe.write
  intro w' hgrows _ others hI
  have hweaken : Provided quoteId w' ((n, m) + others) :=
    hI.weaken (by simp only [Prod.fst_add]; omega) (by simp)
  split_ifs
  case neg => exact ⟨(n, m), hweaken, .refl, hf w' hgrows⟩
  case pos =>
    refine ⟨(n, m), { once := ?once, sealed := hweaken.sealed }, .record,
      hf _ (hgrows.trans .record)⟩
    case once =>
      have honce := hI.once
      have hm : (w'.record (.provided (.purchase quoteId) amount0 amount1)).mayProvide quoteId =
          w'.mayProvide quoteId := rfl
      rw [provisions_provided, hm]
      simp only [Prod.fst_add] at honce ⊢
      omega

theorem compensateFailedLiquidity_safe {recon : LiquidityReconciliation} {outcome : CompensationOutcome}
    {n : ℕ} (hrecorded : w.isRecorded quoteId = true) :
    (purchaseContract quoteId).Safe (fun _ w own => own = (n, 0) ∧ w.isRecorded quoteId = true)
      (compensateFailedLiquidity quoteId recon outcome) w (n + owed quoteId [(quoteId, recon)], 0) := by
  have hK : ∀ {w w' : World}, Advances quoteId w w' → w.isRecorded quoteId = true →
      w'.isRecorded quoteId = true := fun hgrows => hgrows.recorded
  by_cases hdetected : recon.status = .detected
  case neg =>
    have howed : owed quoteId [(quoteId, recon)] = 0 := by
      rw [owed, List.countP_cons_of_neg (by simp [hdetected])]
      rfl
    rw [compensateFailedLiquidity, if_pos hdetected, howed]
    exact ⟨rfl, hrecorded⟩
  case pos =>
    have howed : owed quoteId [(quoteId, recon)] = 1 := by
      rw [owed, List.countP_cons_of_pos (by simp [hdetected])]
      rfl
    rw [compensateFailedLiquidity, if_neg (not_not.mpr hdetected), howed]
    refine Contract.Safe.bind_keeps (.write reconcile_keeps) fun _ w₁ hgrows₁ => ?_
    apply Contract.Safe.read
    intro w₂ hgrows₂ _
    have hattempt : (purchaseContract quoteId).Keeps .write (·.record (.attempted quoteId)) :=
      SamePurchase.keeps fun _ _ => .of_eq rfl rfl (provisions_record (by simp))
    refine Contract.Safe.bind_keeps (.write hattempt) fun _ w₃ hgrows₃ => ?_
    apply provide_purchase
    intro w₄ hgrows₄
    have hrecorded₄ := hK hgrows₄ (hK hgrows₃ (hK hgrows₂ (hK hgrows₁ hrecorded)))
    split
    case h_1 =>
      refine Contract.Safe.of_keepsWhere hK (.write fun w own _ hg hI => ?_) hrecorded₄
      exact reconcile_keeps w own hg hI
    case h_2 => exact Contract.Safe.of_keepsWhere hK finishCompensation_keeps hrecorded₄

theorem compensateEach_handles {outcome : String → CompensationOutcome}
    {l : List (String × LiquidityReconciliation)}
    (hl : ∀ e ∈ l, e.1 = quoteId → w.isRecorded quoteId = true) :
    (purchaseContract quoteId).Handles (compensateEach outcome l) w (owed quoteId l, 0) := by
  induction l generalizing w with
  | nil => exact Contract.Handles.done
  | cons e rest ih =>
    have howed : owed quoteId (e :: rest) = owed quoteId rest + owed quoteId [e] := by
      rw [add_comm]
      exact owed_append (l := [e])
    have hrest : ∀ e' ∈ rest, e'.1 = quoteId → w.isRecorded quoteId = true :=
      fun e' he => hl e' (List.mem_cons_of_mem _ he)
    rw [howed]
    by_cases heq : e.1 = quoteId
    case pos =>
      subst heq
      apply Contract.Safe.bind
      apply (compensateFailedLiquidity_safe (hl e (List.mem_cons_self ..) rfl)).imp
      rintro _ w' own hpost
      rw [hpost.1]
      exact ih fun _ _ _ => hpost.2
    case neg =>
      have hz : owed quoteId [e] = 0 := by
        rw [owed, List.countP_cons_of_neg (by simp [heq])]
        rfl
      rw [hz, add_zero]
      have hsteps : (compensateFailedLiquidity e.1 e.2 (outcome e.1)).Steps
          (purchaseContract quoteId).Keeps :=
        (compensateFailedLiquidity_steps (C := fun _ => False) (T := (· = .purchase e.1)) rfl).mono
          fun he => he.keeps_purchase (fun h => h) fun h => heq (Target.purchase.inj h).symm
      refine Contract.Safe.bind_keeps hsteps fun _ w' hgrows => ih fun e' he heq' => ?_
      exact hgrows.recorded (hrest e' he heq')

theorem runReconciliationJob_handles {outcome : String → CompensationOutcome} :
    (purchaseContract quoteId).Handles (runReconciliationJob outcome) w 0 := by
  apply Contract.Safe.bind
  apply Contract.Safe.read
  intro w₁ _ _
  have hfound : ∀ e ∈ w₁.purchases.entries.filter (·.2.lacksLiquidity), e.1 = quoteId →
      isFound quoteId w₁ := by
    intro e he heq
    obtain ⟨hmem, hlacks⟩ := List.mem_filter.mp he
    have hget : w₁.purchases.get quoteId = some e.2 := KVStore.mem_entries_iff.mp (heq ▸ hmem)
    rw [MallcoinPurchase.lacksLiquidity, decide_eq_true_eq] at hlacks
    cases hrecorded : w₁.isRecorded quoteId with
    | true  => exact .inr hrecorded
    | false =>
      left
      rw [World.isLacking, World.hasStatus, World.hasError, hget, hrecorded, Option.any_some,
        Option.any_some, hlacks.1, hlacks.2.1]
      rfl
  have hnone : ∀ e ∈ ([] : List (String × LiquidityReconciliation)), e.1 = quoteId →
      w₁.isRecorded quoteId = true := by simp
  apply (detectEach_safe hfound hnone).imp
  rintro results w₂ own hpost
  rw [hpost.1]
  exact compensateEach_handles hpost.2

end Reconcile

section Credit

variable {owned : ℕ × ℕ} {txHash : String} {purchase : MallcoinPurchase} {provision : Provision}

-- What a claimed purchase still has of an error from before has a record, unless it is removed.
def isClean (quoteId : String) (purchase : MallcoinPurchase) (w : World) : Prop :=
  w.isClaimed quoteId = true ∧
    (purchase.liquidityError = none → w.hasError quoteId = false ∨ w.isRecorded quoteId = true)

theorem Advances.isClean {w' : World} (h : Advances quoteId w w') (hw : isClean quoteId purchase w) :
    isClean quoteId purchase w' :=
  ⟨h.claimed hw.1, fun he => h.clean hw.1 (hw.2 he)⟩

theorem stored_of_sealed (hI : Provided quoteId w owned) (h : 0 < owned.2) :
    owned.2 = 1 ∧ ∃ stored, w.purchases.get quoteId = some stored ∧ stored.status = .processing := by
  have hsealed := hI.sealed
  rw [World.unsealed] at hsealed
  split_ifs at hsealed with hs
  case neg => omega
  case pos =>
    refine ⟨by omega, ?_⟩
    rw [World.hasStatus] at hs
    cases hget : w.purchases.get quoteId with
    | none =>
      rw [hget] at hs
      cases hs
    | some stored =>
      rw [hget, Option.any_some, decide_eq_true_eq] at hs
      exact ⟨stored, rfl, hs⟩

-- A credit is saved over a claim, and with an error only if there is a record.
theorem saveCredit_provided {d : Document MallcoinPurchase} {others : ℕ × ℕ} {n : ℕ}
    (hloaded : d.loaded.status = .processing) (hcurrent : d.current.status = .credited)
    (hclean : ∀ stored, w.purchases.get quoteId = some stored →
      d.written (·.liquidityError) stored = none ∨ w.isRecorded quoteId = true)
    (hI : Provided quoteId w ((n, 1) + others)) :
    Provided quoteId (w.updatePurchase quoteId (savePurchase d)) others ∧
      Advances quoteId w (w.updatePurchase quoteId (savePurchase d)) := by
  obtain ⟨hothers, stored, hget, hprocessing⟩ := stored_of_sealed hI (by simp only [Prod.snd_add]; omega)
  simp only [Prod.snd_add] at hothers
  have hclaimed : w.isClaimed quoteId = true := by
    rw [World.isClaimed, hget, Option.any_some, hprocessing]
    rfl
  have huncredited : w.hasStatus quoteId .credited = false := by
    rw [World.hasStatus, hget, Option.any_some, hprocessing]
    rfl
  have hstatus : (savePurchase d stored).status = .credited := by
    have hne : d.current.status ≠ d.loaded.status := by
      rw [hloaded, hcurrent]
      simp
    rw [savePurchase, Document.written_current hne, hcurrent]
  have hafter : w.updatePurchase quoteId (savePurchase d) =
      { w with purchases := w.purchases.set quoteId (savePurchase d stored) } := by
    rw [World.updatePurchase, hget]
  have hget' : (w.updatePurchase quoteId (savePurchase d)).purchases.get quoteId =
      some (savePurchase d stored) := by
    rw [hafter, KVStore.get_set_self]
  have hrecorded : (w.updatePurchase quoteId (savePurchase d)).isRecorded quoteId = w.isRecorded quoteId := by
    rw [hafter]
    rfl
  have hclaimed' : (w.updatePurchase quoteId (savePurchase d)).isClaimed quoteId = true := by
    rw [World.isClaimed, hget', Option.any_some, hstatus]
    rfl
  have hclean' : (w.updatePurchase quoteId (savePurchase d)).hasError quoteId = false ∨
      (w.updatePurchase quoteId (savePurchase d)).isRecorded quoteId = true := by
    rw [World.hasError, hget', Option.any_some, hrecorded]
    apply (hclean stored hget).imp_left
    intro herror
    rw [savePurchase, herror]
    rfl
  have hlacking' : (w.updatePurchase quoteId (savePurchase d)).isLacking quoteId = false := by
    rcases hclean' with he | hr
    · rw [World.isLacking, he, Bool.and_false, Bool.false_and]
    · exact isLacking_of_recorded hr
  refine ⟨{ once := ?once, sealed := ?sealed }, ?advances⟩
  case once =>
    have honce := hI.once
    rw [provisions_of_events events_updatePurchase, World.mayProvide, hclaimed', hlacking']
    simp only [Prod.fst_add, Bool.not_false, Bool.and_true, if_true] at honce ⊢
    omega
  case sealed =>
    rw [World.unsealed]
    split_ifs <;> omega
  case advances =>
    exact {
      claimed  := fun _ => hclaimed'
      credited := fun h => Bool.noConfusion (huncredited.symm.trans h)
      recorded := fun h => by rwa [hrecorded]
      clean    := fun _ _ => hclean'
      lacking  := by
        intro h
        rw [World.isLacking, huncredited, Bool.false_and, Bool.false_and] at h
        cases h
    }

theorem ensure_provided (hI : Provided quoteId w owned) :
    Provided quoteId (ensureLiquidityReconciliation quoteId txHash purchase w) owned ∧
      Advances quoteId w (ensureLiquidityReconciliation quoteId txHash purchase w) ∧
      (ensureLiquidityReconciliation quoteId txHash purchase w).isRecorded quoteId = true := by
  have hrecorded : (ensureLiquidityReconciliation quoteId txHash purchase w).isRecorded quoteId = true := by
    rw [World.isRecorded, ensureLiquidityReconciliation, KVStore.get_set_self]
    rfl
  refine ⟨{ once := ?once, sealed := hI.sealed }, ?advances, hrecorded⟩
  case once =>
    have hle : (ensureLiquidityReconciliation quoteId txHash purchase w).mayProvide quoteId ≤
        w.mayProvide quoteId := by
      have hclaimed : w.isClaimed quoteId = true →
          (ensureLiquidityReconciliation quoteId txHash purchase w).isClaimed quoteId = true := fun h => h
      apply mayProvide_le hclaimed
      intro h
      rw [isLacking_of_recorded hrecorded] at h
      cases h
    have hp : (ensureLiquidityReconciliation quoteId txHash purchase w).provisions (.purchase quoteId) =
        w.provisions (.purchase quoteId) := rfl
    have honce := hI.once
    omega
  case advances =>
    exact {
      claimed  := fun h => h
      credited := fun h => h
      recorded := fun _ => hrecorded
      clean    := fun _ _ => .inr hrecorded
      lacking  := fun _ => .inr hrecorded
    }

-- An error that the purchase had when it was claimed is removed, and it had none otherwise.
theorem written_of_isClean {d : Document MallcoinPurchase} {stored : MallcoinPurchase}
    (hloaded : d.loaded = purchase) (hcurrent : d.current.liquidityError = none)
    (hclean : isClean quoteId purchase w) (hget : w.purchases.get quoteId = some stored) :
    d.written (·.liquidityError) stored = none ∨ w.isRecorded quoteId = true := by
  by_cases he : purchase.liquidityError = none
  case pos =>
    apply (hclean.2 he).imp_left
    intro herror
    rw [World.hasError, hget, Option.any_some] at herror
    rcases d.written_or (·.liquidityError) stored with hw | hw
    · rw [hw]
      exact Option.isNone_iff_eq_none.mp (Option.isSome_eq_false_iff.mp herror)
    · rw [hw, hcurrent]
  case neg =>
    left
    rw [Document.written_current, hcurrent]
    rw [hcurrent, hloaded]
    exact Ne.symm he

theorem settleCredit_handles (hprocessing : purchase.status = .processing)
    (hclean : isClean quoteId purchase w) :
    (purchaseContract quoteId).Handles (settleCredit quoteId txHash purchase provision) w (1, 1) := by
  refine Contract.Safe.ite (fun _ => ?_) fun _ => ?_
  case refine_1 =>
    apply Contract.Handles.write
    intro w' hgrows _ others hI
    exact saveCredit_provided hprocessing rfl
      (fun stored hget => written_of_isClean rfl rfl (hgrows.isClean hclean) hget) hI
  case refine_2 =>
    apply provide_purchase
    intro w₁ hgrows₁
    have hcredited : (provision.applyTo (creditedBy txHash purchase)).status = .credited :=
      Provision.applyTo_status
    refine Contract.Safe.ite (fun _ => ?_) fun herror => ?_
    case refine_1 =>
      apply Contract.Safe.write
      intro w₂ _ _ others hI
      obtain ⟨hI', hgrows, hrecorded⟩ := ensure_provided hI
      refine ⟨(0, 1), hI', hgrows, ?_⟩
      apply Contract.Handles.write
      intro w₃ hgrows₃ _ others hI
      exact saveCredit_provided hprocessing hcredited (fun _ _ => .inr (hgrows₃.recorded hrecorded)) hI
    case refine_2 =>
      have hnone : (provision.applyTo (creditedBy txHash purchase)).liquidityError = none := by
        cases provision with
        | failed error effective => exact absurd rfl herror
        | added txHash lpTokens recordError =>
          cases recordError with
          | none       => rfl
          | some error => exact absurd rfl herror
      apply Contract.Handles.write
      intro w₂ hgrows₂ _ others hI
      have hclean₂ := hgrows₂.isClean (hgrows₁.isClean hclean)
      exact saveCredit_provided hprocessing hcredited
        (fun stored hget => written_of_isClean rfl hnone hclean₂ hget) hI

theorem claim_provided {stored : MallcoinPurchase} (hget : w.purchases.get quoteId = some stored)
    (hconfirmed : stored.status = .confirmed) (hI : Provided quoteId w owned) :
    Provided quoteId (claim quoteId w) ((1, 1) + owned) ∧ Advances quoteId w (claim quoteId w) ∧
      isClean quoteId { stored with status := .processing } (claim quoteId w) := by
  have hafter : claim quoteId w =
      { w with purchases := w.purchases.set quoteId { stored with status := .processing } } := by
    rw [claim, hget]
    exact if_pos hconfirmed
  have hget' : (claim quoteId w).purchases.get quoteId = some { stored with status := .processing } := by
    rw [hafter, KVStore.get_set_self]
  have hunclaimed : w.isClaimed quoteId = false := by
    rw [World.isClaimed, hget, Option.any_some, hconfirmed]
    rfl
  have hclaimed : (claim quoteId w).isClaimed quoteId = true := by
    rw [World.isClaimed, hget']
    rfl
  have hrecorded : (claim quoteId w).isRecorded quoteId = w.isRecorded quoteId := by
    rw [hafter]
    rfl
  refine ⟨{ once := ?once, sealed := ?sealed }, ?advances, hclaimed, fun herror => .inl ?clean⟩
  case once =>
    have hbefore : w.mayProvide quoteId = 1 := by
      rw [World.mayProvide, hunclaimed]
      rfl
    have hafter' : (claim quoteId w).mayProvide quoteId = 0 := by
      rw [World.mayProvide, hclaimed, World.isLacking, World.hasStatus, hget']
      rfl
    have hp : (claim quoteId w).provisions (.purchase quoteId) = w.provisions (.purchase quoteId) := by
      rw [hafter]
      rfl
    have honce := hI.once
    rw [hp, hafter']
    simp only [Prod.fst_add]
    omega
  case sealed =>
    have hbefore : w.unsealed quoteId = 1 := by
      rw [World.unsealed, hasStatus_of_unclaimed rfl hunclaimed]
      rfl
    have hafter' : (claim quoteId w).unsealed quoteId = 0 := by
      rw [World.unsealed, World.hasStatus, hget']
      rfl
    have hsealed := hI.sealed
    rw [hafter']
    simp only [Prod.snd_add]
    omega
  case advances =>
    exact {
      claimed  := fun _ => hclaimed
      credited := fun h => Bool.noConfusion (hunclaimed.symm.trans (isClaimed_of_hasStatus rfl h))
      recorded := fun h => by rwa [hrecorded]
      clean    := fun h _ => Bool.noConfusion (hunclaimed.symm.trans h)
      lacking  := fun h => Bool.noConfusion (hunclaimed.symm.trans (isClaimed_of_isLacking h))
    }
  case clean =>
    rw [World.hasError, hget', Option.any_some, herror]
    rfl

theorem handleReservedCredit_provides {walletAddress transfer : Option String} :
    (purchaseContract quoteId).Handles (handleReservedCredit quoteId walletAddress transfer provision)
      w 0 := by
  apply Contract.Safe.read
  intro w₁ _ _
  cases w₁.purchases.get quoteId with
  | none => exact Contract.Handles.done
  | some current =>
    refine Contract.Safe.ite (fun _ => Contract.Handles.done) fun _ => ?_
    refine Contract.Safe.ite (fun _ => Contract.Handles.done) fun _ => ?_
    apply Contract.Safe.act
    intro w₂ _ _ others hI
    cases hclaimed : claimed quoteId w₂ with
    | none =>
      rw [claim_of_unclaimed hclaimed]
      exact ⟨0, hI, .refl, Contract.Handles.done⟩
    | some purchase =>
      obtain ⟨stored, hget, hconfirmed, hpurchase⟩ := of_claimed hclaimed
      rw [zero_add] at hI
      obtain ⟨hI', hgrows, hclean⟩ := claim_provided hget hconfirmed hI
      rw [← hpurchase] at hclean
      refine ⟨(1, 1), hI', hgrows, ?_⟩
      apply Contract.Safe.write
      intro w₃ hgrows₃ _ others hI
      have hsame : SamePurchase quoteId w₃ (w₃.record (.credited quoteId purchase.amount)) :=
        .of_eq rfl rfl (provisions_record (by simp))
      cases transfer with
      | none =>
        refine ⟨0, (hsame.provided hI).weaken ?_ ?_, hsame.advances, Contract.Handles.done⟩
        · simp only [Prod.fst_add, Prod.fst_zero]
          omega
        · simp only [Prod.snd_add, Prod.snd_zero]
          omega
      | some txHash =>
        have hclean₃ := hsame.advances.isClean (hgrows₃.isClean hclean)
        exact ⟨(1, 1), hsame.provided hI, hsame.advances, settleCredit_handles (by rw [hpurchase]) hclean₃⟩

end Credit

end Purchases

def liquiditySystem (maxPerRequest : ℚ) : TransitionSystem (Pool Label World) (Action Request) :=
  system (fun w => w.events = [] ∧ ∀ i, (w.jobs.get i).isSome = true → i < w.conversions)
    (Request.handler maxPerRequest)

instance decidableProvisionGuard : (label : Label) → (w : World) → Decidable (provisionGuard label w)
  | .requeueing _, _ => inferInstanceAs (Decidable (_ = _))
  | .savingPush _, _ | .savingCallback _, _ => inferInstanceAs (Decidable (_ = _))
  | .read, _ | .write, _ | .reserving _ _ _, _ | .pushing _ _ _, _ | .collecting _, _ | .delivering _ _, _ | .providing _, _
  | .removing _ _, _ | .restoring _ _ _, _ => .isTrue trivial

namespace Sample

def holder : World where
  accounts := KVStore.empty.set "alice" { balance := 5000 }

-- Liquidity of a conversion is added at once, or in the job that is left when it fails.
def conversion (provision : Provision) : List Request :=
  [.convert {
    address     := "alice"
    hasBadge    := true
    allowAnyDay := true
    now         := 0
    param       := 1000
    pointPrice  := 1
    provision   := provision
  }, .convertLiquidity 0 [.added "again" 1 none]]

def converting (provision : Provision) : Pool Label World :=
  Pool.execs (Request.handler 500000) { store := holder, running := [] } (inTurn 5 (conversion provision))

end Sample

theorem provisions_of_no_events (h : w.events = []) : w.provisions target = 0 := by
  rw [World.provisions, h]
  rfl

-- Liquidity for one conversion or purchase is added at most once.
theorem provided_at_most_once (maxPerRequest : ℚ) (target : Target) (p : Pool Label World)
    (h : (liquiditySystem maxPerRequest).Run (fun p a => p.Meets provisionGuard a) p) :
    p.store.provisions target ≤ 1 := by
  cases target with
  | purchase quoteId =>
    have hinv : (liquiditySystem maxPerRequest).Invariant
        (fun p a => p.Meets (purchaseContract quoteId).guard a)
        fun p => ∃ owned, (purchaseContract quoteId).Holds p owned :=
      Contract.invariant_of_handles ?init ?handles
    case init =>
      intro w hw
      refine { once := ?once, sealed := ?sealed }
      case once =>
        rw [provisions_of_no_events hw.1, World.mayProvide]
        split_ifs <;> simp
      case sealed =>
        rw [World.unsealed]
        split_ifs <;> simp
    case handles =>
      intro request w
      have hkeeps : ¬request.credits quoteId → ¬request.targets (.purchase quoteId) →
          (purchaseContract quoteId).Handles (request.handler maxPerRequest) w 0 :=
        fun hC hT => Contract.Handles.of_keeps
          ((handler_steps maxPerRequest request).mono fun he => he.keeps_purchase hC hT)
      cases request with
      | credit id walletAddress transfer provision =>
        by_cases heq : quoteId = id
        case pos =>
          subst heq
          exact handleReservedCredit_provides
        case neg => exact hkeeps heq (by simp [Request.targets])
      | reconcile outcome => exact runReconciliationJob_handles
      | _ => exact hkeeps (by simp [Request.credits]) (by simp [Request.targets])
    obtain ⟨owned, hp⟩ := hinv.holds h
    have honce := hp.invariant.once
    omega
  | conversion i =>
    have hinv : (liquiditySystem maxPerRequest).Invariant
        (fun p a => p.Meets (conversionContract i).guard a)
        fun p => ∃ owned, (conversionContract i).Holds p owned :=
      Contract.invariant_of_handles ?init ?handles
    case init =>
      intro w hw
      simp only [conversionContract, World.mayBegin, World.mayRepeat]
      rw [provisions_of_no_events hw.1]
      split_ifs with hbegin hrepeat
      case pos => exact absurd (hw.2 i hrepeat) hbegin.not_gt
      all_goals simp
    case handles =>
      intro request w
      have hkeeps : ¬request.targets (.conversion i) →
          (conversionContract i).Handles (request.handler maxPerRequest) w 0 :=
        fun hT => Contract.Handles.of_keeps
          ((handler_steps maxPerRequest request).mono fun he => he.keeps_conversion hT)
      cases request with
      | convert req => exact convert_handles
      | convertLiquidity j provisions =>
        by_cases heq : i = j
        case pos =>
          subst heq
          exact convertLiquidityJob_handles
        case neg => exact hkeeps (by simpa [Request.targets] using heq)
      | _ => exact hkeeps (by simp [Request.targets])
    obtain ⟨owned, hp⟩ := hinv.holds h
    have hle := hp.invariant
    simp only [conversionContract] at hle
    omega

theorem Sample.holder_init : holder.events = [] ∧
    ∀ i, (holder.jobs.get i).isSome = true → i < holder.conversions :=
  ⟨rfl, by simp [holder]⟩

theorem sample_provided_at_most_once :
    (Sample.converting (.failed "timeout" false)).store.provisions (.conversion 0) ≤ 1 :=
  provided_at_most_once 500000 (.conversion 0) _ (run_from Sample.holder_init (by decide +kernel))

-- The record of the tokens fails after they were added, and the job adds them again.
theorem job_provides_again :
    ¬∀ (maxPerRequest : ℚ) (target : Target) (p : Pool Label World),
      (liquiditySystem maxPerRequest).Reachable p → p.store.provisions target ≤ 1 := by
  intro h
  exact absurd (h 500000 (.conversion 0) (Sample.converting (.added "add" 1 (some "no record")))
    (reachable_from Sample.holder_init)) (by decide +kernel)

end Trade
