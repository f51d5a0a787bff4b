import MallChain.Trade.System

namespace Trade

open Interleaving

-- The store after a job that nothing interrupts.
def reconciled (outcome : String → CompensationOutcome) (w : World) : World :=
  ((runReconciliationJob outcome).alone w).2

-- It is where the job is run to its end by the system.
theorem exists_execs_reconciled {maxPerRequest : ℚ} {p : Pool Label World} {i : ℕ}
    {outcome : String → CompensationOutcome}
    (h : p.running[i]? = some (runReconciliationJob outcome)) :
    ∃ n, (p.execs (Request.handler maxPerRequest) (List.replicate n (.run i))).store =
      reconciled outcome p.store := by
  obtain ⟨n, hn⟩ := exists_execs_alone h
  exact ⟨n, by rw [hn]; rfl⟩

namespace World

variable (w : World) (quoteId : String)

-- How often a compensation was attempted for a purchase.
def attempts : ℕ :=
  w.events.count (.attempted quoteId)

def isDetected : Bool :=
  (w.reconciliations.get quoteId).any (·.status = .detected)

end World

-- A job attempts a compensation for each purchase that was credited without its liquidity, unless its
-- record says that one was attempted, and leaves no record as it was detected.
structure Reaches (outcome : String → CompensationOutcome) (w : World) : Prop where
  attempted  : ∀ {quoteId purchase}, w.purchases.get quoteId = some purchase →
    purchase.status = .credited → purchase.liquidityError.isSome →
    (w.reconciliations.get quoteId).all (·.status = .detected) →
    w.attempts quoteId < (reconciled outcome w).attempts quoteId
  undetected : ∀ quoteId, (reconciled outcome w).isDetected quoteId = false

-- No record is left as detected, and the purchases without a record know the hash of their transfer.
structure Coverable (w : World) : Prop where
  undetected : ∀ quoteId, w.isDetected quoteId = false
  hash       : ∀ {quoteId purchase}, w.purchases.get quoteId = some purchase →
    purchase.status = .credited → purchase.liquidityError.isSome →
    w.reconciliations.get quoteId = none → purchase.txHash.isSome

variable {w : World} {quoteId id : String} {recon : LiquidityReconciliation}
  {outcome : CompensationOutcome}

section Detect

variable {l : List (String × MallcoinPurchase)} {results : List (String × LiquidityReconciliation)}

-- What the detection finds and leaves, in a list of different purchases.
structure Detects (l : List (String × MallcoinPurchase))
    (results : List (String × LiquidityReconciliation)) (w : World)
    (out : List (String × LiquidityReconciliation) × World) : Prop where
  found  : ∀ {id recon}, (id, recon) ∈ out.1 ↔ (id, recon) ∈ results ∨
    ∃ purchase, (id, purchase) ∈ l ∧ recon = detectedFrom purchase ∧ w.reconciliations.get id = none
  stored : ∀ {id}, (∀ recon, (id, recon) ∉ out.1) →
    out.2.reconciliations.get id = w.reconciliations.get id
  events : out.2.events = w.events

theorem detectEach_known (h : (w.reconciliations.get id).isSome = true) {purchase : MallcoinPurchase} :
    (detectEach ((id, purchase) :: l) results).alone w = (detectEach l results).alone w := by
  simp [detectEach, Prog.read_bind, h]

theorem detectEach_new (h : w.reconciliations.get id = none) {purchase : MallcoinPurchase} :
    (detectEach ((id, purchase) :: l) results).alone w =
      (detectEach l (results ++ [(id, detectedFrom purchase)])).alone
        { w with reconciliations := w.reconciliations.set id (detectedFrom purchase) } := by
  simp [detectEach, Prog.read_bind, insertReconciliation, h]

theorem detectEach_detects (hl : (l.map (·.1)).Nodup) :
    Detects l results w ((detectEach l results).alone w) := by
  induction l generalizing results w with
  | nil => exact { found := by simp [detectEach], stored := fun _ => rfl, events := rfl }
  | cons e rest ih =>
    obtain ⟨id₀, purchase₀⟩ := e
    obtain ⟨hnew, hrest⟩ := List.nodup_cons.mp hl
    cases hget : w.reconciliations.get id₀ with
    | some recon₀ =>
      rw [detectEach_known (by rw [hget]; rfl)]
      have hout : Detects rest results w ((detectEach rest results).alone w) := ih hrest
      refine { hout with found := ?_ }
      intro id recon
      rw [hout.found]
      refine or_congr_right ⟨?_, ?_⟩
      · rintro ⟨purchase, hmem, hrecon, hnone⟩
        exact ⟨purchase, List.mem_cons_of_mem _ hmem, hrecon, hnone⟩
      · rintro ⟨purchase, hmem, hrecon, hnone⟩
        refine ⟨purchase, (List.mem_cons.mp hmem).resolve_left ?_, hrecon, hnone⟩
        rintro heq
        cases heq
        rw [hget] at hnone
        cases hnone
    | none =>
      rw [detectEach_new hget]
      have hout : Detects rest (results ++ [(id₀, detectedFrom purchase₀)])
          { w with reconciliations := w.reconciliations.set id₀ (detectedFrom purchase₀) } _ := ih hrest
      have hother : ∀ {id}, id ≠ id₀ → (w.reconciliations.set id₀ (detectedFrom purchase₀)).get id =
          w.reconciliations.get id := fun hne => KVStore.get_set_ne hne
      have hne : ∀ {id purchase}, (id, purchase) ∈ rest → id ≠ id₀ := by
        rintro id purchase hmem rfl
        exact hnew (List.mem_map.mpr ⟨_, hmem, rfl⟩)
      refine { found := ?found, stored := ?stored, events := hout.events }
      case found =>
        intro id recon
        rw [hout.found, List.mem_append, List.mem_singleton, or_assoc]
        refine or_congr_right ⟨?_, ?_⟩
        · rintro (heq | ⟨purchase, hmem, hrecon, hnone⟩)
          · cases heq
            exact ⟨purchase₀, List.mem_cons_self .., rfl, hget⟩
          · rw [hother (hne hmem)] at hnone
            exact ⟨purchase, List.mem_cons_of_mem _ hmem, hrecon, hnone⟩
        · rintro ⟨purchase, hmem, hrecon, hnone⟩
          rcases List.mem_cons.mp hmem with heq | hmem
          · cases heq
            exact .inl (by rw [hrecon])
          · refine .inr ⟨purchase, hmem, hrecon, ?_⟩
            rw [hother (hne hmem)]
            exact hnone
      case stored =>
        intro id hid
        have hne : id ≠ id₀ := by
          rintro rfl
          refine hid (detectedFrom purchase₀) (hout.found.mpr (.inl ?_))
          exact List.mem_append_right _ (List.mem_singleton.mpr rfl)
        rw [hout.stored hid]
        exact hother hne

end Detect

section Compensate

-- What a compensation leaves of the records, but for the attempt.
structure Settles (id : String) (w w' : World) : Prop where
  stored     : ∀ {id'}, id' ≠ id → w'.reconciliations.get id' = w.reconciliations.get id'
  attempts   : ∀ {id'}, w'.attempts id' = w.attempts id'
  undetected : w.isDetected id = false → w'.isDetected id = false

variable {w' w'' : World}

theorem Settles.refl : Settles id w w where
  stored _     := rfl
  attempts     := rfl
  undetected h := h

theorem Settles.trans (h : Settles id w w') (h' : Settles id w' w'') : Settles id w w'' where
  stored hne    := (h'.stored hne).trans (h.stored hne)
  attempts      := h'.attempts.trans h.attempts
  undetected hd := h'.undetected (h.undetected hd)

theorem Settles.of_eq (hr : w'.reconciliations = w.reconciliations)
    (ha : ∀ id', w'.attempts id' = w.attempts id') : Settles id w w' where
  stored _     := by rw [hr]
  attempts     := ha _
  undetected h := by
    rw [World.isDetected, hr]
    exact h

section Update

variable {f : LiquidityReconciliation → LiquidityReconciliation}

theorem isDetected_updateReconciliation (hf : ∀ recon, (f recon).status ≠ .detected) :
    (w.updateReconciliation id f).isDetected id = false := by
  rw [World.updateReconciliation]
  cases hget : w.reconciliations.get id with
  | none       => simp [World.isDetected, hget]
  | some recon => simp [World.isDetected, hf recon]

theorem Settles.updateReconciliation (hf : ∀ recon, (f recon).status ≠ .detected) :
    Settles id w (w.updateReconciliation id f) where
  stored hne   := by
    rw [World.updateReconciliation]
    cases w.reconciliations.get id with
    | none       => rfl
    | some recon => exact KVStore.get_set_ne hne
  attempts     := by
    intro id'
    rw [World.updateReconciliation]
    cases w.reconciliations.get id <;> rfl
  undetected _ := isDetected_updateReconciliation hf

end Update

theorem Settles.updatePurchase {f : MallcoinPurchase → MallcoinPurchase} {quoteId : String} :
    Settles id w (w.updatePurchase quoteId f) := by
  rw [World.updatePurchase]
  cases w.purchases.get quoteId with
  | none          => exact .refl
  | some purchase => exact .of_eq rfl fun _ => rfl

theorem Settles.provide (target : Target) (amount0 amount1 : ℚ) (provision : Provision) :
    Settles id w ((provide target amount0 amount1 provision).alone w).2 := by
  rw [Trade.provide, Prog.alone_write]
  dsimp only
  split_ifs
  case pos => exact .of_eq rfl fun _ => List.count_cons_of_ne (by simp)
  case neg => exact .refl

theorem requireManual_undetected {error : String} {txHash : Option String} :
    (requireManual error txHash recon).status ≠ .detected := by
  simp [requireManual]

theorem resolve_undetected {txHash : String} : (resolve txHash recon).status ≠ .detected := by
  simp [resolve]

theorem finishCompensation_settles {purchase : Option MallcoinPurchase} {txHash : String}
    {lpTokens : ℚ} {poolId : ℕ} :
    Settles id w ((finishCompensation id txHash lpTokens poolId purchase outcome).alone w).2 := by
  unfold finishCompensation
  cases outcome.reconError with
  | some error => exact .updateReconciliation fun _ => requireManual_undetected
  | none =>
    have hresolve : Settles id w (w.updateReconciliation id (resolve txHash)) :=
      .updateReconciliation fun _ => resolve_undetected
    dsimp only
    rw [Prog.alone_bind]
    refine hresolve.trans ?_
    cases purchase with
    | none => exact .refl
    | some purchase =>
      cases outcome.purchaseError with
      | some error => exact .updateReconciliation fun _ => requireManual_undetected
      | none       => exact .updatePurchase

-- What one compensation does to a record that was detected.
theorem compensate_settles (hd : recon.status = .detected) :
    ∃ w', Settles id w w' ∧ w'.isDetected id = false ∧
      Settles id (w'.record (.attempted id))
        ((compensateFailedLiquidity id recon outcome).alone w).2 := by
  refine ⟨w.updateReconciliation id fun stored => { stored with status := .compensating },
    .updateReconciliation fun _ => by simp, isDetected_updateReconciliation fun _ => by simp, ?_⟩
  rw [compensateFailedLiquidity, if_neg (not_not.mpr hd), Prog.alone_bind, Prog.read_bind,
    Prog.alone_step, Prog.write_bind, Prog.alone_step, Prog.alone_bind]
  refine (Settles.provide (.purchase id) recon.mlcnsAmount recon.fiatAmount outcome.provision).trans ?_
  cases outcome.provision with
  | failed error effective => exact .updateReconciliation fun _ => requireManual_undetected
  | added txHash lpTokens recordError => exact finishCompensation_settles

-- What the compensations of a list do.
structure Compensates (ids : List String) (w w' : World) : Prop where
  grows       : ∀ {id}, w.attempts id ≤ w'.attempts id
  attempted   : ∀ {id}, id ∈ ids → w.attempts id < w'.attempts id
  unattempted : ∀ {id}, id ∉ ids → w'.attempts id = w.attempts id
  undetected  : ∀ {id}, id ∈ ids → w'.isDetected id = false
  stored      : ∀ {id}, id ∉ ids → w'.reconciliations.get id = w.reconciliations.get id

theorem Compensates.trans {ids ids' : List String} (h : Compensates ids w w')
    (h' : Compensates ids' w' w'') : Compensates (ids ++ ids') w w'' where
  grows       := h.grows.trans h'.grows
  attempted   := by
    intro id hmem
    rcases List.mem_append.mp hmem with hmem | hmem
    · exact (h.attempted hmem).trans_le h'.grows
    · exact h.grows.trans_lt (h'.attempted hmem)
  unattempted := by
    intro id hmem
    obtain ⟨hn, hn'⟩ := not_or.mp (mt List.mem_append.mpr hmem)
    exact (h'.unattempted hn').trans (h.unattempted hn)
  undetected  := by
    intro id hmem
    by_cases hmem' : id ∈ ids'
    case pos => exact h'.undetected hmem'
    case neg =>
      have hd := h.undetected ((List.mem_append.mp hmem).resolve_right hmem')
      rw [World.isDetected, h'.stored hmem']
      exact hd
  stored      := by
    intro id hmem
    obtain ⟨hn, hn'⟩ := not_or.mp (mt List.mem_append.mpr hmem)
    exact (h'.stored hn').trans (h.stored hn)

theorem Settles.compensates (h : Settles id w w') (hd : w'.isDetected id = false)
    (h' : Settles id (w'.record (.attempted id)) w'') : Compensates [id] w w'' := by
  have hattempts : ∀ {id'}, w''.attempts id' = w.attempts id' + if id = id' then 1 else 0 := by
    intro id'
    rw [h'.attempts, World.attempts, World.record, List.count_cons, ← World.attempts, h.attempts]
    simp
  refine {
    grows       := ?grows
    attempted   := ?attempted
    unattempted := ?unattempted
    undetected  := ?undetected
    stored      := ?stored
  }
  case grows =>
    intro id'
    rw [hattempts]
    exact Nat.le_add_right _ _
  case attempted =>
    intro id' hmem
    rw [hattempts, if_pos (List.mem_singleton.mp hmem).symm]
    exact Nat.lt_succ_self _
  case unattempted =>
    intro id' hmem
    rw [hattempts, if_neg fun heq => hmem (List.mem_singleton.mpr heq.symm)]
    rfl
  case undetected =>
    intro id' hmem
    rw [List.mem_singleton.mp hmem]
    exact h'.undetected hd
  case stored =>
    intro id' hmem
    have hne : id' ≠ id := fun heq => hmem (List.mem_singleton.mpr heq)
    exact (h'.stored hne).trans (h.stored hne)

theorem compensateEach_compensates {outcome : String → CompensationOutcome}
    {l : List (String × LiquidityReconciliation)} (hl : ∀ e ∈ l, e.2.status = .detected) :
    Compensates (l.map (·.1)) w ((compensateEach outcome l).alone w).2 := by
  induction l generalizing w with
  | nil => exact {
      grows       := le_refl _
      attempted   := fun h => by cases h
      unattempted := fun _ => rfl
      undetected  := fun h => by cases h
      stored      := fun _ => rfl
    }
  | cons e rest ih =>
    obtain ⟨id₀, recon₀⟩ := e
    rw [compensateEach, Prog.alone_bind]
    obtain ⟨w₁, h₁, hd, h₂⟩ := compensate_settles (hl _ (List.mem_cons_self ..))
    exact (h₁.compensates hd h₂).trans (ih fun e he => hl e (List.mem_cons_of_mem _ he))

end Compensate

section Job

variable {outcome : String → CompensationOutcome}

-- The purchases of which a job attempts a compensation.
def found (w : World) (id : String) : Prop :=
  ∃ purchase, w.purchases.get id = some purchase ∧ purchase.lacksLiquidity = true ∧
    w.reconciliations.get id = none

structure Reconciles (w w' : World) : Prop where
  attempted   : ∀ {id}, found w id → w.attempts id < w'.attempts id
  unattempted : ∀ {id}, ¬found w id → w'.attempts id = w.attempts id
  undetected  : ∀ {id}, found w id → w'.isDetected id = false
  stored      : ∀ {id}, ¬found w id → w'.reconciliations.get id = w.reconciliations.get id

theorem reconciles : Reconciles w (reconciled outcome w) := by
  have hkeys : ((w.purchases.entries.filter (·.2.lacksLiquidity)).map (·.1)).Nodup := by
    rw [List.Nodup, List.pairwise_map]
    exact (w.purchases.sorted.sublist List.filter_sublist).imp fun hlt => hlt.ne
  have hout : Detects _ [] w _ := detectEach_detects hkeys
  rw [reconciled, runReconciliationJob, detectFailedLiquidityAdds]
  simp only [Prog.alone_bind, Prog.read_bind, Prog.alone_step]
  dsimp only [id]
  generalize (detectEach (w.purchases.entries.filter (·.2.lacksLiquidity)) []).alone w = out at hout ⊢
  have hfound : ∀ {id}, id ∈ out.1.map (·.1) ↔ found w id := by
    intro id
    rw [List.mem_map]
    constructor
    · rintro ⟨⟨_, recon⟩, hmem, rfl⟩
      obtain ⟨purchase, hmem, _, hnone⟩ := (hout.found.mp hmem).resolve_left List.not_mem_nil
      obtain ⟨hmem, hlacks⟩ := List.mem_filter.mp hmem
      exact ⟨purchase, KVStore.mem_entries_iff.mp hmem, hlacks, hnone⟩
    · rintro ⟨purchase, hget, hlacks, hnone⟩
      refine ⟨(id, detectedFrom purchase), hout.found.mpr (.inr ⟨purchase, ?_, rfl, hnone⟩), rfl⟩
      exact List.mem_filter.mpr ⟨KVStore.mem_entries_iff.mpr hget, hlacks⟩
  have hdetected : ∀ e ∈ out.1, e.2.status = .detected := by
    rintro ⟨id, recon⟩ hmem
    obtain ⟨purchase, _, rfl, _⟩ := (hout.found.mp hmem).resolve_left List.not_mem_nil
    rfl
  have hcomp : Compensates (out.1.map (·.1)) out.2 ((compensateEach outcome out.1).alone out.2).2 :=
    compensateEach_compensates hdetected
  have hattempts : ∀ {id}, out.2.attempts id = w.attempts id := by
    intro id
    rw [World.attempts, hout.events]
    rfl
  refine {
    attempted   := ?attempted
    unattempted := ?unattempted
    undetected  := fun h => hcomp.undetected (hfound.mpr h)
    stored      := ?stored
  }
  case attempted =>
    intro id h
    rw [← hattempts]
    exact hcomp.attempted (hfound.mpr h)
  case unattempted =>
    intro id h
    rw [← hattempts]
    exact hcomp.unattempted fun hmem => h (hfound.mp hmem)
  case stored =>
    intro id h
    have hn : id ∉ out.1.map (·.1) := fun hmem => h (hfound.mp hmem)
    rw [hcomp.stored hn]
    exact hout.stored fun recon hmem => hn (List.mem_map.mpr ⟨_, hmem, rfl⟩)

end Job

-- A job reaches everything exactly if it finds no record that is still as it was detected.
theorem reaches_iff (outcome : String → CompensationOutcome) (w : World) :
    Reaches outcome w ↔ Coverable w := by
  have h : Reconciles w (reconciled outcome w) := reconciles
  constructor
  · intro hr
    refine { undetected := ?undetected, hash := ?hash }
    case undetected =>
      intro id
      have hd := hr.undetected id
      by_cases hf : found w id
      case pos =>
        obtain ⟨_, _, _, hnone⟩ := hf
        rw [World.isDetected, hnone]
        rfl
      case neg =>
        rw [World.isDetected, h.stored hf] at hd
        exact hd
    case hash =>
      intro id purchase hget hcredited herror hnone
      by_contra hn
      have hf : ¬found w id := by
        rintro ⟨purchase', hget', hlacks, _⟩
        rw [hget] at hget'
        cases hget'
        exact hn (of_decide_eq_true hlacks).2.2
      have hlt := hr.attempted hget hcredited herror (by rw [hnone]; rfl)
      rw [h.unattempted hf] at hlt
      exact lt_irrefl _ hlt
  · intro hc
    refine { attempted := ?attempted, undetected := ?undetected }
    case attempted =>
      intro id purchase hget hcredited herror hall
      have hnone : w.reconciliations.get id = none := by
        have hd := hc.undetected id
        cases hrec : w.reconciliations.get id with
        | none => rfl
        | some recon =>
          rw [World.isDetected, hrec] at hd
          rw [hrec] at hall
          simp_all
      have hlacks : purchase.lacksLiquidity = true :=
        decide_eq_true ⟨hcredited, herror, hc.hash hget hcredited herror hnone⟩
      exact h.attempted ⟨purchase, hget, hlacks, hnone⟩
    case undetected =>
      intro id
      by_cases hf : found w id
      case pos => exact h.undetected hf
      case neg =>
        rw [World.isDetected, h.stored hf]
        exact hc.undetected id

namespace Sample

-- A purchase that is credited, and whose liquidity is not added.
def unprovided : List (Action Request) :=
  inTurn 8 [.reserve "quote" "alice" 10 1000 100, .mpesa "quote" 1000 { answered := some "push" },
    .callback "push" 0 {}, .credit "quote" none (some "tx") (.failed "unavailable" false)]

def traded (actions : List (Action Request)) : Pool Label World :=
  Pool.execs (Request.handler 500000) { store := {}, running := [] } actions

end Sample

-- The record of a purchase whose liquidity has failed stays as it was detected.
theorem detected_never_attempted :
    ¬∀ (p : Pool Label World), (tradeSystem 500000 (· = {})).Reachable p →
      ∀ outcome, Reaches outcome p.store := by
  intro h
  have hreaches := h (Sample.traded Sample.unprovided) (reachable_from rfl)
    fun _ => { provision := .added "add" 1 none }
  have hd : (reconciled (fun _ => { provision := .added "add" 1 none })
      (Sample.traded Sample.unprovided).store).isDetected "quote" = true := by
    decide +kernel
  rw [hreaches.undetected] at hd
  cases hd

end Trade
