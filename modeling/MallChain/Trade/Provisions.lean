import MallChain.Trade.Credits

namespace Trade

open Interleaving

namespace World

variable (w : World)

-- How often a transaction that adds liquidity for something has taken effect.
def provisions (target : Target) : ℕ :=
  w.events.countP fun | .provided t _ _ => t = target | _ => false

end World

-- No save undoes a claim, and what is repeated had no effect.
def provisionGuard : Label → World → Prop
  | .requeueing provision, _ => provision.effective = false
  | label, w                 => saveGuard label w

variable {w : World} {i : ℕ} {quoteId id : String} {C : String → Prop} {T : Target → Prop}
  {label : Label} {update : World → World} {target : Target}

theorem provisions_record {e : Event} (h : ∀ amount0 amount1, e ≠ .provided target amount0 amount1) :
    (w.record e).provisions target = w.provisions target := by
  rw [World.provisions, World.record, List.countP_cons_of_neg]
  · rfl
  · cases e with
    | provided t amount0 amount1 =>
      simp only [decide_eq_true_eq]
      rintro rfl
      exact h amount0 amount1 rfl
    | _ => simp

theorem provisions_provided {amount0 amount1 : ℚ} :
    (w.record (.provided target amount0 amount1)).provisions target = w.provisions target + 1 := by
  rw [World.provisions, World.record, List.countP_cons_of_pos (by simp)]
  rfl

theorem provisions_of_events {w' : World} (h : w'.events = w.events) :
    w'.provisions target = w.provisions target := by
  rw [World.provisions, h]
  rfl

section Conversions

namespace World

variable (w : World) (i : ℕ)

-- A conversion that has not begun yet.
def mayBegin : ℕ :=
  if w.conversions ≤ i then 1 else 0

-- A conversion that is left to be repeated.
def mayRepeat : ℕ :=
  if (w.jobs.get i).isSome then 1 else 0

end World

-- A program owns the liquidity of a conversion that it may still add.
def conversionContract (i : ℕ) : Contract Label World ℕ where
  invariant w owned := w.provisions (.conversion i) + owned + w.mayBegin i + w.mayRepeat i ≤ 1
  grows _ _         := True
  guard             := provisionGuard
  refl _            := trivial
  trans _ _         := trivial

-- What a request leaves of the conversions that are not its own.
theorem Effect.keeps_conversion (h : Effect C T label update) (hT : ¬T (.conversion i)) :
    (conversionContract i).Keeps label update := by
  have hkeeps : ∀ {w w' : World} {own : ℕ}, w'.provisions (.conversion i) = w.provisions (.conversion i) →
      w'.conversions = w.conversions → w'.jobs.get i = w.jobs.get i →
      (conversionContract i).invariant w own →
      (conversionContract i).invariant w' own ∧ (conversionContract i).grows w w' := by
    intro w w' own hp hc hj hI
    refine ⟨?_, trivial⟩
    simp only [conversionContract, World.mayBegin, World.mayRepeat] at hI ⊢
    rw [hp, hc, hj]
    exact hI
  intro w own _ hI
  cases h with
  | silent => exact hkeeps rfl rfl rfl hI
  | reserve purchase _ =>
    rw [insertPurchase]
    split
    case h_1 => exact hkeeps rfl rfl rfl hI
    case h_2 => exact hkeeps (provisions_record (by simp)) rfl rfl hI
  | push => exact hkeeps (provisions_record (by simp)) rfl rfl hI
  | savePush _ _ _ _ =>
    dsimp only [World.updatePurchase]
    split <;> exact hkeeps rfl rfl rfl hI
  | collect paymentId hu =>
    rcases hu w with hw | hw
    · rw [hw]
      exact hkeeps rfl rfl rfl hI
    · rw [hw]
      exact hkeeps (provisions_record (by simp)) rfl rfl hI
  | saveCallback _ _ _ _ =>
    dsimp only [World.updatePurchase]
    split <;> exact hkeeps rfl rfl rfl hI
  | acknowledge => exact hkeeps (provisions_record (by simp)) rfl rfl hI
  | claim _ =>
    rw [Trade.claim]
    split
    case h_2 => exact hkeeps rfl rfl rfl hI
    case h_1 => split_ifs <;> exact hkeeps rfl rfl rfl hI
  | credit _ => exact hkeeps (provisions_record (by simp)) rfl rfl hI
  | provide ht =>
    dsimp only
    split_ifs
    case pos =>
      refine hkeeps (provisions_record fun amount0 amount1 heq => ?_) rfl rfl hI
      cases heq
      exact hT ht
    case neg => exact hkeeps rfl rfl rfl hI
  | settle _ he =>
    cases he with
    | provide =>
      dsimp only
      split_ifs
      case pos => exact hkeeps (provisions_record (by simp)) rfl rfl hI
      case neg => exact hkeeps rfl rfl rfl hI
    | ensure => exact hkeeps rfl rfl rfl hI
    | save _ _ =>
      dsimp only [World.updatePurchase]
      split <;> exact hkeeps rfl rfl rfl hI
  | detect _ =>
    rw [insertReconciliation]
    split_ifs <;> exact hkeeps rfl rfl rfl hI
  | attempt => exact hkeeps (provisions_record (by simp)) rfl rfl hI
  | reconcile =>
    dsimp only [World.updateReconciliation]
    split <;> exact hkeeps rfl rfl rfl hI
  | saveCompensation _ _ _ _ =>
    dsimp only [World.updatePurchase]
    split <;> exact hkeeps rfl rfl rfl hI
  | remove acc h => exact absurd (h i) hT
  | send => exact hkeeps (provisions_record (by simp)) rfl rfl hI
  | restore acc =>
    dsimp only [World.updateAccount]
    split <;> exact hkeeps rfl rfl rfl hI
  | enqueue hj =>
    refine hkeeps rfl rfl (KVStore.get_set_ne ?_) hI
    rintro rfl
    exact hT hj
  | take hj =>
    refine hkeeps rfl rfl (KVStore.get_remove_ne ?_) hI
    rintro rfl
    exact hT hj

variable {α : Type} {post : α → World → ℕ → Prop} {f : Unit → Handler α} {amount0 amount1 : ℚ}
  {provision : Provision}

-- The attempt uses what the program owns if it has an effect.
theorem provide_conversion {left : ℕ}
    (hleft : left ≤ if provision.effective then 0 else 1)
    (hf : ∀ w', (conversionContract i).Safe post (f ()) w' left) :
    (conversionContract i).Safe post (provide (.conversion i) amount0 amount1 provision >>= f) w 1 := by
  apply Contract.Safe.write
  intro w' _ _ others hI
  refine ⟨left, ?_, trivial, hf _⟩
  simp only [conversionContract] at hI ⊢
  split_ifs at hleft ⊢ with heffective
  case pos =>
    have hb : (w'.record (.provided (.conversion i) amount0 amount1)).mayBegin i = w'.mayBegin i := rfl
    have hr : (w'.record (.provided (.conversion i) amount0 amount1)).mayRepeat i = w'.mayRepeat i := rfl
    rw [provisions_provided, hb, hr]
    omega
  case neg => omega

theorem processJob_handles {job : ConvertLiquidityJob} {provisions : List Provision} :
    (conversionContract i).Handles (processJob i job provisions) w
      (if provisions = [] then 0 else 1) := by
  induction provisions generalizing w with
  | nil => exact Contract.Handles.done
  | cons provision provisions ih =>
    rw [if_neg (List.cons_ne_nil _ _)]
    by_cases hends : provision.error.isNone ∨ provisions = []
    case pos =>
      apply provide_conversion (Nat.zero_le _)
      intro w'
      rw [if_pos hends]
      exact Contract.Handles.done
    case neg =>
      apply provide_conversion (le_refl _)
      intro w'
      rw [if_neg hends]
      apply Contract.Safe.skip
      intro w'' _ hg
      have heffective : provision.effective = false := hg
      have hih := ih (w := w'')
      rw [if_neg (not_or.mp hends).2] at hih
      rw [heffective]
      exact hih

theorem convertLiquidityJob_handles {provisions : List Provision} :
    (conversionContract i).Handles (convertLiquidityJob i provisions) w 0 := by
  apply Contract.Safe.act
  intro w' _ _ others hI
  simp only [conversionContract, World.mayRepeat] at hI
  cases hjob : w'.jobs.get i with
  | none =>
    refine ⟨0, ?_, trivial, Contract.Handles.done⟩
    simp only [conversionContract, World.mayRepeat]
    rw [KVStore.get_remove_self]
    rw [hjob] at hI
    exact hI
  | some job =>
    refine ⟨if provisions.take jobAttempts = [] then 0 else 1, ?_, trivial, processJob_handles⟩
    simp only [conversionContract, World.mayRepeat]
    rw [KVStore.get_remove_self]
    rw [hjob] at hI
    have hp : World.provisions { w' with jobs := w'.jobs.remove i } (.conversion i) =
        w'.provisions (.conversion i) := rfl
    have hb : World.mayBegin { w' with jobs := w'.jobs.remove i } i = w'.mayBegin i := rfl
    rw [hp, hb]
    simp only [Option.isSome_some, Option.isSome_none, if_true] at hI ⊢
    split_ifs <;> simp <;> omega

theorem invariant_weaken {own own' : ℕ} (h : (conversionContract i).invariant w own) (hle : own' ≤ own) :
    (conversionContract i).invariant w own' := by
  simp only [conversionContract] at h ⊢
  omega

theorem enqueue_invariant {others : ℕ} {job : ConvertLiquidityJob}
    (hI : (conversionContract i).invariant w (1 + others)) :
    (conversionContract i).invariant (enqueueConvertLiquidityFailure i job w) others := by
  simp only [conversionContract, World.mayRepeat] at hI ⊢
  have hp : (enqueueConvertLiquidityFailure i job w).provisions (.conversion i) =
      w.provisions (.conversion i) := rfl
  have hb : (enqueueConvertLiquidityFailure i job w).mayBegin i = w.mayBegin i := rfl
  have hj : (enqueueConvertLiquidityFailure i job w).jobs.get i = some job := KVStore.get_set_self
  rw [hp, hb, hj, Option.isSome_some, if_pos rfl]
  omega

theorem finishConversion_handles {req : ConvertRequest} {points : ℤ} {mlcoins : Option ℚ}
    {doc : Document MallPointAccount} {transfer : Transfer} :
    (conversionContract i).Handles (finishConversion req i points mlcoins doc transfer) w 1 := by
  have hsend : (conversionContract i).Keeps .write (·.record (.sent req.address points)) :=
    (Effect.send (C := fun _ => False) (T := (· = .conversion (i + 1))) rfl).keeps_conversion (by simp)
  cases transfer with
  | failed effective =>
    have hkeeps : (conversionContract i).Keeps (.restoring req.address doc.saved.loaded effective)
        (World.updateAccount · req.address (saveAccount
          (doc.saved.modify (restored points doc.loaded.lastConversionAt)))) :=
      (Effect.restore (C := fun _ => False) (T := (· = .conversion (i + 1)))
        (doc.saved.modify (restored points doc.loaded.lastConversionAt)) rfl).keeps_conversion (by simp)
    have hrestore : ∀ w', (conversionContract i).Handles (.write (.restoring req.address doc.saved.loaded
        effective) (World.updateAccount · req.address (saveAccount
          (doc.saved.modify (restored points doc.loaded.lastConversionAt))))) w' 1 := by
      intro w'
      apply Contract.Handles.write
      intro w'' _ hg others hI
      exact ⟨(hkeeps w'' others hg (invariant_weaken hI (Nat.le_add_left _ _))).1, trivial⟩
    refine Contract.Safe.ite (fun _ => ?_) fun _ => hrestore w
    apply Contract.Safe.write
    intro w' _ hg others hI
    exact ⟨1, (hsend w' _ hg hI).1, trivial, hrestore _⟩
  | confirmed =>
    rw [finishConversion]
    refine Contract.Safe.ite (fun _ => ?_) fun hn => absurd (Eq.refl true) hn
    apply Contract.Safe.write
    intro w' _ hg others hI
    refine ⟨1, (hsend w' _ hg hI).1, trivial, ?_⟩
    by_cases hq : req.provision.error.isSome ∧ req.queues
    case pos =>
      apply provide_conversion (le_refl _)
      intro w''
      rw [if_pos hq]
      apply Contract.Handles.write
      intro w₃ _ hg others hI
      have heffective : req.provision.effective = false := hg
      rw [heffective] at hI
      exact ⟨enqueue_invariant hI, trivial⟩
    case neg =>
      apply provide_conversion (Nat.zero_le _)
      intro w''
      rw [if_neg hq]
      exact Contract.Handles.done

theorem convert_handles {maxPerRequest : ℚ} {req : ConvertRequest} :
    (conversionContract i).Handles (convert maxPerRequest req) w 0 := by
  apply Contract.Safe.read
  intro w₁ _ _
  cases w₁.accounts.get req.address with
  | none => exact Contract.Handles.done
  | some acc =>
    refine Contract.Safe.ite (fun _ => Contract.Handles.done) fun _ => ?_
    refine Contract.Safe.ite (fun _ => Contract.Handles.done) fun _ => ?_
    refine Contract.Safe.ite (fun _ => Contract.Handles.done) fun _ => ?_
    apply Contract.Safe.act
    intro w₂ _ _ others hI
    have hupdated : ∀ f, (w₂.updateAccount req.address f).provisions (.conversion i) =
        w₂.provisions (.conversion i) ∧
        (w₂.updateAccount req.address f).jobs = w₂.jobs ∧
        (w₂.updateAccount req.address f).conversions = w₂.conversions := by
      intro f
      rw [World.updateAccount]
      split <;> exact ⟨rfl, rfl, rfl⟩
    have hprovisions : (beginConversion req.address ((Document.read acc).modify
        (converted ⌊acc.balance⌋ req.now)) w₂).provisions (.conversion i) =
          w₂.provisions (.conversion i) := (hupdated _).1
    have hrepeat : (beginConversion req.address ((Document.read acc).modify
        (converted ⌊acc.balance⌋ req.now)) w₂).mayRepeat i = w₂.mayRepeat i := by
      rw [World.mayRepeat, World.mayRepeat, beginConversion, (hupdated _).2.1]
    have hconversions : (beginConversion req.address ((Document.read acc).modify
        (converted ⌊acc.balance⌋ req.now)) w₂).conversions = w₂.conversions + 1 := rfl
    simp only [conversionContract, World.mayBegin] at hI ⊢
    by_cases heq : w₂.conversions = i
    case pos =>
      refine ⟨1, ?_, trivial, ?_⟩
      case refine_1 =>
        rw [hprovisions, hrepeat, hconversions, if_neg (by omega)]
        rw [if_pos heq.le] at hI
        omega
      case refine_2 =>
        rw [heq]
        exact finishConversion_handles
    case neg =>
      refine ⟨0, ?_, trivial, ?_⟩
      case refine_1 =>
        rw [hprovisions, hrepeat, hconversions]
        have hle : (if w₂.conversions + 1 ≤ i then 1 else 0) ≤ if w₂.conversions ≤ i then 1 else 0 := by
          split_ifs <;> omega
        omega
      case refine_2 =>
        exact Contract.Handles.of_keeps ((finishConversion_steps (C := fun _ => False)
          (T := (· = .conversion w₂.conversions)) rfl).mono fun he =>
            he.keeps_conversion fun h => heq (Target.conversion.inj h).symm)

end Conversions

end Trade
