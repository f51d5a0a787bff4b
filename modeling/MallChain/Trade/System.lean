import MallChain.Trade.Convert
import MallChain.Trade.Reconcile

namespace Trade

open Interleaving

-- The requests to the routes, what the provider does, and the runs of the jobs.
inductive Request
  | reserve (quoteId walletAddress : String) (amount fiatAmount buyPrice : ℚ)
  | mpesa (quoteId : String) (amount : ℚ) (stk : StkPush)
  | collect (paymentId : String)
  | callback (paymentId : String) (resultCode : ℤ) (outcome : CallbackOutcome)
  | credit (quoteId : String) (walletAddress transfer : Option String) (provision : Provision)
  | convert (req : ConvertRequest)
  | convertLiquidity (i : ℕ) (provisions : List Provision)
  | reconcile (outcome : String → CompensationOutcome)

def Request.handler (maxPerRequest : ℚ) : Request → Handler Unit
  | .reserve quoteId walletAddress amount fiatAmount buyPrice =>
    Trade.reserve quoteId walletAddress amount fiatAmount buyPrice
  | .mpesa quoteId amount stk => initiateMpesaRequest quoteId amount stk
  | .collect paymentId => Trade.collect paymentId
  | .callback paymentId resultCode outcome => processMpesaCallback paymentId resultCode outcome
  | .credit quoteId walletAddress transfer provision =>
    handleReservedCredit quoteId walletAddress transfer provision
  | .convert req => Trade.convert maxPerRequest req
  | .convertLiquidity i provisions => convertLiquidityJob i provisions
  | .reconcile outcome => runReconciliationJob outcome

-- All runs of the requests from the stores that are given.
def tradeSystem (maxPerRequest : ℚ) (init : World → Prop) :
    TransitionSystem (Pool Label World) (Action Request) :=
  system init (Request.handler maxPerRequest)

section Effects

-- The purchase that a request credits.
def Request.credits : Request → String → Prop
  | .credit quoteId _ _ _ => (· = quoteId)
  | _                     => fun _ => False

-- What else a request adds liquidity for.
def Request.targets : Request → Target → Prop
  | .convert _            => fun target => ∃ i, target = .conversion i
  | .convertLiquidity i _ => (· = .conversion i)
  | .reconcile _          => fun target => ∃ quoteId, target = .purchase quoteId
  | _                     => fun _ => False

-- What one step does to the store after the coins of a purchase were sent.
inductive CreditEffect (quoteId : String) : Label → (World → World) → Prop
  | provide {amount0 amount1 : ℚ} {provision : Provision} :
    CreditEffect quoteId (.providing (.purchase quoteId)) fun w =>
      if provision.effective then w.record (.provided (.purchase quoteId) amount0 amount1) else w
  | ensure {txHash : String} {purchase : MallcoinPurchase} :
    CreditEffect quoteId .write (ensureLiquidityReconciliation quoteId txHash purchase)
  | save {d : Document MallcoinPurchase} : d.loaded.status = .processing → d.current.status = .credited →
    CreditEffect quoteId .write (·.updatePurchase quoteId (savePurchase d))

-- What one step of a request does to the store.
inductive Effect (C : String → Prop) (T : Target → Prop) : Label → (World → World) → Prop
  | silent {label : Label} : Effect C T label id
  | reserve {quoteId : String} (purchase : MallcoinPurchase) {buyPrice : ℚ} :
    purchase.status = .pending →
    Effect C T (.reserving purchase.amount purchase.fiatAmount buyPrice)
      (insertPurchase quoteId purchase buyPrice)
  | push {quoteId paymentId : String} {amount : ℚ} :
    Effect C T (.pushing quoteId paymentId amount) (·.record (.pushed quoteId paymentId amount))
  | savePush {quoteId : String} {d : Document MallcoinPurchase} :
    d.current.status = .paymentInitiated → d.current.status ≠ d.loaded.status →
    d.current.txHash = d.loaded.txHash → d.current.liquidityError = d.loaded.liquidityError →
    Effect C T (.savingPush quoteId) (·.updatePurchase quoteId (savePurchase d))
  | collect {update : World → World} (paymentId : String) :
    (∀ w, update w = w ∨ update w = w.record (.collected paymentId)) →
    Effect C T (.collecting paymentId) update
  | saveCallback {quoteId : String} {d : Document MallcoinPurchase} :
    (d.current.status = .confirmed ∨ d.current.status = .failed) →
    d.current.status ≠ d.loaded.status → d.current.txHash = d.loaded.txHash →
    d.current.liquidityError = d.loaded.liquidityError →
    Effect C T (.savingCallback quoteId) (·.updatePurchase quoteId (savePurchase d))
  | acknowledge {paymentId : String} {resultCode : ℤ} :
    Effect C T .write (·.record (.acknowledged paymentId resultCode))
  | claim {quoteId : String} : C quoteId → Effect C T .write (claim quoteId)
  | credit {quoteId : String} {amount : ℚ} : C quoteId →
    Effect C T .write (·.record (.credited quoteId amount))
  | provide {target : Target} {amount0 amount1 : ℚ} {provision : Provision} : T target →
    Effect C T (.providing target) fun w =>
      if provision.effective then w.record (.provided target amount0 amount1) else w
  | settle {quoteId : String} {label : Label} {update : World → World} : C quoteId →
    CreditEffect quoteId label update → Effect C T label update
  | detect {quoteId : String} {recon : LiquidityReconciliation} : T (.purchase quoteId) →
    Effect C T .write (insertReconciliation quoteId recon)
  | attempt {quoteId : String} : Effect C T .write (·.record (.attempted quoteId))
  | reconcile {quoteId : String} {f : LiquidityReconciliation → LiquidityReconciliation} :
    Effect C T .write (·.updateReconciliation quoteId f)
  | saveCompensation {quoteId : String} {d : Document MallcoinPurchase} : T (.purchase quoteId) →
    d.current.status = d.loaded.status → d.current.txHash = d.loaded.txHash →
    d.current.liquidityError = none → Effect C T .write (·.updatePurchase quoteId (savePurchase d))
  | remove {address : String} (acc : Document MallPointAccount) : (∀ i, T (.conversion i)) →
    Effect C T (.removing address acc.loaded) (beginConversion address acc)
  | send {address : String} {points : ℤ} {i : ℕ} : T (.conversion i) →
    Effect C T .write (·.record (.sent address points))
  | restore {address : String} (acc : Document MallPointAccount) {effective : Bool} {i : ℕ} :
    T (.conversion i) →
    Effect C T (.restoring address acc.loaded effective) (·.updateAccount address (saveAccount acc))
  | enqueue {provision : Provision} {i : ℕ} {job : ConvertLiquidityJob} : T (.conversion i) →
    Effect C T (.requeueing provision) (enqueueConvertLiquidityFailure i job)
  | take {i : ℕ} : T (.conversion i) → Effect C T .write fun w => { w with jobs := w.jobs.remove i }

variable {C : String → Prop} {T : Target → Prop}

theorem provide_steps {target : Target} {amount0 amount1 : ℚ} {provision : Provision} (h : T target) :
    (provide target amount0 amount1 provision).Steps (Effect C T) :=
  .write (.provide h)

theorem pushEach_steps {quoteId : String} {amount : ℚ} {paymentIds : List String} :
    (pushEach quoteId amount paymentIds).Steps (Effect C T) := by
  induction paymentIds with
  | nil => trivial
  | cons paymentId paymentIds ih => exact .bind (.write .push) fun _ => ih

theorem initiateMpesaRequest_steps {quoteId : String} {amount : ℚ} {stk : StkPush} :
    (initiateMpesaRequest quoteId amount stk).Steps (Effect C T) := by
  refine .bind (.read .silent) fun stored => ?_
  split
  case h_2 => trivial
  case h_1 purchase =>
    refine .ite (fun _ => trivial) fun hpending => ?_
    refine .bind pushEach_steps fun _ => ?_
    split
    case h_1 => trivial
    case h_2 paymentId =>
      refine .bind (.write .push) fun _ => ?_
      refine .ite (fun _ => trivial) fun _ => ?_
      refine .write (.savePush rfl ?_ rfl rfl)
      rw [Document.modify, Document.read, not_not.mp hpending]
      simp

theorem collect_steps {paymentId : String} : (collect paymentId).Steps (Effect C T) := by
  refine .write (.collect paymentId fun w => ?_)
  split_ifs
  case pos => exact .inr rfl
  case neg => exact .inl rfl

theorem processMpesaCallback_steps {paymentId : String} {resultCode : ℤ} {outcome : CallbackOutcome} :
    (processMpesaCallback paymentId resultCode outcome).Steps (Effect C T) := by
  refine .ite (fun _ => trivial) fun _ => ?_
  refine .bind (.read .silent) fun found => ?_
  split
  case h_1 => exact .write .acknowledge
  case h_2 quoteId purchase =>
    refine .ite (fun _ => .write .acknowledge) fun hterminal => ?_
    refine .ite (fun _ => trivial) fun _ => ?_
    refine .bind (.write (.saveCallback ?_ ?_ rfl rfl)) fun _ => ?_
    case refine_1 =>
      rw [Document.modify, Document.read]
      dsimp only
      split_ifs
      case pos => exact .inl rfl
      case neg => exact .inr rfl
    case refine_2 =>
      rw [Document.modify, Document.read]
      dsimp only
      rintro heq
      rw [terminalStatuses, ← heq] at hterminal
      split_ifs at hterminal <;> simp at hterminal
    case refine_3 => exact .ite (fun _ => trivial) fun _ => .write .acknowledge

theorem of_claimed {quoteId : String} {purchase : MallcoinPurchase} {w : World}
    (h : claimed quoteId w = some purchase) : ∃ stored, w.purchases.get quoteId = some stored ∧
      stored.status = .confirmed ∧ purchase = { stored with status := .processing } := by
  rw [claimed] at h
  split at h
  case h_2 => cases h
  case h_1 stored hget =>
    split_ifs at h with hconfirmed
    cases h
    exact ⟨stored, hget, hconfirmed, rfl⟩

theorem Provision.applyTo_status {provision : Provision} {purchase : MallcoinPurchase} :
    (provision.applyTo purchase).status = purchase.status := by
  cases provision with
  | failed error effective => rfl
  | added txHash lpTokens recordError =>
    cases recordError <;> rfl

theorem settleCredit_steps {quoteId txHash : String} {purchase : MallcoinPurchase}
    {provision : Provision} (h : purchase.status = .processing) :
    (settleCredit quoteId txHash purchase provision).Steps (CreditEffect quoteId) := by
  refine .ite (fun _ => .write (.save h rfl)) fun _ => ?_
  refine .bind (.write .provide) fun _ => ?_
  have hsave : (Prog.write (.write : Label) (World.updatePurchase · quoteId (savePurchase
      (((Document.read purchase).modify (creditedBy txHash)).modify provision.applyTo)))).Steps
      (CreditEffect quoteId) :=
    .write (.save h Provision.applyTo_status)
  exact .ite (fun _ => .bind (.write .ensure) fun _ => hsave) fun _ => hsave

theorem handleReservedCredit_steps {quoteId : String} {walletAddress transfer : Option String}
    {provision : Provision} (h : C quoteId) :
    (handleReservedCredit quoteId walletAddress transfer provision).Steps (Effect C T) := by
  refine .bind (.read .silent) fun stored => ?_
  split
  case h_2 => trivial
  case h_1 current =>
    refine .ite (fun _ => trivial) fun _ => ?_
    refine .ite (fun _ => trivial) fun _ => ?_
    refine .act_bind (.claim h) fun w => ?_
    cases hclaimed : claimed quoteId w with
    | none => trivial
    | some purchase =>
      obtain ⟨stored, _, _, hpurchase⟩ := of_claimed hclaimed
      refine .bind (.write (.credit h)) fun _ => ?_
      cases transfer with
      | none => trivial
      | some txHash => exact (settleCredit_steps (by rw [hpurchase])).mono (.settle h)

theorem finishConversion_steps {req : ConvertRequest} {i : ℕ} {points : ℤ} {mlcoins : Option ℚ}
    {doc : Document MallPointAccount} {transfer : Transfer}
    (h : T (.conversion i)) :
    (finishConversion req i points mlcoins doc transfer).Steps (Effect C T) := by
  cases transfer with
  | failed effective =>
    have hrestore : (Prog.write (.restoring req.address doc.saved.loaded effective)
        (World.updateAccount · req.address (saveAccount
          (doc.saved.modify (restored points doc.loaded.lastConversionAt))))).Steps (Effect C T) :=
      .write (.restore (doc.saved.modify (restored points doc.loaded.lastConversionAt)) h)
    exact .ite (fun _ => .bind (.write (.send h)) fun _ => hrestore) fun _ => hrestore
  | confirmed =>
    rw [finishConversion]
    refine .ite (fun _ => .bind (.write (.send h)) fun _ => ?_) fun hn => absurd (Eq.refl true) hn
    refine .bind (provide_steps h) fun _ => ?_
    exact .ite (fun _ => .write (.enqueue h)) fun _ => trivial

theorem convert_steps {maxPerRequest : ℚ} {req : ConvertRequest} (h : ∀ i, T (.conversion i)) :
    (convert maxPerRequest req).Steps (Effect C T) := by
  refine .bind (.read .silent) fun stored => ?_
  split
  case h_2 => trivial
  case h_1 acc =>
    refine .ite (fun _ => trivial) fun _ => ?_
    refine .ite (fun _ => trivial) fun _ => ?_
    refine .ite (fun _ => trivial) fun _ => ?_
    refine .bind (.act (.remove ((Document.read acc).modify (converted ⌊acc.balance⌋ req.now)) h)) ?_
    exact fun i => finishConversion_steps (h i)

theorem processJob_steps {i : ℕ} {job : ConvertLiquidityJob} {provisions : List Provision}
    (h : T (.conversion i)) :
    (processJob i job provisions).Steps (Effect C T) := by
  induction provisions with
  | nil => trivial
  | cons provision provisions ih =>
    refine .bind (provide_steps h) fun _ => ?_
    exact .ite (fun _ => trivial) fun _ => .bind (.skip .silent) fun _ => ih

theorem convertLiquidityJob_steps {i : ℕ} {provisions : List Provision}
    (h : T (.conversion i)) :
    (convertLiquidityJob i provisions).Steps (Effect C T) := by
  refine .bind (.act (.take h)) fun job => ?_
  split
  case h_1 => exact processJob_steps h
  case h_2 => trivial

theorem detectEach_steps {l : List (String × MallcoinPurchase)}
    {results : List (String × LiquidityReconciliation)} (h : ∀ quoteId, T (.purchase quoteId)) :
    (detectEach l results).Steps (Effect C T) := by
  induction l generalizing results with
  | nil => trivial
  | cons e rest ih =>
    refine .bind (.read .silent) fun existing => ?_
    refine .ite (fun _ => ih) fun _ => ?_
    refine .bind (.act (.detect (h _))) fun isNew => ?_
    exact .ite (fun _ => ih) fun _ => trivial

theorem finishCompensation_steps {purchaseId txHash : String} {lpTokens : ℚ} {poolId : ℕ}
    {purchase : Option MallcoinPurchase} {outcome : CompensationOutcome}
    (h : T (.purchase purchaseId)) :
    (finishCompensation purchaseId txHash lpTokens poolId purchase outcome).Steps (Effect C T) := by
  unfold finishCompensation
  split
  case h_1 => exact .write .reconcile
  case h_2 =>
    refine .bind (.write .reconcile) fun _ => ?_
    split
    case h_1 => trivial
    case h_2 purchase =>
      split
      case h_1 => exact .write .reconcile
      case h_2 => exact .write (.saveCompensation h rfl rfl rfl)

theorem compensateFailedLiquidity_steps {purchaseId : String} {recon : LiquidityReconciliation}
    {outcome : CompensationOutcome} (h : T (.purchase purchaseId)) :
    (compensateFailedLiquidity purchaseId recon outcome).Steps (Effect C T) := by
  refine .ite (fun _ => trivial) fun _ => ?_
  refine .bind (.write .reconcile) fun _ => ?_
  refine .bind (.read .silent) fun purchase => ?_
  refine .bind (.write .attempt) fun _ => ?_
  refine .bind (provide_steps h) fun _ => ?_
  split
  case h_1 => exact .write .reconcile
  case h_2 => exact finishCompensation_steps h

theorem compensateEach_steps {outcome : String → CompensationOutcome}
    {l : List (String × LiquidityReconciliation)} (h : ∀ quoteId, T (.purchase quoteId)) :
    (compensateEach outcome l).Steps (Effect C T) := by
  induction l with
  | nil => trivial
  | cons e rest ih => exact .bind (compensateFailedLiquidity_steps (h _)) fun _ => ih

theorem runReconciliationJob_steps {outcome : String → CompensationOutcome}
    (h : ∀ quoteId, T (.purchase quoteId)) :
    (runReconciliationJob outcome).Steps (Effect C T) := by
  refine .bind (.bind (.read .silent) fun failed => detectEach_steps h) fun detected => ?_
  exact compensateEach_steps h

theorem handler_steps (maxPerRequest : ℚ) (request : Request) :
    (request.handler maxPerRequest).Steps (Effect request.credits request.targets) := by
  cases request with
  | reserve quoteId walletAddress amount fiatAmount buyPrice =>
    exact .write (.reserve { walletAddress, amount, fiatAmount } rfl)
  | mpesa quoteId amount stk => exact initiateMpesaRequest_steps
  | collect paymentId => exact collect_steps
  | callback paymentId resultCode outcome => exact processMpesaCallback_steps
  | credit quoteId walletAddress transfer provision => exact handleReservedCredit_steps rfl
  | convert req => exact convert_steps fun i => ⟨i, rfl⟩
  | convertLiquidity i provisions => exact convertLiquidityJob_steps rfl
  | reconcile outcome => exact runReconciliationJob_steps fun quoteId => ⟨quoteId, rfl⟩

end Effects

end Trade
