import MallChain.Lib.Failing
import MallChain.Trade.Buy

namespace Trade.Stranded

open Failing Action

-- An error that is thrown, with the status of the response to it.
structure Failure where
  message : String
  status  : Option ℕ := none
  code    : Option String := none
  deriving DecidableEq, Repr

structure Transfer where
  «to»   : String
  amount : ℚ
  txHash : String
  deriving DecidableEq, Repr

-- What a request for one quote reads and writes: the purchase, the transactions it has broadcast and the
-- transfers that were executed, the stages that were recorded, and the record to reconcile.
structure Store where
  purchase       : Option MallcoinPurchase
  broadcast      : Bool := false
  transfers      : List Transfer := []
  activities     : List String := []
  reconciliation : Option LiquidityReconciliation := none

abbrev Request := Action Store Failure

def recordBuyLiquidityActivity (stage : String) (failure : Option Failure) : Request Unit := do
  attempt failure
  update fun s => { s with activities := s.activities ++ [stage] }

structure Faucet where
  enabled                : Bool
  isValidAddress         : String → Bool
  maxPerRequest          : ℚ
  cooldownMs             : ℤ
  isAccountNotFoundError : Failure → Bool

-- The transaction of a transfer: nothing is broadcast, it is refused by the chain, it is executed but this
-- is not seen in time, or it is seen.
inductive Broadcast
  | unsent (failure : Failure)
  | refused (failure : Failure)
  | unseen (txHash : String) (failure : Failure)
  | confirmed (txHash : String)
  deriving DecidableEq, Repr

-- What the steps of a request meet.
structure Outcome where
  started         : Option Failure := none
  -- the address of the account that pays, if there is one
  fundingAccount  : Except Failure (Option String)
  -- the last request of the address that is stored, and the time
  lastRequest     : Except Failure (Option ℤ) := .ok none
  now             : ℤ := 0
  -- whether the account that pays exists
  funded          : Except Failure Bool := .ok true
  broadcast       : Broadcast
  balance         : Option Failure := none
  settled         : Option Failure := none
  provision       : Provision
  reconciliation  : Option Failure := none
  liquidityFailed : Option Failure := none
  save            : Option Failure := none

section Faucet

variable (faucet : Faucet)

def checkCooldown (lastRequestTime : Option ℤ) (now cooldownMs : ℤ) : Bool :=
  match lastRequestTime with
  | none      => true
  | some last => last = 0 ∨ now - last ≥ cooldownMs

def faucetUnfundedError (address : String) : Failure where
  message := s!"Faucet account has not been funded in genesis yet. Contact admin to add {address} to " ++
    "auth.accounts with a bank.balances allocation for mlc+stake."
  status  := some 503
  code    := some "faucet_unfunded"

def checkAddressCooldown (o : Outcome) : Except Failure Unit := do
  let last ← o.lastRequest
  if !checkCooldown last o.now faucet.cooldownMs then
    let waitSec := ⌈((faucet.cooldownMs - (o.now - last.getD 0) : ℤ) : ℚ) / 1000⌉
    throw { message := s!"Faucet cooldown: try again in {waitSec}s", status := some 429 }

def guardFaucetFundedOrThrow (address : String) (o : Outcome) : Except Failure Unit :=
  match o.funded with
  | .ok true       => .ok ()
  | .ok false      => .error (faucetUnfundedError address)
  | .error failure =>
    if failure.code = some "faucet_unfunded" then .error failure
    else if faucet.isAccountNotFoundError failure then .error (faucetUnfundedError address)
    else .error failure

-- The checks of `creditMlcns` before it signs anything, which find the account that pays
def preflight (address : String) (amount : ℚ) (o : Outcome) : Except Failure String := do
  if !faucet.enabled then
    throw { message := "Faucet is disabled in production", status := some 403 }
  let some fundingAccount ← o.fundingAccount |
    throw {
      message := "Set FAUCET_PRIVATE_KEY_HEX, FAUCET_MNEMONIC, or OPERATOR_MNEMONIC " ++
        "(wallet must hold MLCNS + stake for gas)"
      status  := some 503
    }
  if !faucet.isValidAddress address then
    throw { message := "Invalid recipient address", status := some 400 }
  if amount ≤ 0 ∨ amount > faucet.maxPerRequest then
    throw { message := s!"Amount must be between 0 and {faucet.maxPerRequest} MLCNS", status := some 400 }
  checkAddressCooldown faucet o
  guardFaucetFundedOrThrow faucet fundingAccount o
  return fundingAccount

-- The transfer of `transferAndFundGas`. A failure to send gas after it is not thrown.
def transferAndFundGas (address : String) (amount : ℚ) : Broadcast → Request String
  | .unsent failure        => fail failure
  | .refused failure       => do
    update fun s => { s with broadcast := true }
    fail failure
  | .unseen txHash failure => do
    update fun s => { s with broadcast := true, transfers := s.transfers ++ [⟨address, amount, txHash⟩] }
    fail failure
  | .confirmed txHash      => do
    update fun s => { s with broadcast := true, transfers := s.transfers ++ [⟨address, amount, txHash⟩] }
    return txHash

def creditMlcns (address : String) (amount : ℚ) (o : Outcome) : Request String := do
  let fundingAccount ← lift (preflight faucet address amount o)
  let txHash ← rethrow (transferAndFundGas address amount o.broadcast) fun failure =>
    if faucet.isAccountNotFoundError failure then faucetUnfundedError fundingAccount else failure
  attempt o.balance
  return txHash

end Faucet

section Credit

variable (faucet : Faucet) (walletAddress : Option String) (o : Outcome)

def ensureLiquidityReconciliation (txHash : String) (purchase : MallcoinPurchase) (s : Store) : Store :=
  let inserted : LiquidityReconciliation := {
    creditTxHash  := txHash
    walletAddress := purchase.walletAddress
    mlcnsAmount   := purchase.amount
    fiatAmount    := purchase.fiatAmount
    reason        := none
  }
  let recon := { s.reconciliation.getD inserted with reason := purchase.liquidityError, status := .detected }
  { s with reconciliation := some recon }

-- The purchase after liquidity was added for it, or after the error of that was recorded.
def applyLiquidityAfterCredit (txHash : String) (purchase : Document MallcoinPurchase) :
    Request (Document MallcoinPurchase) := do
  if purchase.current.fiatAmount ≤ 0 then return purchase
  let purchase := purchase.modify o.provision.applyTo
  if o.provision.error = none then
    recordBuyLiquidityActivity "liquidity_added" none
  else
    attempt o.reconciliation
    update (ensureLiquidityReconciliation txHash purchase.current)
    recordBuyLiquidityActivity "liquidity_add_failed" o.liquidityFailed
  return purchase

-- What is left to do when the coins were sent
def finishCredit (purchase : MallcoinPurchase) (txHash : String) : Request (Option String) := do
  let purchase := (Document.read purchase).modify (creditedBy txHash)
  recordBuyLiquidityActivity "credit_settled" o.settled
  let purchase ← applyLiquidityAfterCredit o txHash purchase
  attempt o.save
  update fun s => { s with purchase := s.purchase.map (savePurchase purchase) }
  return some txHash

-- The request from the time when the purchase is claimed
def processCredit (purchase : MallcoinPurchase) : Request (Option String) := do
  recordBuyLiquidityActivity "credit_processing_started" o.started
  let txHash ← creditMlcns faucet purchase.walletAddress purchase.amount o
  finishCredit o purchase txHash

def handleReservedCredit : Request (Option String) := do
  let s ← get
  match s.purchase with
  | none         => fail { message := "Purchase not found", status := some 404 }
  | some current =>
    if walletAddress.any fun address => address ≠ "" ∧ address ≠ current.walletAddress then
      fail {
        message := "The requested wallet address does not match the reserved purchase"
        status  := some 400
        code    := some "wallet_address_mismatch"
      }
    else if current.status = .credited then return current.txHash
    else if current.status ≠ .confirmed then
      fail {
        message := "The purchase has not been confirmed by the payment provider yet"
        status  := some 400
        code    := some "payment_not_confirmed"
      }
    else
      -- `findOneAndUpdate` from confirmed to processing
      let purchase := { current with status := .processing }
      update fun s => { s with purchase := some purchase }
      processCredit faucet o purchase

end Credit

-- A request can credit some purchase of this status.
def CanBeCredited (status : PurchaseStatus) : Prop :=
  ∃ faucet walletAddress o purchase, purchase.status = status ∧
    (final (handleReservedCredit faucet walletAddress o) { purchase := some purchase }).transfers ≠ []

-- The request is for this purchase, which it claims.
def Claims (walletAddress : Option String) (purchase : MallcoinPurchase) : Prop :=
  purchase.status = .confirmed ∧ walletAddress.all fun address => address = "" ∨ address = purchase.walletAddress

-- A failure before anything is broadcast leaves the purchase for a later request. After a transfer it is
-- credited, with the hash of the transfer.
def NotStranded (s : Store) : Prop :=
  (s.broadcast = false → ∃ purchase, s.purchase = some purchase ∧ CanBeCredited purchase.status) ∧
  ∀ transfer ∈ s.transfers, ∃ purchase, s.purchase = some purchase ∧ purchase.status = .credited ∧
    purchase.txHash = some transfer.txHash

-- An error of the liquidity, if it is added, is recorded.
def LiquidityRecorded (purchase : MallcoinPurchase) (o : Outcome) : Prop :=
  purchase.fiatAmount ≤ 0 ∨ o.provision.error = none ∨ o.reconciliation = none ∧ o.liquidityFailed = none

-- Of the steps after the transfer only the adding of liquidity fails.
def Recorded (purchase : MallcoinPurchase) (o : Outcome) : Prop :=
  o.settled = none ∧ o.save = none ∧ LiquidityRecorded purchase o

-- The steps before the broadcast do not fail, and if the transfer is executed then this is seen and recorded.
def Smooth (faucet : Faucet) (purchase : MallcoinPurchase) (o : Outcome) : Prop :=
  o.started = none ∧ (preflight faucet purchase.walletAddress purchase.amount o).isOk = true ∧
    match o.broadcast with
    | .unsent _    => False
    | .refused _   => True
    | .unseen _ _  => False
    | .confirmed _ => o.balance = none ∧ Recorded purchase o

namespace Sample

def faucet : Faucet where
  enabled                := true
  isValidAddress         := fun _ => true
  maxPerRequest          := 10000
  cooldownMs             := 60000
  isAccountNotFoundError := fun _ => false

def purchase : MallcoinPurchase where
  walletAddress := "alice"
  amount        := 100
  fiatAmount    := 160
  status        := .confirmed

-- All goes well, except that no liquidity is added.
def outcome : Outcome where
  fundingAccount := .ok (some "faucet")
  broadcast      := .confirmed "tx"
  provision      := .failed "no pool" false

end Sample

variable {faucet : Faucet} {walletAddress : Option String} {o : Outcome} {purchase : MallcoinPurchase} {s : Store}

section Phases

-- The store without the purchase, as far as the claim is concerned.
def SameTransfers (s s' : Store) : Prop :=
  s'.transfers = s.transfers ∧ s'.broadcast = s.broadcast

theorem applyTo_status {provision : Provision} :
    (provision.applyTo purchase).status = purchase.status ∧ (provision.applyTo purchase).txHash = purchase.txHash := by
  rcases provision with ⟨_, _, _ | _⟩ | _ <;> exact ⟨rfl, rfl⟩

-- What is saved of a purchase that nobody has changed in the meantime
theorem savePurchase_loaded {d : Document MallcoinPurchase} :
    (savePurchase d d.loaded).status = d.current.status ∧ (savePurchase d d.loaded).txHash = d.current.txHash :=
  ⟨Document.written_of_eq rfl, Document.written_of_eq rfl⟩

-- The steps for the liquidity fail when an error could not be recorded.
theorem ends_applyLiquidity {txHash : String} {d : Document MallcoinPurchase}
    {Q : Document MallcoinPurchase → Store → Prop} {E : Store → Prop}
    (hQ : LiquidityRecorded d.current o → ∀ d' s', d'.loaded = d.loaded →
      d'.current.status = d.current.status → d'.current.txHash = d.current.txHash →
        SameTransfers s s' → s'.purchase = s.purchase → Q d' s')
    (hE : ¬LiquidityRecorded d.current o → ∀ s', SameTransfers s s' → s'.purchase = s.purchase → E s') :
    Ends (applyLiquidityAfterCredit o txHash d) s Q E := by
  simp only [applyLiquidityAfterCredit, recordBuyLiquidityActivity, ends_ite, ends_bind, ends_attempt, ends_update,
    ends_pure, if_true]
  split_ifs with hfiat herror hrecon hfailed
  · exact hQ (.inl hfiat) d s rfl rfl rfl ⟨rfl, rfl⟩ rfl
  · exact hQ (.inr (.inl herror)) _ _ rfl applyTo_status.1 applyTo_status.2 ⟨rfl, rfl⟩ rfl
  · exact hQ (.inr (.inr ⟨hrecon, hfailed⟩)) _ _ rfl applyTo_status.1 applyTo_status.2 ⟨rfl, rfl⟩ rfl
  · exact hE (by simp [LiquidityRecorded, hfiat, herror, hfailed]) _ ⟨rfl, rfl⟩ rfl
  · exact hE (by simp [LiquidityRecorded, hfiat, herror, hrecon]) _ ⟨rfl, rfl⟩ rfl

-- The last steps, after the coins are known to be sent: what was recorded is saved.
theorem final_finishCredit (o : Outcome) (txHash : String) (hs : s.purchase = some purchase) :
    SameTransfers s (final (finishCredit o purchase txHash) s) ∧
      (Recorded purchase o → ∃ stored, (final (finishCredit o purchase txHash) s).purchase = some stored ∧
        stored.status = .credited ∧ stored.txHash = some txHash) ∧
      (¬Recorded purchase o → (final (finishCredit o purchase txHash) s).purchase = some purchase) := by
  rw [final_iff (P := fun s' => SameTransfers s s' ∧ (Recorded purchase o → ∃ stored, s'.purchase = some stored ∧
    stored.status = .credited ∧ stored.txHash = some txHash) ∧ (¬Recorded purchase o → s'.purchase = some purchase))]
  simp only [finishCredit, recordBuyLiquidityActivity, ends_bind, ends_attempt, ends_update, ends_pure]
  by_cases hsettled : o.settled = none
  case neg =>
    rw [if_neg hsettled]
    exact ⟨⟨rfl, rfl⟩, fun h => absurd h.1 hsettled, fun _ => hs⟩
  rw [if_pos hsettled]
  refine ends_applyLiquidity (fun hok d' s' hd hstatus htx hsame hpurchase => ?_) (fun hfail s' hsame hpurchase => ?_)
  case refine_1 =>
    have hd : d'.loaded = purchase := hd
    have hstored := hpurchase.trans hs
    by_cases hsave : o.save = none
    case pos =>
      rw [if_pos hsave]
      refine ⟨hsame, fun _ => ⟨savePurchase d' purchase, ?_, ?_, ?_⟩, fun hnot => absurd ⟨hsettled, hsave, hok⟩ hnot⟩
      · rw [hstored, Option.map_some]
      · rw [← hd, savePurchase_loaded.1, hstatus]
        rfl
      · rw [← hd, savePurchase_loaded.2, htx]
        rfl
    case neg =>
      rw [if_neg hsave]
      exact ⟨hsame, fun h => absurd h.2.1 hsave, fun _ => hstored⟩
  case refine_2 => exact ⟨hsame, fun h => absurd h.2.2 hfail, fun _ => hpurchase.trans hs⟩

-- A request that claims a purchase
theorem final_claimed (faucet : Faucet) (o : Outcome) (h : Claims walletAddress purchase) :
    final (handleReservedCredit faucet walletAddress o) { purchase := some purchase } =
      final (processCredit faucet o { purchase with status := .processing })
        { purchase := some { purchase with status := .processing } } := by
  obtain ⟨hstatus, haddress⟩ := h
  have hany : (walletAddress.any fun address => decide (address ≠ "" ∧ address ≠ purchase.walletAddress)) = false := by
    cases walletAddress with
    | none => rfl
    | some address =>
      simp only [Option.all_some, decide_eq_true_eq] at haddress
      simpa [or_iff_not_imp_left] using haddress
  have hcredited : purchase.status ≠ .credited := by simp [hstatus]
  change final (if (walletAddress.any fun address => decide (address ≠ "" ∧ address ≠ purchase.walletAddress)) = true
    then _ else if purchase.status = .credited then _ else if purchase.status ≠ .confirmed then _ else _) _ = _
  rw [if_neg (Bool.eq_false_iff.mp hany), if_neg hcredited, if_neg (not_not.mpr hstatus)]
  rfl

-- A request that does not claim its purchase sends nothing.
theorem transfers_of_ne (h : purchase.status ≠ .confirmed) :
    (final (handleReservedCredit faucet walletAddress o) { s with purchase := some purchase }).transfers = s.transfers := by
  refine (final_iff (P := fun s' : Store => s'.transfers = s.transfers)).mpr ?_
  simp only [handleReservedCredit, ends_bind, ends_get, ends_ite, ends_fail, ends_pure]
  split_ifs

-- A request can send the coins for a purchase that is confirmed, and for no other.
theorem canBeCredited_iff {status : PurchaseStatus} : CanBeCredited status ↔ status = .confirmed := by
  constructor
  case mp =>
    rintro ⟨faucet, walletAddress, o, purchase, rfl, htransfers⟩
    by_contra hne
    exact htransfers (transfers_of_ne (s := { purchase := some purchase }) hne)
  case mpr =>
    rintro rfl
    exact ⟨Sample.faucet, none, Sample.outcome, Sample.purchase, rfl, by decide +kernel⟩

-- A purchase that stays in progress can not be credited any more.
theorem not_notStranded (hs : s.purchase = some purchase) (hp : purchase.status = .processing)
    (h : s.broadcast = false ∨ s.transfers ≠ []) : ¬NotStranded s := by
  rintro ⟨hbefore, hafter⟩
  rcases h with hb | ht
  · obtain ⟨stored, hstored, hcan⟩ := hbefore hb
    rw [hs] at hstored
    cases hstored
    rw [canBeCredited_iff, hp] at hcan
    cases hcan
  · obtain ⟨transfer, hm⟩ := List.exists_mem_of_ne_nil _ ht
    obtain ⟨stored, hstored, hcredited, _⟩ := hafter transfer hm
    rw [hs] at hstored
    cases hstored
    rw [hp] at hcredited
    cases hcredited

-- After a transfer the purchase is credited if it is recorded, and stays in progress otherwise.
theorem notStranded_finishCredit {txHash : String} (hs : s.purchase = some purchase) (hp : purchase.status = .processing)
    (hbroadcast : s.broadcast = true) (ht : ∃ transfer, s.transfers = [transfer] ∧ transfer.txHash = txHash) :
    NotStranded (final (finishCredit o purchase txHash) s) ↔ Recorded purchase o := by
  obtain ⟨⟨htransfers, hsame⟩, hrecorded, hlost⟩ := final_finishCredit o txHash hs
  obtain ⟨transfer, hone, htx⟩ := ht
  rw [hone] at htransfers
  rw [hbroadcast] at hsame
  by_cases h : Recorded purchase o
  case pos =>
    refine iff_of_true ⟨fun hb => ?_, fun other hm => ?_⟩ h
    · rw [hsame] at hb
      cases hb
    · rw [htransfers] at hm
      rw [List.mem_singleton.mp hm, htx]
      exact hrecorded h
  case neg => exact iff_of_false (not_notStranded (hlost h) hp (.inr (by simp [htransfers]))) h

end Phases

end Trade.Stranded
