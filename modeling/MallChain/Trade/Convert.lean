import MallChain.Backend.Conversion
import MallChain.Lib.Calendar
import MallChain.Trade.Types

namespace Trade

open Interleaving

-- The transfer to an address is confirmed, or an error is thrown with or without an effect on the chain.
inductive Transfer
  | confirmed
  | failed (effective : Bool)
  deriving DecidableEq, Repr

def Transfer.effective : Transfer → Bool
  | confirmed        => true
  | failed effective => effective

-- `canConvert` of `buildConversionStatus`. The times are in milliseconds.
def canConvert (hasBadge allowAnyDay : Bool) (lastConversionAt : Option ℤ) (now : ℤ) : Bool :=
  let now := now / 1000
  let window :=
    if hasBadge then decide (Calendar.dayOfMonth now = 15)
    else decide (Calendar.month now = 12 ∧ Calendar.dayOfMonth now = 27)
  (allowAnyDay || window) && lastConversionAt.all fun last =>
    let last := last / 1000
    if hasBadge then ¬(Calendar.year last = Calendar.year now ∧ Calendar.month last = Calendar.month now)
    else Calendar.year last ≠ Calendar.year now

-- A request with a signature of its address that is accepted, and what becomes of its steps.
structure ConvertRequest where
  address     : String
  hasBadge    : Bool
  allowAnyDay : Bool := false
  now         : ℤ
  param       : UInt64
  pointPrice  : ℚ
  transfer    : Transfer := .confirmed
  provision   : Provision
  -- whether the queue takes a job
  queues      : Bool := true

-- `creditMlcns` of the amount, unless it refuses it.
def creditMlcns (maxPerRequest : ℚ) (amount : Option ℚ) (transfer : Transfer) : Transfer :=
  match amount with
  | none        => .failed false
  | some amount => if amount ≤ 0 ∨ amount > maxPerRequest then .failed false else transfer

def converted (points : ℤ) (now : ℤ) (acc : MallPointAccount) : MallPointAccount :=
  { acc with balance := Binary64.sub acc.balance points, lastConversionAt := some now }

def restored (points : ℤ) (previousLastConversionAt : Option ℤ) (acc : MallPointAccount) :
    MallPointAccount :=
  { acc with balance := Binary64.add acc.balance points, lastConversionAt := previousLastConversionAt }

-- The account is saved for the next conversion.
def beginConversion (address : String) (acc : Document MallPointAccount) (w : World) : World :=
  { w.updateAccount address (saveAccount acc) with conversions := w.conversions + 1 }

def enqueueConvertLiquidityFailure (i : ℕ) (job : ConvertLiquidityJob) (w : World) : World :=
  { w with jobs := w.jobs.set i job }

-- The rest of a conversion whose points are taken: the coins are sent, and liquidity is added or queued.
-- The points are given back if the transfer throws an error.
def finishConversion (req : ConvertRequest) (i : ℕ) (points : ℤ) (mlcoins : Option ℚ)
    (doc : Document MallPointAccount) (transfer : Transfer) : Handler Unit := do
  if transfer.effective then
    .write .write (·.record (.sent req.address points))
  match transfer with
  | .failed effective =>
    let doc := doc.saved.modify (restored points doc.loaded.lastConversionAt)
    .write (.restoring req.address doc.loaded effective) (·.updateAccount req.address (saveAccount doc))
  | .confirmed =>
    let job : ConvertLiquidityJob := {
      address  := req.address
      mlcoins  := mlcoins.getD 0
      kesValue := Binary64.mul points req.pointPrice
    }
    provide (.conversion i) job.mlcoins job.kesValue req.provision
    if req.provision.error.isSome ∧ req.queues then
      .write (.requeueing req.provision) (enqueueConvertLiquidityFailure i job)

-- `POST /convert`
def convert (maxPerRequest : ℚ) (req : ConvertRequest) : Handler Unit := do
  let some acc ← .read .read (·.accounts.get req.address) | return
  if acc.balance ≤ 0 then return
  if !canConvert req.hasBadge req.allowAnyDay acc.lastConversionAt req.now then return
  let points : ℤ := ⌊acc.balance⌋
  if points ≤ 0 then return
  let mlcoins := Backend.mlcoins points (Backend.mlptsPerMlcns req.param)
  let doc := (Document.read acc).modify (converted points req.now)
  let i ← .act (.removing req.address acc) (beginConversion req.address doc) (·.conversions)
  finishConversion req i points mlcoins doc (creditMlcns maxPerRequest mlcoins req.transfer)

def jobAttempts : ℕ := 3

-- The processor of the queue, which runs a job again if it has thrown an error and attempts are left.
def processJob (i : ℕ) (job : ConvertLiquidityJob) : List Provision → Handler Unit
  | []                       => return
  | provision :: provisions => do
    provide (.conversion i) job.mlcoins job.kesValue provision
    if provision.error.isNone ∨ provisions = [] then return
    .skip (.requeueing provision)
    processJob i job provisions

-- A job of `convert-liquidity-dlq`
def convertLiquidityJob (i : ℕ) (provisions : List Provision) : Handler Unit := do
  let some job ← .act .write (fun w => { w with jobs := w.jobs.remove i }) (·.jobs.get i) | return
  processJob i job (provisions.take jobAttempts)

end Trade
