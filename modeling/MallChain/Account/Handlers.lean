import MallChain.Account.Gdpr

namespace Account

open Interleaving

-- What the body of an `AppError` says.
def appError (code : String) (status : ℕ) (message : String) : Failure :=
  ⟨status, code ++ ": " ++ message⟩

def notFound (message : String) : Failure :=
  appError "NOT_FOUND" 404 message

def forbidden (message : String) : Failure :=
  appError "INSUFFICIENT_PERMISSIONS" 403 message

def unauthorized : Failure :=
  appError "UNAUTHORIZED" 401 "Unauthorized"

def databaseError (message : String) : Failure :=
  appError "DATABASE_ERROR" 500 message

-- `String` of a value that may be undefined.
def textOf (s : Option String) : String :=
  s.getD "undefined"

def isPrefix (start s : String) : Bool :=
  start.toList.isPrefixOf s.toList

-- `path.basename`
def basename (path : String) : String :=
  let trimmed := (path.toList.reverse.dropWhile (· = '/')).takeWhile (· ≠ '/')
  String.ofList trimmed.reverse

def allowedInName (c : Char) : Bool :=
  c.isAlphanum || c = '.' || c = '_' || c = '-'

-- Characters outside the first plane are two code units.
def sanitizeFilename (name : String) : String :=
  let named := if name = "" then "document" else name
  let safe := named.toList.flatMap fun c =>
    if allowedInName c then [c] else if c.toNat ≥ 0x10000 then ['_', '_'] else ['_']
  String.ofList (safe.drop (safe.length - 80))

-- `req.user?.id || req.user?._id`
def anyId (user : ReqUser) : String :=
  user.id?.getD user.objectId

-- `req.user?.id || req.user?.userId`
def virtualId (user : ReqUser) : Option String :=
  user.id? <|> user.userId?

structure File where
  originalname : String
  deriving DecidableEq, Repr

-- `POST /document`, of KYC and of withdrawals alike. The reference is the name on the disk.
def uploadDocument (file : Option File) (now : ℕ) (user : ReqUser) : Handler (Except Failure String) :=
  match file with
  | none      => return .error (appError "MISSING_REQUIRED_FIELD" 400 "No document uploaded")
  | some file =>
    return .ok (anyId user ++ "-" ++ toString now ++ "-" ++ sanitizeFilename file.originalname)

-- What comes of a request for a document.
inductive Access
  | forbidden
  | missing
  | served (own : Bool) (name : String)
  deriving DecidableEq, Repr

def isAdmin (user : Profile) : Bool :=
  user.role = .admin || user.role = .superadmin

def access (user : Profile) (viewer owner : String) (document : Option String) : Access :=
  let own := decide (owner = viewer)
  if !own && !isAdmin user then .forbidden
  else match present document with
  | none     => .missing
  | some ref => .served own (basename ref)

def viewed (action viewer resourceId subject : String) (own admin : Bool) (reason : Option String) :
    AuditLog where
  action  := action
  actor   := viewer
  details := [("actorType", if admin && !own then "admin" else "user"), ("resourceId", resourceId),
    ("subjectUserId", subject), ("viewedOwnDocument", toString own), ("reason", reason.getD "null")]

-- A document is given to its owner and to administrators, and every view is logged.
def serve (action viewer resourceId subject : String) (user : Profile) (reason : Option String) :
    Access → Handler (Except Failure String)
  | .forbidden       => return .error (forbidden "Forbidden")
  | .missing         => return .error (notFound "No document on file")
  | .served own name => do
    .write .step (·.log (viewed action viewer resourceId subject own (isAdmin user) reason))
    return .ok name

def reasonOf (reason : Option String) : Option String :=
  reason.map fun r => String.ofList (r.toList.take 300)

-- `GET /document/:kycId`
def getDocument (kycId : ℕ) (reason : Option String) (user : ReqUser) :
    Handler (Except Failure String) := do
  let viewer := textOf (virtualId user)
  let found ← Prog.read .step (·.db.kyc.get kycId)
  match found with
  | none     => return .error (notFound "Not found")
  | some kyc =>
    serve "kyc_document_viewed" viewer (toString kycId) kyc.userId user.stored (reasonOf reason)
      (access user.stored viewer kyc.userId kyc.idDocumentUrl)

structure KycData where
  firstName         : String
  lastName          : String
  dateOfBirth       : String
  nationality       : String
  address           : String
  city              : String
  country           : String
  postalCode        : String
  phoneNumber       : String
  idType            : String
  idNumber          : String
  idExpiry          : String
  idDocumentUrl     : String
  occupation        : String
  sourceOfFunds     : String
  annualIncome      : String
  politicalExposure : Bool := false
  deriving DecidableEq, Repr

-- The AML provider, the encryption of fields, and which values the database takes for dates.
structure Provider extends Cipher where
  screen  : Option KycData → Option AmlChecks
  encrypt : String → String
  isDate  : String → Bool

def riskLevel (checks : AmlChecks) : RiskLevel :=
  if checks.sanctions || checks.adverseMedia || checks.watchlist then .high
  else if checks.pep then .medium
  else .low

-- `{ userId, ...kycData, riskLevel, amlChecks: checks, status }`, encrypted as it is saved.
def KycData.record (p : Provider) (userId : String) (checks : AmlChecks) (now : ℕ) (d : KycData) : KYC where
  userId            := userId
  firstName         := some d.firstName
  lastName          := some d.lastName
  dateOfBirth       := some d.dateOfBirth
  nationality       := some d.nationality
  address           := some (p.encrypt d.address)
  city              := some (p.encrypt d.city)
  country           := some d.country
  postalCode        := some (p.encrypt d.postalCode)
  phoneNumber       := some (p.encrypt d.phoneNumber)
  idType            := some d.idType
  idNumber          := some (p.encrypt d.idNumber)
  idExpiry          := some d.idExpiry
  idDocumentUrl     := some d.idDocumentUrl
  occupation        := some d.occupation
  sourceOfFunds     := some d.sourceOfFunds
  annualIncome      := some d.annualIncome
  politicalExposure := d.politicalExposure
  riskLevel         := riskLevel checks
  amlChecks         := checks
  submittedAt       := now

structure Submitted where
  kycId     : ℕ
  riskLevel : RiskLevel
  status    : KYCStatus
  checks    : AmlChecks
  deriving DecidableEq, Repr

def fullName (d : KycData) : String :=
  String.intercalate " " ([d.firstName, d.lastName].filter (· ≠ ""))

def World.createKyc (w : World) (kycId : ℕ) (kyc : KYC) : World :=
  w.updateDb fun db => { db with kyc := db.kyc.add kycId kyc }

-- The name of an account that has none.
def World.nameUser (w : World) (userId name : String) : World :=
  { w with
    users := w.users.update userId fun u =>
      if (present u.name).isNone then { u with name := some name } else u }

-- `POST /submit`, of a body that has passed the schema.
def submitKYC (p : Provider) (kycId now : ℕ) (d : KycData) (user : ReqUser) :
    Handler (Except Failure Submitted) := do
  match virtualId user with
  | none        => return .error unauthorized
  | some userId =>
    if d.idDocumentUrl ≠ "" ∧ isPrefix (userId ++ "-") d.idDocumentUrl = false then
      return .error (forbidden "Document was not uploaded by this account")
    else do
      let inProgress ← Prog.read .step fun w => w.db.kyc.any fun k =>
        k.userId = userId && (k.status = .pending || k.status = .review)
      if inProgress then
        return .error (appError "INVALID_REQUEST_FORMAT" 400 "KYC already in progress")
      else match p.screen (some d) with
      | none        => return .error (appError "INTERNAL_ERROR" 500 "Internal server error")
      | some checks =>
        if p.isDate d.dateOfBirth ∧ p.isDate d.idExpiry then do
          .write .step (·.createKyc kycId (d.record p userId checks now))
          if d.firstName ≠ "" ∨ d.lastName ≠ "" then
            .write .step (·.nameUser userId (fullName d))
          return .ok ⟨kycId, riskLevel checks, .pending, checks⟩
        else return .error (databaseError "Failed to submit KYC")

-- The KYC of a user that was submitted last.
def latest (kyc : KVStore ℕ KYC) (userId : String) : Option (ℕ × KYC) :=
  (kyc.find (·.userId = userId)).entries.foldl
    (fun best e => if best.all fun b => b.2.submittedAt < e.2.submittedAt then some e else best) none

-- The KYC that was found is updated, or one is made.
def World.recordChecks (w : World) (userId : String) (kycId now : ℕ) (checks : AmlChecks) : World :=
  w.updateDb fun db =>
    match (db.kyc.find (·.userId = userId)).entries.head? with
    | some (key, _) =>
      { db with kyc := db.kyc.update key fun k => { k with riskLevel := riskLevel checks, amlChecks := checks } }
    | none          =>
      { db with kyc := db.kyc.add kycId { userId, riskLevel := riskLevel checks, amlChecks := checks, submittedAt := now } }

-- `POST /aml/check`
def runAMLCheck (p : Provider) (kycId now : ℕ) (d : Option KycData) (user : ReqUser) :
    Handler (Except Failure (AmlChecks × RiskLevel)) := do
  match virtualId user with
  | none        => return .error unauthorized
  | some userId =>
    match p.screen d with
    | none        => return .error (databaseError "Failed to run AML check")
    | some checks => do
      .write .step (·.recordChecks userId kycId now checks)
      return .ok (checks, riskLevel checks)

-- `GET /status`. The answer has the fields of the record, decrypted.
def getKYCStatus (p : Provider) (user : ReqUser) : Handler (Except Failure (Option (ℕ × KYC))) := do
  match virtualId user with
  | none        => return .error unauthorized
  | some userId => do
    let found ← Prog.read .step fun w => latest w.db.kyc userId
    match found with
    | none              => return .ok none
    | some (kycId, kyc) =>
      match p.decryptKycPii kyc with
      | none           => return .error (appError "INTERNAL_ERROR" 500 "Internal server error")
      | some decrypted => return .ok (some (kycId, decrypted))

-- What a token says. It expires with the session.
structure TokenPayload where
  userId   : String
  username : String
  jti      : String
  exp      : ℕ
  deriving DecidableEq, Repr

structure Refreshed where
  token   : TokenPayload
  revoked : Option (String × ℕ)
  deriving DecidableEq, Repr

-- `POST /refresh`. The old token is revoked for the rest of its life.
def refresh (jti : String) (now sessionSeconds : ℕ) (old : TokenPayload) (user : ReqUser) :
    Handler (Except Failure Refreshed) :=
  let name := (present user.stored.username).getD user.stored.email
  return .ok {
    token   := ⟨user.objectId, name, jti, now + sessionSeconds⟩
    revoked := if now < old.exp then some (old.jti, old.exp - now) else none
  }

structure Declaration where
  fundsSource  : String
  narrative    : String
  documentRef  : Option String := none
  estimatedKes : Option ℚ := none
  deriving DecidableEq, Repr

def nativeEarningsSources : List String :=
  ["mining_staking_rewards", "mallpoints_conversion", "referral_bonus"]

def fundsSources : List String :=
  nativeEarningsSources ++ ["salary", "business_income", "gift", "asset_sale", "other"]

def isNativeEarnings (d : Declaration) : Bool :=
  nativeEarningsSources.contains d.fundsSource

-- The fields that fail the schema.
def Declaration.errors (d : Declaration) : List String :=
  (if fundsSources.contains d.fundsSource then [] else ["fundsSource"]) ++
  (if 20 ≤ d.narrative.length ∧ d.narrative.length ≤ 2000 then [] else ["narrative"]) ++
  (if d.documentRef = some "" ∨ (d.documentRef = none ∧ !isNativeEarnings d) then ["documentRef"] else []) ++
  (if d.estimatedKes.all (0 < ·) then [] else ["estimatedKes"])

def Declaration.review (p : Provider) (userId wallet : String) (now : ℕ) (d : Declaration) :
    WithdrawalAmlReview where
  userId           := userId
  walletAddress    := wallet
  triggerAmountKes := d.estimatedKes.getD 0
  fundsSource      := d.fundsSource
  isNativeEarnings := isNativeEarnings d
  narrative        := p.encrypt d.narrative
  documentRef      := d.documentRef
  submittedAt      := now

def World.createReview (w : World) (reviewId : ℕ) (review : WithdrawalAmlReview) : World :=
  w.updateDb fun db => { db with amlReviews := db.amlReviews.add reviewId review }

-- `POST /declare`
def declare (p : Provider) (reviewId now : ℕ) (d : Declaration) (user : ReqUser) :
    Handler (Except Failure (ℕ × ReviewStatus)) := do
  match present user.stored.walletAddress with
  | none        =>
    return .error (appError "INVALID_REQUEST_FORMAT" 400
      "Link a wallet to your account before completing this verification.")
  | some wallet =>
    if d.errors ≠ [] then
      return .error (appError "INVALID_REQUEST_FORMAT" 400
        ("Verification form validation failed: " ++ String.intercalate ", " d.errors))
    else if d.documentRef.any (fun ref => !isPrefix (anyId user ++ "-") ref) then
      return .error (forbidden "Document was not uploaded by this account")
    else do
      .write .step (·.createReview reviewId (d.review p (anyId user) wallet now))
      return .ok (reviewId, .pending)

structure ReviewState where
  walletLinked : Bool
  reviewStatus : Option ReviewStatus := none
  reviewId     : Option ℕ := none
  reviewNotes  : Option String := none
  deriving DecidableEq, Repr

def latestReview (reviews : KVStore ℕ WithdrawalAmlReview) (wallet : String) :
    Option (ℕ × WithdrawalAmlReview) :=
  (reviews.find (·.walletAddress = wallet)).entries.foldl
    (fun best e => if best.all fun b => b.2.submittedAt < e.2.submittedAt then some e else best) none

-- `GET /status` of withdrawals
def getReviewStatus (user : ReqUser) : Handler (Except Failure ReviewState) := do
  match present user.stored.walletAddress with
  | none        => return .ok { walletLinked := false }
  | some wallet => do
    let found ← Prog.read .step fun w => latestReview w.db.amlReviews wallet
    return .ok {
      walletLinked := true
      reviewStatus := found.map (·.2.status)
      reviewId     := found.map (·.1)
      reviewNotes  := found.bind fun r => present r.2.reviewNotes
    }

-- `GET /:reviewId/document`
def getReviewDocument (reviewId : ℕ) (reason : Option String) (user : ReqUser) :
    Handler (Except Failure String) := do
  let viewer := anyId user
  let found ← Prog.read .step (·.db.amlReviews.get reviewId)
  match found with
  | none        => return .error (notFound "Not found")
  | some review =>
    serve "withdrawal_aml_document_viewed" viewer (toString reviewId) review.userId user.stored
      (reasonOf reason) (access user.stored viewer review.userId review.documentRef)

end Account
