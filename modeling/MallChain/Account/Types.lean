import MallChain.Lib.Collection
import MallChain.Lib.Document
import MallChain.Lib.Interleaving

namespace Account

-- The stored fields of a document that no function looks at.
abbrev Fields := List (String × String)

inductive Role
  | user
  | admin
  | superadmin
  deriving DecidableEq, Repr

-- The fields of a user as `select('-password')` gives them.
structure Profile where
  email         : String
  googleId      : Option String := none
  role          : Role := .user
  banned        : Bool := false
  banReason     : Option String := none
  name          : Option String := none
  username      : Option String := none
  phone         : Option String := none
  walletAddress : Option String := none
  erasedAt      : Option ℕ := none
  other         : Fields := []
  deriving DecidableEq, Repr

structure User extends Profile where
  password : Option String := none
  deriving DecidableEq, Repr

-- The user of a request. A document of the database has a virtual `id` and methods, what the cache
-- gives has only the stored fields.
structure ReqUser where
  objectId : String
  stored   : Profile
  hydrated : Bool
  deriving DecidableEq, Repr

namespace ReqUser

def id? (user : ReqUser) : Option String :=
  if user.hydrated then some user.objectId else none

-- The password is not selected, and a user has no `userId`.
def password (_ : ReqUser) : Option String :=
  none

def userId? (_ : ReqUser) : Option String :=
  none

end ReqUser

structure Owned where
  userId : String
  other  : Fields := []
  deriving DecidableEq, Repr

structure Conversation where
  participants : List String
  other        : Fields := []
  deriving DecidableEq, Repr

structure Message where
  senderId : String
  text     : String
  other    : Fields := []
  deriving DecidableEq, Repr

-- A purchase, a withdrawal, an activity of the pool, a reconciliation or a badge.
structure Financial where
  walletAddress : Option String
  phone         : Option String := none
  other         : Fields := []
  deriving DecidableEq, Repr

structure Sale where
  sellerAddress : Option String
  phone         : Option String := none
  other         : Fields := []
  deriving DecidableEq, Repr

structure Payout where
  sellerAddress : Option String
  sellerPhone   : Option String
  other         : Fields := []
  deriving DecidableEq, Repr

inductive RiskLevel
  | low
  | medium
  | high
  deriving DecidableEq, Repr

structure AmlChecks where
  sanctions    : Bool := false
  pep          : Bool := false
  adverseMedia : Bool := false
  watchlist    : Bool := false
  provider     : String := "mock"
  raw          : Option String := none
  deriving DecidableEq, Repr

inductive KYCStatus
  | pending
  | approved
  | rejected
  | review
  deriving DecidableEq, Repr

structure KYC where
  userId            : String
  firstName         : Option String := none
  lastName          : Option String := none
  dateOfBirth       : Option String := none
  nationality       : Option String := none
  address           : Option String := none
  city              : Option String := none
  country           : Option String := none
  postalCode        : Option String := none
  phoneNumber       : Option String := none
  idType            : Option String := none
  idNumber          : Option String := none
  idExpiry          : Option String := none
  idDocumentUrl     : Option String := none
  occupation        : Option String := none
  sourceOfFunds     : Option String := none
  annualIncome      : Option String := none
  politicalExposure : Bool := false
  riskLevel         : RiskLevel := .low
  amlChecks         : AmlChecks := {}
  status            : KYCStatus := .pending
  submittedAt       : ℕ := 0
  reviewedAt        : Option ℕ := none
  notes             : Option String := none
  erasedAt          : Option ℕ := none
  deriving DecidableEq, Repr

inductive ReviewStatus
  | pending
  | approved
  | rejected
  deriving DecidableEq, Repr

structure WithdrawalAmlReview where
  userId           : String
  walletAddress    : String
  triggerAmountKes : ℚ
  fundsSource      : String
  isNativeEarnings : Bool
  narrative        : String
  documentRef      : Option String := none
  status           : ReviewStatus := .pending
  submittedAt      : ℕ := 0
  reviewNotes      : Option String := none
  deriving DecidableEq, Repr

structure AuditLog where
  action  : String
  actor   : String
  details : Fields := []
  deriving DecidableEq, Repr

-- The collections beside the users.
structure Database where
  kyc                     : KVStore ℕ KYC := .empty
  settings                : KVStore ℕ Owned := .empty
  apiKeys                 : KVStore ℕ Owned := .empty
  contracts               : KVStore ℕ Owned := .empty
  notifications           : KVStore ℕ Owned := .empty
  validatorApplications   : KVStore ℕ Owned := .empty
  walletTransactions      : KVStore ℕ Owned := .empty
  transactions            : KVStore ℕ Owned := .empty
  conversations           : KVStore ℕ Conversation := .empty
  messages                : KVStore ℕ Message := .empty
  badgeIssuances          : KVStore ℕ Financial := .empty
  badgePurchases          : KVStore ℕ Financial := .empty
  mallcoinPurchases       : KVStore ℕ Financial := .empty
  mallcoinSales           : KVStore ℕ Sale := .empty
  withdrawalRequests      : KVStore ℕ Financial := .empty
  b2cPayouts              : KVStore ℕ Payout := .empty
  liquidityActivity       : KVStore ℕ Financial := .empty
  liquidityReconciliation : KVStore ℕ Financial := .empty
  amlReviews              : KVStore ℕ WithdrawalAmlReview := .empty
  auditLogs               : List AuditLog := []

-- The account as the cache holds it, with the number of changes that it has seen.
structure Copy where
  version : ℕ
  profile : Profile
  deriving DecidableEq, Repr

-- How often an account was changed, and up to which change it is settled and acknowledged.
structure History where
  version : ℕ := 0
  settled : ℕ := 0
  acked   : ℕ := 0
  deriving DecidableEq, Repr

-- What a request was decided on, and what had been acknowledged when it started.
structure Decision where
  userId  : String
  started : ℕ
  decided : ℕ
  deriving DecidableEq, Repr

structure World where
  users     : KVStore String User := .empty
  cache     : KVStore String Copy := .empty
  db        : Database := {}
  history   : KVStore String History := .empty
  decisions : List Decision := []

end Account
