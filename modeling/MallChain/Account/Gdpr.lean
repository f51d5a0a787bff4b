import MallChain.Account.Auth

namespace Account

open Interleaving

def redacted : String :=
  "[erased]"

-- A text that counts as one in a condition.
def present (s : Option String) : Option String :=
  s.filter (· ≠ "")

-- Decryption of fields that were stored encrypted. It may throw.
structure Cipher where
  decipher : (iv tag text : String) → Option String

namespace Cipher

variable (cipher : Cipher)

def decryptField (stored : String) : Option String :=
  match stored.splitOn ":" with
  | ["v1", iv, tag, text] => cipher.decipher iv tag text
  | _                     => some stored

def decrypt : Option String → Option (Option String)
  | none        => some none
  | some stored => (cipher.decryptField stored).map some

def decryptKycPii (kyc : KYC) : Option KYC := do
  let idNumber ← cipher.decrypt kyc.idNumber
  let phoneNumber ← cipher.decrypt kyc.phoneNumber
  let address ← cipher.decrypt kyc.address
  let city ← cipher.decrypt kyc.city
  let postalCode ← cipher.decrypt kyc.postalCode
  return { kyc with idNumber, phoneNumber, address, city, postalCode }

def decryptAll (kyc : KVStore ℕ KYC) : Option (KVStore ℕ KYC) :=
  if kyc.entries.all fun e => (cipher.decryptKycPii e.2).isSome then
    some (kyc.updateMany (fun _ => true) fun k => (cipher.decryptKycPii k).getD k)
  else none

end Cipher

section Queries

variable {ρ : Type}

-- The records with the wallet or the phone of the account. An account with neither has no query.
def walletOrPhone (user : Profile) (walletField phoneField : ρ → Option String) :
    Option (ρ → Bool) :=
  let wallet := present user.walletAddress
  let phone := present user.phone
  if wallet.isSome ∨ phone.isSome then
    some fun r => (wallet.isSome ∧ walletField r = wallet) ∨ (phone.isSome ∧ phoneField r = phone)
  else none

def findBy (s : KVStore ℕ ρ) : Option (ρ → Bool) → KVStore ℕ ρ
  | some query => s.find query
  | none       => .empty

def updateBy (s : KVStore ℕ ρ) (f : ρ → ρ) : Option (ρ → Bool) → KVStore ℕ ρ
  | some query => s.updateMany query f
  | none       => s

end Queries

structure Export where
  objectId                : String
  account                 : Profile
  kyc                     : KVStore ℕ KYC
  settings                : Option Owned
  apiKeys                 : KVStore ℕ Owned
  contracts               : KVStore ℕ Owned
  notifications           : KVStore ℕ Owned
  validatorApplications   : KVStore ℕ Owned
  walletTransactions      : KVStore ℕ Owned
  transactions            : KVStore ℕ Owned
  conversations           : KVStore ℕ Conversation
  messages                : KVStore ℕ Message
  badgeIssuances          : KVStore ℕ Financial
  badgePurchases          : KVStore ℕ Financial
  mallcoinPurchases       : KVStore ℕ Financial
  mallcoinSales           : KVStore ℕ Sale
  withdrawalRequests      : KVStore ℕ Financial
  b2cPayouts              : KVStore ℕ Payout
  liquidityActivity       : KVStore ℕ Financial
  liquidityReconciliation : KVStore ℕ Financial

def ownedBy (user : ReqUser) (r : Owned) : Bool :=
  r.userId = user.objectId

def walletQuery (user : Profile) : Option (Financial → Bool) :=
  (present user.walletAddress).map fun wallet r => r.walletAddress = some wallet

def financialQuery (user : Profile) : Option (Financial → Bool) :=
  walletOrPhone user (·.walletAddress) (·.phone)

def saleQuery (user : Profile) : Option (Sale → Bool) :=
  walletOrPhone user (·.sellerAddress) (·.phone)

def payoutQuery (user : Profile) : Option (Payout → Bool) :=
  walletOrPhone user (·.sellerAddress) (·.sellerPhone)

def gatherUserData (cipher : Cipher) (user : ReqUser) (db : Database) : Option Export := do
  let kyc ← cipher.decryptAll (db.kyc.find (·.userId = user.objectId))
  return {
    objectId                := user.objectId
    account                 := user.stored
    kyc                     := kyc
    settings                := (db.settings.find (ownedBy user)).values.head?
    apiKeys                 := db.apiKeys.find (ownedBy user)
    contracts               := db.contracts.find (ownedBy user)
    notifications           := db.notifications.find (ownedBy user)
    validatorApplications   := db.validatorApplications.find (ownedBy user)
    walletTransactions      := db.walletTransactions.find (ownedBy user)
    transactions            := db.transactions.find (ownedBy user)
    conversations           := db.conversations.find fun r => r.participants.contains user.objectId
    messages                := db.messages.find (·.senderId = user.objectId)
    badgeIssuances          := findBy db.badgeIssuances (walletQuery user.stored)
    badgePurchases          := findBy db.badgePurchases (financialQuery user.stored)
    mallcoinPurchases       := findBy db.mallcoinPurchases (financialQuery user.stored)
    mallcoinSales           := findBy db.mallcoinSales (saleQuery user.stored)
    withdrawalRequests      := findBy db.withdrawalRequests (financialQuery user.stored)
    b2cPayouts              := findBy db.b2cPayouts (payoutQuery user.stored)
    liquidityActivity       := findBy db.liquidityActivity (financialQuery user.stored)
    liquidityReconciliation := findBy db.liquidityReconciliation (walletQuery user.stored)
  }

-- `GET /export`. The password is not among what was selected.
def exportData (cipher : Cipher) (user : ReqUser) : Handler (Except Failure Export) := do
  let data ← Prog.read .step fun w => gatherUserData cipher user w.db
  match data with
  | some data => return .ok data
  | none      => return .error ⟨500, "export failed"⟩

-- The writes of an erasure.
inductive Erasing
  | notifications
  | settings
  | apiKeys
  | contracts
  | kyc
  | messages
  | badgePurchases
  | mallcoinPurchases
  | withdrawalRequests
  | liquidityActivity
  | mallcoinSales
  | b2cPayouts
  | account
  | auditLog
  deriving DecidableEq, Repr

def redactKYC (erasedAt : ℕ) (k : KYC) : KYC :=
  { k with
    firstName     := some redacted
    lastName      := some redacted
    address       := some redacted
    city          := some redacted
    postalCode    := some redacted
    phoneNumber   := some redacted
    idNumber      := some redacted
    idDocumentUrl := none
    sourceOfFunds := some redacted
    annualIncome  := some redacted
    notes         := some redacted
    amlChecks     := { k.amlChecks with raw := none }
    erasedAt      := some erasedAt }

def redactMessage (m : Message) : Message :=
  { m with text := "[message deleted by user]" }

def redactPhone (r : Financial) : Financial :=
  { r with phone := some redacted }

def redactSale (r : Sale) : Sale :=
  { r with phone := some redacted }

def redactPayout (r : Payout) : Payout :=
  { r with sellerPhone := some redacted }

def Erasing.apply (user : ReqUser) (erasedAt : ℕ) : Erasing → Database → Database
  | .notifications, db => { db with notifications := db.notifications.removeMany (ownedBy user) }
  | .settings, db => { db with settings := db.settings.removeMany (ownedBy user) }
  | .apiKeys, db => { db with apiKeys := db.apiKeys.removeMany (ownedBy user) }
  | .contracts, db => { db with contracts := db.contracts.removeMany (ownedBy user) }
  | .kyc, db => { db with kyc := db.kyc.updateMany (·.userId = user.objectId) (redactKYC erasedAt) }
  | .messages, db =>
    { db with messages := db.messages.updateMany (·.senderId = user.objectId) redactMessage }
  | .badgePurchases, db =>
    { db with badgePurchases := updateBy db.badgePurchases redactPhone (financialQuery user.stored) }
  | .mallcoinPurchases, db =>
    { db with mallcoinPurchases := updateBy db.mallcoinPurchases redactPhone (financialQuery user.stored) }
  | .withdrawalRequests, db =>
    { db with withdrawalRequests := updateBy db.withdrawalRequests redactPhone (financialQuery user.stored) }
  | .liquidityActivity, db =>
    { db with liquidityActivity := updateBy db.liquidityActivity redactPhone (financialQuery user.stored) }
  | .mallcoinSales, db =>
    { db with mallcoinSales := updateBy db.mallcoinSales redactSale (saleQuery user.stored) }
  | .b2cPayouts, db =>
    { db with b2cPayouts := updateBy db.b2cPayouts redactPayout (payoutQuery user.stored) }
  | .account, db | .auditLog, db => db

def redactPhoneOps (user : Profile) : List Erasing :=
  if (present user.walletAddress).isSome ∨ (present user.phone).isSome then
    [.badgePurchases, .mallcoinPurchases, .withdrawalRequests, .liquidityActivity, .mallcoinSales, .b2cPayouts]
  else []

-- What is begun together. If one of it fails, the rest of it is done and nothing after it.
def eraseStages (user : Profile) : List (List Erasing) :=
  [[.notifications, .settings, .apiKeys, .contracts], [.kyc], [.messages], redactPhoneOps user]

def eraseAll (user : ReqUser) (erasedAt : ℕ) (fails : Erasing → Bool) : List Erasing → Handler Unit
  | []        => return
  | s :: rest => do
    .write .step (·.updateDb fun db => if fails s then db else s.apply user erasedAt db)
    eraseAll user erasedAt fails rest

def eraseRecords (user : ReqUser) (erasedAt : ℕ) (fails : Erasing → Bool) :
    List (List Erasing) → Handler Bool
  | []             => return true
  | stage :: rest => do
    eraseAll user erasedAt fails stage
    if stage.any fails then return false else eraseRecords user erasedAt fails rest

def anonymised (id : String) (erasedAt : ℕ) (user : Profile) : Profile :=
  { user with
    email         := "erased-" ++ id ++ "@erased.mallchain.local"
    googleId      := none
    name          := none
    username      := none
    phone         := none
    walletAddress := none
    banned        := true
    erasedAt      := some erasedAt }

-- `user.save()` of the fields that were changed since the user was read, and of the password.
def saveErased (d : Document Profile) (stored : User) : User :=
  { stored with
    email         := d.written (·.email) stored.toProfile
    password      := none
    googleId      := d.written (·.googleId) stored.toProfile
    name          := d.written (·.name) stored.toProfile
    username      := d.written (·.username) stored.toProfile
    phone         := d.written (·.phone) stored.toProfile
    walletAddress := d.written (·.walletAddress) stored.toProfile
    banned        := d.written (·.banned) stored.toProfile
    erasedAt      := d.written (·.erasedAt) stored.toProfile }

def erasureFailed : Failure :=
  ⟨500, "erasure failed"⟩

-- The account itself comes last. What the cache has given is no document and cannot be saved.
def eraseAccount (user : ReqUser) (erasedAt : ℕ) (fails : Erasing → Bool) :
    Handler (Except Failure ℕ) := do
  if ¬user.hydrated ∨ fails .account then return .error erasureFailed
  else do
    let id := user.objectId
    let d := (Document.read user.stored).modify (anonymised id erasedAt)
    let result ← Prog.act .step (·.updateUser id (saveErased d)) (·.written id (saveErased d))
    match result with
    | none              => return .error erasureFailed
    | some (version, _) => do
      .write .step fun w =>
        if fails .auditLog then w else w.log ⟨"gdpr_erasure", "user:" ++ id, [("userId", id)]⟩
      .write (.erased id version) fun w => (w.settle id version).acknowledge id version
      return .ok erasedAt

def eraseUserData (user : ReqUser) (erasedAt : ℕ) (fails : Erasing → Bool) :
    Handler (Except Failure ℕ) := do
  if ← eraseRecords user erasedAt fails (eraseStages user.stored) then
    eraseAccount user erasedAt fails
  else return .error erasureFailed

-- `POST /delete`
def deleteData (compare : (password hash : String) → Bool) (password : Option String) (erasedAt : ℕ)
    (fails : Erasing → Bool) (user : ReqUser) : Handler (Except Failure ℕ) :=
  match present user.password with
  | none      => eraseUserData user erasedAt fails
  | some hash =>
    match present password with
    | none          => return .error ⟨400, "password confirmation is required"⟩
    | some password =>
      if compare password hash then eraseUserData user erasedAt fails
      else return .error ⟨401, "incorrect password"⟩

-- The writes that are carried out.
def carriedOut (fails : Erasing → Bool) : List (List Erasing) → List Erasing
  | []            => []
  | stage :: rest => stage.filter (!fails ·) ++ if stage.any fails then [] else carriedOut fails rest

def applyAll (user : ReqUser) (erasedAt : ℕ) (l : List Erasing) (db : Database) : Database :=
  l.foldl (fun db s => s.apply user erasedAt db) db

section Alone

variable {user : ReqUser} {erasedAt : ℕ} {fails : Erasing → Bool} {w : World}

theorem applyAll_append {l l' : List Erasing} {db : Database} :
    applyAll user erasedAt (l ++ l') db = applyAll user erasedAt l' (applyAll user erasedAt l db) :=
  List.foldl_append

theorem eraseAll_alone {l : List Erasing} :
    (eraseAll user erasedAt fails l).alone w =
      ((), w.updateDb (applyAll user erasedAt (l.filter (!fails ·)))) := by
  induction l generalizing w with
  | nil => rfl
  | cons s l ih =>
    rw [eraseAll, Prog.write_bind, Prog.alone_step, ih, List.filter_cons]
    cases hs : fails s <;> rfl

theorem eraseRecords_alone {stages : List (List Erasing)} :
    (eraseRecords user erasedAt fails stages).alone w =
      (!stages.any (·.any fails), w.updateDb (applyAll user erasedAt (carriedOut fails stages))) := by
  induction stages generalizing w with
  | nil => rfl
  | cons stage rest ih =>
    rw [eraseRecords, Prog.alone_bind, eraseAll_alone, carriedOut, List.any_cons]
    split_ifs with hfails
    case pos =>
      rw [hfails, List.append_nil]
      rfl
    case neg =>
      rw [Bool.not_eq_true] at hfails
      rw [ih, hfails, Bool.false_or]
      simp only [World.updateDb, applyAll_append]

end Alone

end Account
