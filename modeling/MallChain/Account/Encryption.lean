import MallChain.Account.Handlers
import MallChain.Lib.Text
import MallChain.Lib.ByteString
import MallChain.Lib.Snapshot

namespace Account

open Interleaving

-- The cipher with its other direction, of which the tag and the text are stored in base 64. The
-- initialisation vector is drawn anew for every value.
structure FieldCrypto extends Cipher where
  encipher : (iv : Base64.Bytes) → (plaintext : String) → Base64.Bytes × Base64.Bytes

-- What is deciphered with the vector and the tag it was enciphered with is the plaintext.
structure FieldCrypto.Lawful (c : FieldCrypto) : Prop where
  inverse : ∀ iv plaintext, c.decipher (Base64.encodeString iv)
    (Base64.encodeString (c.encipher iv plaintext).1) (Base64.encodeString (c.encipher iv plaintext).2) =
    some plaintext

def keyVersion : String :=
  "v1"

def FieldCrypto.encryptField (c : FieldCrypto) (iv : Base64.Bytes) (plaintext : String) : String :=
  let (authTag, ciphertext) := c.encipher iv plaintext
  String.intercalate ":" [keyVersion, Base64.encodeString iv, Base64.encodeString authTag,
    Base64.encodeString ciphertext]

def isEncrypted (value : String) : Bool :=
  isPrefix (keyVersion ++ ":") value

section Format

variable {c : FieldCrypto} {iv : Base64.Bytes} {value : String}

theorem colon_notMem {bytes : Base64.Bytes} : ':' ∉ (Base64.encodeString bytes).toList := by
  intro h
  cases Base64.mem_encodeString h with
  | inl hvalue => cases hvalue
  | inr heq => cases heq

theorem splitOn_encryptField : (c.encryptField iv value).splitOn ":" =
    [keyVersion, Base64.encodeString iv, Base64.encodeString (c.encipher iv value).1,
      Base64.encodeString (c.encipher iv value).2] := by
  have hversion : ':' ∉ keyVersion.toList := by decide
  have hparts : ∀ part ∈ [keyVersion, Base64.encodeString iv, Base64.encodeString (c.encipher iv value).1,
      Base64.encodeString (c.encipher iv value).2], ':' ∉ part.toList := by
    simp [hversion, colon_notMem]
  exact Split.splitOn_intercalate hparts (List.cons_ne_nil _ _)

-- A text is encrypted and decrypted again, whatever it starts with.
theorem decryptField_encryptField (hc : c.Lawful) : c.decryptField (c.encryptField iv value) = some value := by
  rw [Cipher.decryptField, splitOn_encryptField]
  exact hc.inverse iv value

theorem isEncrypted_iff : isEncrypted value = true ↔ "v1:".toList <+: value.toList := by
  rw [isEncrypted, isPrefix, List.isPrefixOf_iff_prefix]
  rfl

theorem isEncrypted_encryptField : isEncrypted (c.encryptField iv value) = true := by
  rw [isEncrypted_iff, FieldCrypto.encryptField, String.toList_intercalate]
  exact ⟨_, by simp [keyVersion, List.intercalate]; rfl⟩

theorem decryptField_of_plain (h : isEncrypted value = false) : c.decryptField value = some value := by
  rw [Cipher.decryptField]
  split
  case h_2 => rfl
  case h_1 iv tag text hparts =>
    have hvalue : String.intercalate ":" ["v1", iv, tag, text] = value := by
      rw [← hparts]
      exact Split.intercalate_splitOn (c := ':')
    have hencrypted : isEncrypted value = true := by
      rw [isEncrypted_iff, ← hvalue, String.toList_intercalate]
      exact ⟨_, by simp [List.intercalate]; rfl⟩
    rw [hencrypted] at h
    cases h

end Format

inductive PiiField
  | idNumber
  | phoneNumber
  | address
  | city
  | postalCode
  deriving DecidableEq, Repr

def encryptedFields : List PiiField :=
  [.idNumber, .phoneNumber, .address, .city, .postalCode]

namespace KYC

def pii (k : KYC) : PiiField → Option String
  | .idNumber    => k.idNumber
  | .phoneNumber => k.phoneNumber
  | .address     => k.address
  | .city        => k.city
  | .postalCode  => k.postalCode

def setPii (k : KYC) (value : PiiField → Option String) : KYC :=
  { k with
    idNumber    := value .idNumber
    phoneNumber := value .phoneNumber
    address     := value .address
    city        := value .city
    postalCode  := value .postalCode }

variable {k : KYC} {value value' : PiiField → Option String}

@[simp]
theorem pii_setPii : (k.setPii value).pii = value := by
  funext field
  cases field <;> rfl

@[simp]
theorem setPii_pii : k.setPii k.pii = k :=
  rfl

@[simp]
theorem setPii_setPii : (k.setPii value).setPii value' = k.setPii value' :=
  rfl

-- An update that neither looks at these fields nor sets them.
structure LeavesPii (f : KYC → KYC) : Prop where
  pii    : ∀ k, (f k).pii = k.pii
  setPii : ∀ k value, f (k.setPii value) = (f k).setPii value

-- What is not to be read in the database: a value is encrypted, or was erased.
def FieldSealed (value : Option String) : Prop :=
  ∀ text ∈ value, isEncrypted text = true ∨ text = redacted

def Sealed (k : KYC) : Prop :=
  ∀ field, FieldSealed (k.pii field)

-- Of a record that was erased, these fields were.
def Cleared (k : KYC) : Prop :=
  k.erasedAt.isSome = true → k.pii = fun _ => some redacted

end KYC

section Decryption

variable {c : FieldCrypto} {k k' : KYC}

theorem decryptKycPii_eq_some : c.decryptKycPii k = some k' ↔
    (∀ field, c.decrypt (k.pii field) = some (k'.pii field)) ∧ k' = k.setPii k'.pii := by
  simp only [Cipher.decryptKycPii, bind, Option.bind_eq_some_iff, pure, Option.some.injEq]
  constructor
  case mp =>
    rintro ⟨idNumber, hid, phoneNumber, hphone, address, haddress, city, hcity, postalCode, hpostal, rfl⟩
    refine ⟨?_, rfl⟩
    intro field
    cases field
    case idNumber => exact hid
    case phoneNumber => exact hphone
    case address => exact haddress
    case city => exact hcity
    case postalCode => exact hpostal
  case mpr =>
    intro h
    obtain ⟨hfields, hk'⟩ := h
    exact ⟨_, hfields .idNumber, _, hfields .phoneNumber, _, hfields .address, _, hfields .city,
      _, hfields .postalCode, hk'.symm⟩

theorem decryptKycPii_leaves {f : KYC → KYC} (hf : KYC.LeavesPii f) (h : c.decryptKycPii k = some k') :
    c.decryptKycPii (f k) = some (f k') := by
  obtain ⟨hfields, hk'⟩ := decryptKycPii_eq_some.mp h
  apply decryptKycPii_eq_some.mpr
  rw [hf.pii, hf.pii]
  refine ⟨hfields, ?_⟩
  conv => lhs; rw [hk', hf.setPii]

-- What is put into a record is what is read of it.
theorem decryptKycPii_setPii {value : PiiField → Option String} (h : c.decryptKycPii k = some k')
    (hvalue : ∀ field, c.decrypt (value field) = some (k'.pii field)) :
    c.decryptKycPii (k.setPii value) = some k' := by
  obtain ⟨_, hk'⟩ := decryptKycPii_eq_some.mp h
  apply decryptKycPii_eq_some.mpr
  rw [KYC.pii_setPii, KYC.setPii_setPii]
  exact ⟨hvalue, hk'⟩

-- Nothing of a record is encrypted.
theorem decryptKycPii_of_plain (h : ∀ field, ∀ text ∈ k.pii field, isEncrypted text = false) :
    c.decryptKycPii k = some k := by
  apply decryptKycPii_eq_some.mpr
  refine ⟨?_, rfl⟩
  intro field
  have hplain := h field
  cases hfield : k.pii field with
  | none => rfl
  | some text => rw [Cipher.decrypt, decryptField_of_plain (hplain text hfield), Option.map_some]

theorem get_decryptAll {kyc clear : KVStore ℕ KYC} {id : ℕ} (h : c.decryptAll kyc = some clear)
    (hget : kyc.get id = some k) (hget' : clear.get id = some k') : c.decryptKycPii k = some k' := by
  rw [Cipher.decryptAll] at h
  split_ifs at h with hall
  cases h
  have hsome := List.all_eq_true.mp hall (id, k) (KVStore.mem_entries_iff.mpr hget)
  obtain ⟨l, hl⟩ := Option.isSome_iff_exists.mp hsome
  rw [KVStore.get_updateMany, hget, Option.map_some, if_pos rfl, hl, Option.getD_some] at hget'
  rw [hl, hget']

end Decryption

-- A document with the fields that were set in it. All of a new one were.
structure KycDoc where
  current  : KYC
  modified : List PiiField := []

namespace KycDoc

def new (k : KYC) : KycDoc where
  current  := k
  modified := encryptedFields

def isModified (d : KycDoc) (field : PiiField) : Bool :=
  d.modified.contains field

def markModified (d : KycDoc) (field : PiiField) : KycDoc :=
  { d with modified := field :: d.modified }

-- The hook before a document is saved.
def encryptPiiOnSave (c : FieldCrypto) (iv : PiiField → Base64.Bytes) (d : KycDoc) : KycDoc :=
  { d with
    current := d.current.setPii fun field =>
      if d.isModified field then (d.current.pii field).map (c.encryptField (iv field))
      else d.current.pii field }

-- What is set is written, and the rest stays as it is stored.
def written (d : KycDoc) (stored : KYC) : KYC :=
  stored.setPii fun field => if d.isModified field then d.current.pii field else stored.pii field

def save (c : FieldCrypto) (iv : PiiField → Base64.Bytes) (d : KycDoc) : KYC → KYC :=
  (d.encryptPiiOnSave c iv).written

section Save

variable {c : FieldCrypto} {iv : PiiField → Base64.Bytes} {d : KycDoc} {stored : KYC}

theorem save_eq : d.save c iv stored = stored.setPii fun field =>
    if d.isModified field then (d.current.pii field).map (c.encryptField (iv field))
    else stored.pii field := by
  rw [save, written, encryptPiiOnSave]
  congr 1
  funext field
  rw [KYC.pii_setPii]
  have hmodified : ∀ current, isModified { current, modified := d.modified } field = d.isModified field :=
    fun _ => rfl
  rw [hmodified]
  split_ifs <;> rfl

-- A document in which none of these fields was set leaves them as they are stored.
theorem save_of_unmodified (h : d.modified = []) : d.save c iv stored = stored := by
  have hmodified : ∀ field, d.isModified field = false := by
    intro field
    rw [isModified, h]
    rfl
  rw [save_eq]
  simp [hmodified]

theorem pii_save_new {k : KYC} {field : PiiField} :
    ((new k).save c iv k).pii field = (k.pii field).map (c.encryptField (iv field)) := by
  have hmodified : (new k).isModified field = true := by cases field <;> rfl
  rw [save_eq, KYC.pii_setPii, if_pos hmodified]
  rfl

end Save

end KycDoc

namespace AtRest

-- The records as they are stored, and in the clear, which nothing reads. A migration that has ended and
-- in which nothing failed is noted.
structure Store where
  kyc       : KVStore ℕ KYC
  clear     : KVStore ℕ KYC
  completed : Bool := false

-- A migration saves a record that it has loaded.
inductive Label
  | step
  | migrating (kycId : ℕ) (loaded : KYC)

abbrev Handler := Prog Label Store

-- A record is changed in both collections.
def Store.write (s : Store) (f g : KVStore ℕ KYC → KVStore ℕ KYC) : Store :=
  { s with kyc := f s.kyc, clear := g s.clear }

-- The record of a submission before it is saved.
def submitted (userId : String) (checks : AmlChecks) (now : ℕ) (d : KycData) : KYC :=
  d.record { decipher := fun _ _ _ => none, screen := fun _ => none, encrypt := id, isDate := fun _ => true }
    userId checks now

-- `KYC.create`, of a record that may be refused
def create (c : FieldCrypto) (iv : PiiField → Base64.Bytes) (kycId : ℕ) (k : KYC) (saves : Bool) :
    Handler Unit :=
  if saves then .write .step (·.write (·.add kycId ((KycDoc.new k).save c iv k)) (·.add kycId k))
  else return

def checked (checks : AmlChecks) (k : KYC) : KYC :=
  { k with riskLevel := riskLevel checks, amlChecks := checks }

-- `KYC.findOneAndUpdate({ userId }, { riskLevel, amlChecks }, { upsert: true })`
def recordChecks (userId : String) (kycId now : ℕ) (checks : AmlChecks) (kyc : KVStore ℕ KYC) :
    KVStore ℕ KYC :=
  match (kyc.find (·.userId = userId)).entries.head?.map (·.1) with
  | some key => kyc.update key (checked checks)
  | none     =>
    kyc.add kycId { userId, riskLevel := riskLevel checks, amlChecks := checks, submittedAt := now }

def runAMLCheck (userId : String) (kycId now : ℕ) (checks : AmlChecks) : Handler Unit :=
  .write .step (·.write (recordChecks userId kycId now checks) (recordChecks userId kycId now checks))

def reviewed (status : KYCStatus) (now : ℕ) (notes : Option String) (k : KYC) : KYC :=
  { k with status, reviewedAt := some now, notes := some (notes.getD "") }

-- `POST /kyc/:id/review`: the record is loaded, and saved with another status.
def review (c : FieldCrypto) (iv : PiiField → Base64.Bytes) (kycId : ℕ) (status : KYCStatus) (now : ℕ)
    (notes : Option String) (saves : Bool) : Handler Unit := do
  let found ← .read .step (·.kyc.get kycId)
  match found with
  | none   => return
  | some k =>
    let doc : KycDoc := { current := reviewed status now notes k }
    if saves then
      .write .step (·.write (·.update kycId fun k => doc.save c iv (reviewed status now notes k))
        (·.update kycId (reviewed status now notes)))
    else return

-- The erasure of an account redacts its records, and saves no document.
def erase (userId : String) (erasedAt : ℕ) : Handler Unit :=
  .write .step (·.write (·.updateMany (·.userId = userId) (redactKYC erasedAt))
    (·.updateMany (·.userId = userId) (redactKYC erasedAt)))

def unencrypted (k : KYC) (field : PiiField) : Bool :=
  (k.pii field).any fun value => !isEncrypted value

def needsMigration (k : KYC) : Bool :=
  encryptedFields.any (unencrypted k)

-- The document with the fields marked that are to be encrypted.
def marked (doc : KycDoc) : KycDoc :=
  (encryptedFields.filter (unencrypted doc.current)).foldl KycDoc.markModified doc

-- The cursor loads some records,
def loadEach : List ℕ → Handler (List (ℕ × KycDoc))
  | []              => return []
  | kycId :: kycIds => do
    let found ← .read .step (·.kyc.get kycId)
    let docs ← loadEach kycIds
    match found with
    | none   => return docs
    | some k => return (kycId, { current := k }) :: docs

-- and hands them out. The answer says whether one failed.
def migrateEach (c : FieldCrypto) (iv : ℕ → PiiField → Base64.Bytes) (apply : Bool) (saves : ℕ → Bool) :
    List (ℕ × KycDoc) → Handler Bool
  | []                   => return false
  | (kycId, doc) :: docs =>
    if needsMigration doc.current && apply then
      if saves kycId then do
        .write (.migrating kycId doc.current)
          (·.write (·.update kycId ((marked doc).save c (iv kycId))) id)
        migrateEach c iv apply saves docs
      else do
        let _ ← migrateEach c iv apply saves docs
        return true
    else migrateEach c iv apply saves docs

def migrateBatches (c : FieldCrypto) (iv : ℕ → PiiField → Base64.Bytes) (apply : Bool)
    (saves : ℕ → Bool) : List (List ℕ) → Handler Bool
  | []               => return false
  | batch :: batches => do
    let docs ← loadEach batch
    let failed ← migrateEach c iv apply saves docs
    let failedLater ← migrateBatches c iv apply saves batches
    return failed || failedLater

-- `scripts/migrate-encrypt-kyc-pii.js`
def migrate (c : FieldCrypto) (iv : ℕ → PiiField → Base64.Bytes) (apply : Bool) (saves : ℕ → Bool)
    (batches : List (List ℕ)) : Handler Unit := do
  let failed ← migrateBatches c iv apply saves batches
  if apply && !failed then .write .step fun s => { s with completed := true }
  else return

inductive Request
  | create (iv : PiiField → Base64.Bytes) (kycId : ℕ) (userId : String) (checks : AmlChecks) (now : ℕ)
      (d : KycData) (saves : Bool)
  | runAMLCheck (userId : String) (kycId now : ℕ) (checks : AmlChecks)
  | review (iv : PiiField → Base64.Bytes) (kycId : ℕ) (status : KYCStatus) (now : ℕ)
      (notes : Option String) (saves : Bool)
  | erase (userId : String) (erasedAt : ℕ)
  | migrate (iv : ℕ → PiiField → Base64.Bytes) (apply : Bool) (saves : ℕ → Bool)
      (batches : List (List ℕ))

def Request.handler (c : FieldCrypto) : Request → Handler Unit
  | .create iv kycId userId checks now d saves   =>
    AtRest.create c iv kycId (submitted userId checks now d) saves
  | .runAMLCheck userId kycId now checks         => AtRest.runAMLCheck userId kycId now checks
  | .review iv kycId status now notes saves      => AtRest.review c iv kycId status now notes saves
  | .erase userId erasedAt                       => AtRest.erase userId erasedAt
  | .migrate iv apply saves batches              => AtRest.migrate c iv apply saves batches

-- The writes are those of the handlers of the routes.
theorem submitted_saved {p : Provider} {c : FieldCrypto} {iv : Base64.Bytes} {userId : String}
    {checks : AmlChecks} {now : ℕ} {d : KycData} :
    (KycDoc.new (submitted userId checks now d)).save c (fun _ => iv) (submitted userId checks now d) =
      d.record { p with encrypt := c.encryptField iv } userId checks now :=
  rfl

theorem recordChecks_updateDb {w : World} {userId : String} {kycId now : ℕ} {checks : AmlChecks} :
    w.recordChecks userId kycId now checks =
      w.updateDb fun db => { db with kyc := recordChecks userId kycId now checks db.kyc } := by
  rw [World.recordChecks]
  congr 1
  funext db
  rw [recordChecks]
  cases (db.kyc.find (·.userId = userId)).entries.head? <;> rfl

theorem erase_apply {user : ReqUser} {erasedAt : ℕ} {db : Database} :
    Erasing.kyc.apply user erasedAt db =
      { db with kyc := db.kyc.updateMany (·.userId = user.objectId) (redactKYC erasedAt) } :=
  rfl

-- A record as it is stored, and in the clear.
structure Pair (c : FieldCrypto) (k k' : KYC) : Prop where
  reads   : c.decryptKycPii k = some k'
  cleared : k'.Cleared

-- A record in the clear keeps these fields, or is erased.
def Later (k k' : KYC) : Prop :=
  k'.erasedAt = k.erasedAt ∧ k'.pii = k.pii ∨ k'.erasedAt.isSome = true ∧ k'.Cleared

theorem Later.refl (k : KYC) : Later k k :=
  .inl ⟨rfl, rfl⟩

theorem Later.trans {k₁ k₂ k₃ : KYC} (h : Later k₁ k₂) (h' : Later k₂ k₃) : Later k₁ k₃ := by
  rcases h' with ⟨herased, hpii⟩ | hcleared
  case inr => exact .inr hcleared
  case inl =>
    rcases h with ⟨herased', hpii'⟩ | ⟨hsome, hcleared⟩
    case inl => exact .inl ⟨herased.trans herased', hpii.trans hpii'⟩
    case inr =>
      refine .inr ⟨herased ▸ hsome, ?_⟩
      intro _
      rw [hpii]
      exact hcleared hsome

-- What a write does to a record.
structure Change (c : FieldCrypto) (k k' l l' : KYC) : Prop where
  pair   : Pair c l l'
  sealed : ∀ field, KYC.FieldSealed (k.pii field) → KYC.FieldSealed (l.pii field)
  later  : Later k' l'

inductive Moved (c : FieldCrypto) : (stored clear stored' clear' : Option KYC) → Prop
  | absent : Moved c none none none none
  | created {l l' : KYC} : Pair c l l' → l.Sealed → Moved c none none (some l) (some l')
  | changed {k k' l l' : KYC} : Change c k k' l l' → Moved c (some k) (some k') (some l) (some l')

theorem Change.refl {c : FieldCrypto} {k k' : KYC} (h : Pair c k k') : Change c k k' k k' where
  pair     := h
  sealed _ := id
  later    := .refl k'

theorem Moved.refl {c : FieldCrypto} {o o' : Option KYC} (h : Option.Rel (Pair c) o o') : Moved c o o' o o' := by
  cases h with
  | none => exact .absent
  | some h => exact .changed (.refl h)

section Moved

variable {c : FieldCrypto} {o o' p p' : Option KYC}

theorem Moved.pairs (h : Moved c o o' p p') : Option.Rel (Pair c) p p' := by
  cases h with
  | absent => exact .none
  | created hpair _ => exact .some hpair
  | changed hchange => exact .some hchange.pair

theorem Moved.present (h : Moved c o o' p p') : o.isSome = true → p.isSome = true := by
  cases h with
  | absent => exact id
  | created => exact fun _ => rfl
  | changed => exact id

theorem Moved.sealed (h : Moved c o o' p p') (ho : ∀ k, o = some k → k.Sealed) {l : KYC} (hl : p = some l) :
    l.Sealed := by
  cases h with
  | absent => cases hl
  | created _ hsealed =>
    cases hl
    exact hsealed
  | changed hchange =>
    cases hl
    exact fun field => hchange.sealed field (ho _ rfl field)

theorem Moved.stored {k : KYC} (h : Moved c o o' p p') (hk : o = some k) :
    ∃ l, p = some l ∧ ∀ field, KYC.FieldSealed (k.pii field) → KYC.FieldSealed (l.pii field) := by
  cases h with
  | absent => cases hk
  | created => cases hk
  | changed hchange =>
    cases hk
    exact ⟨_, rfl, hchange.sealed⟩

theorem Moved.clear {k : KYC} (h : Moved c o o' p p') (hk : o' = some k) : ∃ l, p' = some l ∧ Later k l := by
  cases h with
  | absent => cases hk
  | created => cases hk
  | changed hchange =>
    cases hk
    exact ⟨_, rfl, hchange.later⟩

end Moved

-- Every record is read as it is in the clear, and none is stored in the clear but what was there at the
-- start, until a migration is completed.
structure Kept (c : FieldCrypto) (start : KVStore ℕ KYC) (s : Store) : Prop where
  pairs   : ∀ id, Option.Rel (Pair c) (s.kyc.get id) (s.clear.get id)
  present : ∀ id, (start.get id).isSome = true → (s.kyc.get id).isSome = true
  sealed  : ∀ id k, s.kyc.get id = some k → s.completed = true ∨ start.get id = none → k.Sealed

-- What is sealed stays sealed.
structure Grows (s t : Store) : Prop where
  stored : ∀ id k, s.kyc.get id = some k → ∃ l, t.kyc.get id = some l ∧
    ∀ field, KYC.FieldSealed (k.pii field) → KYC.FieldSealed (l.pii field)
  clear  : ∀ id k, s.clear.get id = some k → ∃ l, t.clear.get id = some l ∧ Later k l

theorem Grows.refl (s : Store) : Grows s s where
  stored _ k hget := ⟨k, hget, fun _ => id⟩
  clear _ k hget  := ⟨k, hget, .refl k⟩

theorem Grows.trans {s₁ s₂ s₃ : Store} (h : Grows s₁ s₂) (h' : Grows s₂ s₃) : Grows s₁ s₃ where
  stored id k hget := by
    obtain ⟨l, hl, hsealed⟩ := h.stored id k hget
    obtain ⟨m, hm, hsealed'⟩ := h'.stored id l hl
    exact ⟨m, hm, fun field hfield => hsealed' field (hsealed field hfield)⟩
  clear id k hget := by
    obtain ⟨l, hl, hlater⟩ := h.clear id k hget
    obtain ⟨m, hm, hlater'⟩ := h'.clear id l hl
    exact ⟨m, hm, hlater.trans hlater'⟩

-- A migration saves a record that was not erased since it was loaded.
def guard : Label → Store → Prop
  | .step, _                   => True
  | .migrating kycId loaded, s => (s.kyc.get kycId).all fun k => k.erasedAt = loaded.erasedAt

instance decidableGuard : (label : Label) → (s : Store) → Decidable (guard label s)
  | .step, _                   => .isTrue trivial
  | .migrating kycId loaded, s =>
    inferInstanceAs (Decidable ((s.kyc.get kycId).all (fun k => decide (k.erasedAt = loaded.erasedAt)) = true))

def contract (c : FieldCrypto) (start : KVStore ℕ KYC) : Contract Label Store ℕ where
  invariant s _ := Kept c start s
  grows         := Grows
  guard         := guard
  refl          := Grows.refl
  trans         := Grows.trans

section Writes

variable {c : FieldCrypto} {start : KVStore ℕ KYC} {s t : Store} {kycId : ℕ} {f g : KYC → KYC}

theorem kept_of_moved (hs : Kept c start s)
    (h : ∀ id, Moved c (s.kyc.get id) (s.clear.get id) (t.kyc.get id) (t.clear.get id))
    (hcompleted : t.completed = s.completed) : Kept c start t ∧ Grows s t := by
  refine ⟨{ pairs := ?pairs, present := ?present, sealed := ?sealed }, { stored := ?stored, clear := ?clear }⟩
  case pairs => exact fun id => (h id).pairs
  case present => exact fun id hsome => (h id).present (hs.present id hsome)
  case sealed =>
    intro id l hget hor
    rw [hcompleted] at hor
    exact (h id).sealed (fun k hk => hs.sealed id k hk hor) hget
  case stored => exact fun id k => (h id).stored
  case clear => exact fun id k => (h id).clear

-- One record is changed,
theorem kept_update (hs : Kept c start s)
    (h : ∀ k k', s.kyc.get kycId = some k → s.clear.get kycId = some k' → Pair c k k' →
      Change c k k' (f k) (g k')) :
    Kept c start (s.write (·.update kycId f) (·.update kycId g)) ∧
      Grows s (s.write (·.update kycId f) (·.update kycId g)) := by
  refine kept_of_moved hs ?_ rfl
  intro id
  have hpair := hs.pairs id
  rw [Store.write, KVStore.get_update, KVStore.get_update]
  split_ifs with hid
  case neg => exact .refl hpair
  case pos =>
    subst hid
    generalize s.kyc.get id = o at hpair h ⊢
    generalize s.clear.get id = o' at hpair h ⊢
    cases hpair with
    | none => exact .absent
    | some hpair => exact .changed (h _ _ rfl rfl hpair)

-- all of an account,
theorem kept_updateMany {p : KYC → Bool} (hs : Kept c start s) (hp : ∀ k k', Pair c k k' → p k' = p k)
    (h : ∀ k k', Pair c k k' → Change c k k' (f k) (g k')) :
    Kept c start (s.write (·.updateMany p f) (·.updateMany p g)) ∧
      Grows s (s.write (·.updateMany p f) (·.updateMany p g)) := by
  refine kept_of_moved hs ?_ rfl
  intro id
  have hpair := hs.pairs id
  rw [Store.write, KVStore.get_updateMany, KVStore.get_updateMany]
  generalize s.kyc.get id = o at hpair ⊢
  generalize s.clear.get id = o' at hpair ⊢
  cases hpair with
  | none => exact .absent
  | some hpair =>
    rw [Option.map_some, Option.map_some, hp _ _ hpair]
    split_ifs
    case pos => exact .changed (h _ _ hpair)
    case neg => exact .changed (.refl hpair)

-- or one is made.
theorem kept_add {l l' : KYC} (hs : Kept c start s) (hpair : Pair c l l') (hsealed : l.Sealed) :
    Kept c start (s.write (·.add kycId l) (·.add kycId l')) ∧
      Grows s (s.write (·.add kycId l) (·.add kycId l')) := by
  refine kept_of_moved hs ?_ rfl
  intro id
  have hpairs := hs.pairs id
  rw [Store.write, KVStore.get_add, KVStore.get_add]
  split_ifs with hid
  case neg => exact .refl hpairs
  case pos =>
    subst hid
    generalize s.kyc.get id = o at hpairs ⊢
    generalize s.clear.get id = o' at hpairs ⊢
    cases hpairs with
    | none => exact .created hpair hsealed
    | some hpair => exact .changed (.refl hpair)

theorem leavesPii_reviewed {status : KYCStatus} {now : ℕ} {notes : Option String} :
    KYC.LeavesPii (reviewed status now notes) where
  pii _      := rfl
  setPii _ _ := rfl

theorem leavesPii_checked {checks : AmlChecks} : KYC.LeavesPii (checked checks) where
  pii _      := rfl
  setPii _ _ := rfl

-- A change that leaves these fields, and says nothing of an erasure.
theorem change_leaves {k k' : KYC} (hf : KYC.LeavesPii f) (herased : ∀ k, (f k).erasedAt = k.erasedAt)
    (hpair : Pair c k k') : Change c k k' (f k) (f k') where
  pair   := {
    reads   := decryptKycPii_leaves hf hpair.reads
    cleared := by
      rw [KYC.Cleared, herased, hf.pii]
      exact hpair.cleared
  }
  sealed := by
    intro field
    rw [hf.pii]
    exact id
  later  := .inl ⟨herased k', hf.pii k'⟩

theorem cleared_redactKYC {k : KYC} {erasedAt : ℕ} : (redactKYC erasedAt k).pii = fun _ => some redacted := by
  funext field
  cases field <;> rfl

theorem change_redact {k k' : KYC} {erasedAt : ℕ} (hpair : Pair c k k') :
    Change c k k' (redactKYC erasedAt k) (redactKYC erasedAt k') where
  pair   := {
    reads   := by
      obtain ⟨_, hk'⟩ := decryptKycPii_eq_some.mp hpair.reads
      apply decryptKycPii_eq_some.mpr
      rw [cleared_redactKYC, cleared_redactKYC]
      refine ⟨?_, ?_⟩
      · intro _
        rw [Cipher.decrypt, decryptField_of_plain (by decide), Option.map_some]
      · conv => lhs; rw [hk']
        rfl
    cleared := fun _ => cleared_redactKYC
  }
  sealed := by
    intro field _ text htext
    rw [cleared_redactKYC] at htext
    exact .inr (Option.mem_some_iff.mp htext).symm
  later  := .inr ⟨rfl, fun _ => cleared_redactKYC⟩

theorem pair_new {iv : PiiField → Base64.Bytes} {k : KYC} (hc : c.Lawful) (herased : k.erasedAt = none) :
    Pair c ((KycDoc.new k).save c iv k) k where
  reads   := by
    apply decryptKycPii_eq_some.mpr
    refine ⟨?_, ?_⟩
    · intro field
      rw [KycDoc.pii_save_new]
      cases k.pii field with
      | none => rfl
      | some text => rw [Option.map_some, Cipher.decrypt, decryptField_encryptField hc, Option.map_some]
    · rw [KycDoc.save_eq, KYC.setPii_setPii, KYC.setPii_pii]
  cleared := by
    intro hsome
    rw [herased] at hsome
    cases hsome

theorem sealed_new {iv : PiiField → Base64.Bytes} {k : KYC} : ((KycDoc.new k).save c iv k).Sealed := by
  intro field text htext
  rw [KycDoc.pii_save_new, Option.mem_def, Option.map_eq_some_iff] at htext
  obtain ⟨value, _, rfl⟩ := htext
  exact .inl isEncrypted_encryptField

theorem clear_eq (hs : Kept c start s) : s.clear = s.kyc.mapValues fun k => (c.decryptKycPii k).getD k := by
  apply KVStore.eq_of_get
  intro id
  have hpair := hs.pairs id
  rw [KVStore.get_mapValues]
  generalize s.kyc.get id = o at hpair ⊢
  generalize s.clear.get id = o' at hpair ⊢
  cases hpair with
  | none => rfl
  | some hpair => rw [Option.map_some, hpair.reads, Option.getD_some]

-- What every reader of the records gets.
theorem decryptAll_eq (hs : Kept c start s) : c.decryptAll s.kyc = some s.clear := by
  have hall : (s.kyc.entries.all fun e => (c.decryptKycPii e.2).isSome) = true := by
    apply List.all_eq_true.mpr
    intro e he
    have hpair := hs.pairs e.1
    rw [KVStore.mem_entries_iff.mp he] at hpair
    generalize s.clear.get e.1 = o at hpair
    cases hpair with
    | some hpair => rw [hpair.reads, Option.isSome_some]
  rw [Cipher.decryptAll, if_pos hall, clear_eq hs]
  rfl

theorem userId_decrypted {k : KYC} : ((c.decryptKycPii k).getD k).userId = k.userId := by
  cases h : c.decryptKycPii k with
  | none => rfl
  | some k' =>
    obtain ⟨_, hk'⟩ := decryptKycPii_eq_some.mp h
    rw [Option.getD_some, hk']
    rfl

theorem Pair.userId {k k' : KYC} (hpair : Pair c k k') : k'.userId = k.userId := by
  have h := userId_decrypted (c := c) (k := k)
  rwa [hpair.reads, Option.getD_some] at h

theorem kept_recordChecks {userId : String} {now : ℕ} {checks : AmlChecks} (hs : Kept c start s) :
    Kept c start (s.write (recordChecks userId kycId now checks) (recordChecks userId kycId now checks)) ∧
      Grows s (s.write (recordChecks userId kycId now checks) (recordChecks userId kycId now checks)) := by
  have hkey : (s.clear.find (·.userId = userId)).entries.head?.map (·.1) =
      (s.kyc.find (·.userId = userId)).entries.head?.map (·.1) := by
    rw [clear_eq hs]
    apply KVStore.head_find_mapValues
    intro k
    rw [userId_decrypted]
  cases hfound : (s.kyc.find (·.userId = userId)).entries.head?.map (·.1) with
  | some key =>
    have hwrite : s.write (recordChecks userId kycId now checks) (recordChecks userId kycId now checks) =
        s.write (·.update key (checked checks)) (·.update key (checked checks)) := by
      simp only [Store.write, recordChecks, hkey, hfound]
    rw [hwrite]
    exact kept_update hs fun _ _ _ _ => change_leaves leavesPii_checked fun _ => rfl
  | none =>
    have hwrite : s.write (recordChecks userId kycId now checks) (recordChecks userId kycId now checks) =
        s.write
          (·.add kycId { userId, riskLevel := riskLevel checks, amlChecks := checks, submittedAt := now })
          (·.add kycId { userId, riskLevel := riskLevel checks, amlChecks := checks, submittedAt := now }) := by
      simp only [Store.write, recordChecks, hkey, hfound]
    rw [hwrite]
    apply kept_add hs
    case hpair => exact { reads := rfl, cleared := fun hsome => by cases hsome }
    case hsealed =>
      intro field text htext
      cases field <;> cases htext

end Writes

section Migration

variable {c : FieldCrypto} {start : KVStore ℕ KYC} {s t : Store} {kycId : ℕ} {doc : KycDoc} {k k' : KYC}

theorem sealed_of_not_unencrypted {field : PiiField} (h : unencrypted k field = false) :
    KYC.FieldSealed (k.pii field) := by
  intro text htext
  rw [unencrypted, Option.mem_def.mp htext, Option.any_some, Bool.not_eq_false'] at h
  exact .inl h

theorem sealed_of_not_needsMigration (h : needsMigration k = false) : k.Sealed := by
  intro field
  have hmem : field ∈ encryptedFields := by cases field <;> decide
  exact sealed_of_not_unencrypted (by simpa using List.any_eq_false.mp h field hmem)

theorem foldl_markModified {fields : List PiiField} :
    fields.foldl KycDoc.markModified doc = { doc with modified := fields.reverse ++ doc.modified } := by
  induction fields generalizing doc with
  | nil => rfl
  | cons field fields ih =>
    rw [List.foldl_cons, ih, List.reverse_cons, List.append_assoc]
    rfl

theorem current_marked : (marked doc).current = doc.current := by
  rw [marked, foldl_markModified]

-- Of a document that was loaded, what is not encrypted yet is marked.
theorem isModified_marked {field : PiiField} (h : doc.modified = []) :
    (marked doc).isModified field = unencrypted doc.current field := by
  have hmem : field ∈ encryptedFields := by cases field <;> decide
  rw [marked, foldl_markModified, KycDoc.isModified, h, List.append_nil, List.contains_eq_mem]
  cases hu : unencrypted doc.current field <;> simp [hmem, hu]

theorem pii_save_marked {iv : PiiField → Base64.Bytes} {field : PiiField} (h : doc.modified = []) :
    ((marked doc).save c iv k).pii field =
      if unencrypted doc.current field then (doc.current.pii field).map (c.encryptField (iv field))
      else k.pii field := by
  rw [KycDoc.save_eq, KYC.pii_setPii, isModified_marked h, current_marked]

theorem sealed_save_marked {iv : PiiField → Base64.Bytes} (h : doc.modified = [])
    (hstored : ∀ field, KYC.FieldSealed (doc.current.pii field) → KYC.FieldSealed (k.pii field)) :
    ((marked doc).save c iv k).Sealed := by
  intro field
  rw [pii_save_marked h]
  split_ifs with hu
  case pos =>
    intro text htext
    obtain ⟨value, _, rfl⟩ := Option.map_eq_some_iff.mp htext
    exact .inl isEncrypted_encryptField
  case neg => exact hstored field (sealed_of_not_unencrypted (by simpa using hu))

theorem Pair.erasedAt (hpair : Pair c k k') : k'.erasedAt = k.erasedAt := by
  obtain ⟨_, hk'⟩ := decryptKycPii_eq_some.mp hpair.reads
  rw [hk']
  rfl

-- A record that was not erased meanwhile has kept its fields.
theorem Later.pii_eq (h : Later k k') (herased : k'.erasedAt = k.erasedAt) (hcleared : k.Cleared) :
    k'.pii = k.pii := by
  rcases h with ⟨_, hpii⟩ | ⟨hsome, hcleared'⟩
  case inl => exact hpii
  case inr => rw [hcleared' hsome, hcleared (herased ▸ hsome)]

theorem change_migrating {iv : PiiField → Base64.Bytes} {l' : KYC} (hc : c.Lawful) (hdoc : doc.modified = [])
    (hloaded : Pair c doc.current l') (hlater : Later l' k') (hpair : Pair c k k')
    (herased : k.erasedAt = doc.current.erasedAt)
    (hstored : ∀ field, KYC.FieldSealed (doc.current.pii field) → KYC.FieldSealed (k.pii field)) :
    Change c k k' ((marked doc).save c iv k) k' where
  pair     := {
    reads   := by
      have hpii : k'.pii = l'.pii := by
        apply hlater.pii_eq _ hloaded.cleared
        rw [hpair.erasedAt, hloaded.erasedAt, herased]
      obtain ⟨hfields, _⟩ := decryptKycPii_eq_some.mp hpair.reads
      obtain ⟨hfields', _⟩ := decryptKycPii_eq_some.mp hloaded.reads
      rw [KycDoc.save_eq]
      apply decryptKycPii_setPii hpair.reads
      intro field
      rw [isModified_marked hdoc, current_marked]
      split_ifs with hu
      case neg => exact hfields field
      case pos =>
        have hfield' := hfields' field
        rw [unencrypted] at hu
        cases htext : doc.current.pii field with
        | none =>
          rw [htext] at hu
          cases hu
        | some text =>
          rw [htext, Option.any_some, Bool.not_eq_true'] at hu
          rw [htext, Cipher.decrypt, decryptField_of_plain hu, Option.map_some] at hfield'
          rw [Option.map_some, Cipher.decrypt, decryptField_encryptField hc, Option.map_some, hpii, hfield']
    cleared := hpair.cleared
  }
  sealed _ := fun _ => sealed_save_marked hdoc hstored _
  later    := .refl k'

-- A document as it was loaded: what was sealed in it stays so, and so does what it was read as.
structure Loaded (c : FieldCrypto) (s : Store) (kycId : ℕ) (doc : KycDoc) : Prop where
  unmodified : doc.modified = []
  stored     : ∃ k, s.kyc.get kycId = some k ∧
    ∀ field, KYC.FieldSealed (doc.current.pii field) → KYC.FieldSealed (k.pii field)
  clear      : ∃ l' k', Pair c doc.current l' ∧ s.clear.get kycId = some k' ∧ Later l' k'

theorem Loaded.mono (hs : Grows s t) (h : Loaded c s kycId doc) : Loaded c t kycId doc where
  unmodified := h.unmodified
  stored     := by
    obtain ⟨k, hget, hsealed⟩ := h.stored
    obtain ⟨l, hget', hsealed'⟩ := hs.stored kycId k hget
    exact ⟨l, hget', fun field hfield => hsealed' field (hsealed field hfield)⟩
  clear      := by
    obtain ⟨l', k', hpair, hget, hlater⟩ := h.clear
    obtain ⟨m', hget', hlater'⟩ := hs.clear kycId k' hget
    exact ⟨l', m', hpair, hget', hlater.trans hlater'⟩

theorem loaded_of_get (hs : Kept c start s) (hget : s.kyc.get kycId = some k) :
    Loaded c s kycId { current := k } where
  unmodified := rfl
  stored     := ⟨k, hget, fun _ => id⟩
  clear      := by
    have hpair := hs.pairs kycId
    rw [hget] at hpair
    generalize s.clear.get kycId = o at hpair ⊢
    cases hpair with
    | some hpair => exact ⟨_, _, hpair, rfl, .refl _⟩

def SealedAt (s : Store) (kycId : ℕ) : Prop :=
  ∃ k, s.kyc.get kycId = some k ∧ k.Sealed

theorem SealedAt.mono (hs : Grows s t) (h : SealedAt s kycId) : SealedAt t kycId := by
  obtain ⟨k, hget, hsealed⟩ := h
  obtain ⟨l, hget', hsealed'⟩ := hs.stored kycId k hget
  exact ⟨l, hget', fun field => hsealed' field (hsealed field)⟩

theorem kept_migrating (iv : PiiField → Base64.Bytes) (hc : c.Lawful) (hs : Kept c start s)
    (hloaded : Loaded c s kycId doc) (hg : guard (.migrating kycId doc.current) s) :
    Kept c start (s.write (·.update kycId ((marked doc).save c iv)) id) ∧
      Grows s (s.write (·.update kycId ((marked doc).save c iv)) id) ∧
      SealedAt (s.write (·.update kycId ((marked doc).save c iv)) id) kycId := by
  have hid : s.clear.update kycId id = s.clear := by
    apply KVStore.eq_of_get
    intro id'
    rw [KVStore.get_update]
    split_ifs with heq
    case pos => rw [heq, Option.map_id]; rfl
    case neg => rfl
  have hwrite : s.write (·.update kycId ((marked doc).save c iv)) id =
      s.write (·.update kycId ((marked doc).save c iv)) (·.update kycId id) := by
    rw [Store.write, Store.write, hid]
    rfl
  obtain ⟨k, hget, hstored⟩ := hloaded.stored
  obtain ⟨l', k', hpair, hget', hlater⟩ := hloaded.clear
  have herased : k.erasedAt = doc.current.erasedAt := by
    rw [guard, hget, Option.all_some] at hg
    simpa using hg
  have hkept := kept_update (f := (marked doc).save c iv) (g := id) hs fun k₁ k₁' hk₁ hk₁' hp => by
    cases hget.symm.trans hk₁
    cases hget'.symm.trans hk₁'
    exact change_migrating hc hloaded.unmodified hpair hlater hp herased hstored
  rw [hwrite]
  refine ⟨hkept.1, hkept.2, (marked doc).save c iv k, ?_, sealed_save_marked hloaded.unmodified hstored⟩
  rw [Store.write, KVStore.get_update_self, hget, Option.map_some]

-- Of the records of the start, none is passed over.
theorem loadEach_safe : (kycIds : List ℕ) → (s : Store) →
    (contract c start).Safe (fun docs s own => own = 0 ∧ (∀ e ∈ docs, Loaded c s e.1 e.2) ∧
      ∀ id ∈ kycIds, (start.get id).isSome = true → id ∈ docs.map (·.1)) (loadEach kycIds) s 0
  | [], s => ⟨rfl, by simp, by simp⟩
  | kycId :: kycIds, s => by
    apply Contract.Safe.look
    intro s' _ _ others hI
    apply Contract.Safe.bind
    cases hget : s'.kyc.get kycId with
    | none =>
      apply (loadEach_safe kycIds s').imp
      intro docs s'' own h
      obtain ⟨hown, hloaded, hall⟩ := h
      refine ⟨hown, hloaded, ?_⟩
      intro id hid hsome
      cases List.mem_cons.mp hid with
      | inl heq =>
        have hpresent := hI.present id hsome
        rw [heq, hget] at hpresent
        cases hpresent
      | inr hid => exact hall id hid hsome
    | some k =>
      have hframe := (loadEach_safe kycIds s').frame (K := fun s => Loaded c s kycId { current := k })
        (fun hs h => h.mono hs) (loaded_of_get hI hget)
      apply hframe.imp
      intro docs s'' own h
      obtain ⟨⟨hown, hloaded, hall⟩, hnow⟩ := h
      refine ⟨hown, ?_, ?_⟩
      case refine_1 =>
        intro e he
        cases List.mem_cons.mp he with
        | inl heq =>
          rw [heq]
          exact hnow
        | inr he => exact hloaded e he
      case refine_2 =>
        intro id hid hsome
        cases List.mem_cons.mp hid with
        | inl heq => exact List.mem_cons.mpr (.inl heq)
        | inr hid => exact List.mem_cons_of_mem _ (hall id hid hsome)

variable {iv : ℕ → PiiField → Base64.Bytes} {apply : Bool} {saves : ℕ → Bool}

theorem migrateEach_safe (hc : c.Lawful) : (docs : List (ℕ × KycDoc)) → (s : Store) →
    (∀ e ∈ docs, Loaded c s e.1 e.2) →
    (contract c start).Safe (fun failed s own => own = 0 ∧
      (apply = true → failed = false → ∀ e ∈ docs, SealedAt s e.1)) (migrateEach c iv apply saves docs) s 0
  | [], s, _ => ⟨rfl, by simp⟩
  | (kycId, doc) :: docs, s, hloaded => by
    have hdoc : Loaded c s kycId doc := hloaded (kycId, doc) List.mem_cons_self
    have hdocs : ∀ e ∈ docs, Loaded c s e.1 e.2 := fun e he => hloaded e (List.mem_cons_of_mem _ he)
    -- Once it is known of the first that it is sealed, the rest is as before.
    have hrest : ∀ s', Grows s s' → (apply = true → SealedAt s' kycId) →
        (contract c start).Safe (fun failed s own => own = 0 ∧
          (apply = true → failed = false → ∀ e ∈ (kycId, doc) :: docs, SealedAt s e.1))
          (migrateEach c iv apply saves docs) s' 0 := by
      intro s' hs' hsealed
      have hsafe := (migrateEach_safe hc docs s' fun e he => (hdocs e he).mono hs').frame
        (K := fun s => apply = true → SealedAt s kycId) (fun hs h happly => (h happly).mono hs) hsealed
      apply hsafe.imp
      intro failed s'' own h
      obtain ⟨⟨hown, hall⟩, hnow⟩ := h
      refine ⟨hown, ?_⟩
      intro happly hfailed e he
      cases List.mem_cons.mp he with
      | inl heq =>
        rw [heq]
        exact hnow happly
      | inr he => exact hall happly hfailed e he
    rw [migrateEach]
    split_ifs with hneeds hsaves
    case pos =>
      apply Contract.Safe.write
      intro s' hs' hg others hI
      obtain ⟨hkept, hgrows, hsealed⟩ := kept_migrating (iv kycId) hc hI (hdoc.mono hs') hg
      exact ⟨0, hkept, hgrows, hrest _ (hs'.trans hgrows) fun _ => hsealed⟩
    case neg =>
      apply Contract.Safe.bind
      apply (migrateEach_safe hc docs s hdocs).imp
      intro failed s' own h
      exact ⟨h.1, by simp⟩
    case neg =>
      apply hrest s (Grows.refl s)
      intro happly
      obtain ⟨k, hget, hstored⟩ := hdoc.stored
      have hneeds' : needsMigration doc.current = false := by simpa [happly] using hneeds
      exact ⟨k, hget, fun field => hstored field (sealed_of_not_needsMigration hneeds' field)⟩

theorem migrateBatches_safe (hc : c.Lawful) : (batches : List (List ℕ)) → (s : Store) →
    (contract c start).Safe (fun failed s own => own = 0 ∧ (apply = true → failed = false →
      ∀ id ∈ batches.flatten, (start.get id).isSome = true → SealedAt s id))
      (migrateBatches c iv apply saves batches) s 0
  | [], s => ⟨rfl, by simp⟩
  | batch :: batches, s => by
    rw [migrateBatches]
    apply Contract.Safe.bind
    apply (loadEach_safe batch s).imp
    intro docs s₁ own h
    obtain ⟨rfl, hloaded, hall⟩ := h
    apply Contract.Safe.bind
    apply (migrateEach_safe hc docs s₁ hloaded).imp
    intro failed s₂ own h
    obtain ⟨rfl, hsealed⟩ := h
    have hframe := (migrateBatches_safe hc batches s₂).frame
      (K := fun s => apply = true → failed = false → ∀ e ∈ docs, SealedAt s e.1)
      (fun hs h happly hfailed e he => (h happly hfailed e he).mono hs) hsealed
    apply Contract.Safe.bind
    apply hframe.imp
    intro failedLater s₃ own h
    obtain ⟨⟨hown, hlater⟩, hnow⟩ := h
    refine ⟨hown, ?_⟩
    intro happly hor id hid hsome
    have hfailed := Bool.or_eq_false_iff.mp hor
    rw [List.flatten_cons, List.mem_append] at hid
    cases hid with
    | inl hid =>
      obtain ⟨e, he, heq⟩ := List.mem_map.mp (hall id hid hsome)
      rw [← heq]
      exact hnow happly hfailed.1 e he
    | inr hid => exact hlater happly hfailed.2 id hid hsome

-- A migration that has come to every record of the start.
theorem migrate_handles {batches : List (List ℕ)} (hc : c.Lawful)
    (hcovers : ∀ id, (start.get id).isSome = true → id ∈ batches.flatten) :
    (contract c start).Handles (migrate c iv apply saves batches) s 0 := by
  rw [migrate]
  apply Contract.Safe.bind
  apply (migrateBatches_safe hc batches s).imp
  intro failed s' own h
  obtain ⟨rfl, hsealed⟩ := h
  split_ifs with hdone
  case neg => rfl
  case pos =>
    obtain ⟨happly, hfailed⟩ := Bool.and_eq_true_iff.mp hdone
    have hall := hsealed happly (by simpa using hfailed)
    apply Contract.Handles.write
    intro s₁ hs₁ _ others hI
    refine ⟨{ pairs := hI.pairs, present := hI.present, sealed := ?sealed },
      { stored := fun _ k hget => ⟨k, hget, fun _ => id⟩, clear := fun _ k hget => ⟨k, hget, .refl k⟩ }⟩
    intro id k hget _
    cases hstart : start.get id with
    | none => exact hI.sealed id k hget (.inr hstart)
    | some k₀ =>
      have hsome : (start.get id).isSome = true := by rw [hstart, Option.isSome_some]
      obtain ⟨l, hget', hl⟩ := (hall id (hcovers id hsome) hsome).mono hs₁
      cases hget.symm.trans hget'
      exact hl

end Migration

-- Some records from before fields were encrypted.
structure Legacy (start : KVStore ℕ KYC) : Prop where
  plain   : ∀ id k, start.get id = some k → ∀ field, ∀ text ∈ k.pii field, isEncrypted text = false
  cleared : ∀ id k, start.get id = some k → k.Cleared

def Start (start : KVStore ℕ KYC) (s : Store) : Prop :=
  s.kyc = start ∧ s.clear = start ∧ s.completed = false

-- A migration comes to every record that was there at the start.
def Request.Covers (start : KVStore ℕ KYC) : Request → Prop
  | .migrate _ _ _ batches => ∀ e ∈ start.entries, e.1 ∈ batches.flatten
  | _                      => True

instance decidableCovers {start : KVStore ℕ KYC} : (request : Request) → Decidable (request.Covers start)
  | .migrate _ _ _ batches     => inferInstanceAs (Decidable (∀ e ∈ start.entries, e.1 ∈ batches.flatten))
  | .create _ _ _ _ _ _ _      => .isTrue trivial
  | .runAMLCheck _ _ _ _       => .isTrue trivial
  | .review _ _ _ _ _ _        => .isTrue trivial
  | .erase _ _                 => .isTrue trivial

def condition (start : KVStore ℕ KYC) (p : Pool Label Store) : Action Request → Prop
  | .start request => request.Covers start
  | .run i         => p.Meets guard (.run i : Action Request)

instance decidableCondition {start : KVStore ℕ KYC} {p : Pool Label Store} :
    (a : Action Request) → Decidable (condition start p a)
  | .start request => inferInstanceAs (Decidable (request.Covers start))
  | .run i         => inferInstanceAs (Decidable (p.Meets guard (.run i : Action Request)))

def kycSystem (c : FieldCrypto) (start : KVStore ℕ KYC) :
    TransitionSystem (Pool Label Store) (Action Request) :=
  system (Start start) (Request.handler c)

section Runs

variable {c : FieldCrypto} {start : KVStore ℕ KYC}

theorem handler_handles (hc : c.Lawful) {request : Request} (hr : request.Covers start) (s : Store) :
    (contract c start).Handles (request.handler c) s 0 := by
  cases request with
  | create iv kycId userId checks now d saves =>
    apply Contract.Safe.ite
    case hq => exact fun _ => rfl
    case hp =>
      intro _
      apply Contract.Handles.write
      intro s' _ _ others hI
      exact kept_add hI (pair_new hc rfl) sealed_new
  | runAMLCheck userId kycId now checks =>
    apply Contract.Handles.write
    intro s' _ _ others hI
    exact kept_recordChecks hI
  | review iv kycId status now notes saves =>
    apply Contract.Safe.read
    intro s' _ _
    cases s'.kyc.get kycId with
    | none => rfl
    | some k =>
      apply Contract.Safe.ite
      case hq => exact fun _ => rfl
      case hp =>
        intro _
        apply Contract.Handles.write
        intro s'' _ _ others hI
        refine kept_update hI fun k k' _ _ hpair => ?_
        rw [KycDoc.save_of_unmodified rfl]
        exact change_leaves leavesPii_reviewed (fun _ => rfl) hpair
  | erase userId erasedAt =>
    apply Contract.Handles.write
    intro s' _ _ others hI
    refine kept_updateMany hI ?_ fun _ _ => change_redact
    intro k k' hpair
    rw [hpair.userId]
  | migrate iv apply saves batches =>
    apply migrate_handles hc
    intro id hsome
    obtain ⟨k, hget⟩ := Option.isSome_iff_exists.mp hsome
    exact hr (id, k) (KVStore.mem_entries_iff.mpr hget)

theorem kept_start (hstart : Legacy start) {s : Store} (hs : Start start s) : Kept c start s := by
  obtain ⟨hkyc, hclear, hcompleted⟩ := hs
  refine { pairs := ?pairs, present := ?present, sealed := ?sealed }
  case pairs =>
    intro id
    rw [hkyc, hclear]
    cases hget : start.get id with
    | none => exact .none
    | some k =>
      exact .some {
        reads   := decryptKycPii_of_plain (hstart.plain id k hget)
        cleared := hstart.cleared id k hget
      }
  case present =>
    rw [hkyc]
    exact fun _ => id
  case sealed =>
    intro id k hget hor
    rw [hkyc] at hget
    rw [hcompleted, hget] at hor
    simp at hor

-- Where no record is erased while a migration has it, what is read of the records is what it would be
-- if nothing were encrypted, and every field is stored encrypted that was not there at the start, or
-- once a migration is completed.
theorem encrypted_at_rest (hc : c.Lawful) (hstart : Legacy start) {p : Pool Label Store}
    (hp : (kycSystem c start).Run (condition start) p) :
    c.decryptAll p.store.kyc = some p.store.clear ∧
      ∀ id k, p.store.kyc.get id = some k → p.store.completed = true ∨ start.get id = none → k.Sealed := by
  have hI : (kycSystem c start).Invariant (condition start) fun p => ∃ owned, (contract c start).Holds p owned := by
    apply Contract.invariant_of_requests
    case hinit => exact fun s hs => kept_start hstart hs
    case hg =>
      intro p a ha
      cases a with
      | start request => trivial
      | run i => exact ha
    case hr => exact fun p request ha s => handler_handles hc ha s
  obtain ⟨owned, hholds⟩ := hI.holds hp
  exact ⟨decryptAll_eq hholds.invariant, hholds.invariant.sealed⟩

end Runs

namespace Sample

-- The tag is the vector, and the text is only encoded.
def crypto : FieldCrypto where
  decipher iv tag text :=
    if tag = iv then (Base64.decodeString text).bind fun bytes => ByteString.toString? (bytes.map UInt8.toFin)
    else none
  encipher iv plaintext := (iv, (ByteString.ofString plaintext).map UInt8.ofFin)

theorem crypto_lawful : crypto.Lawful where
  inverse iv plaintext := by
    have hbytes : ((ByteString.ofString plaintext).map UInt8.ofFin).map UInt8.toFin =
        ByteString.ofString plaintext := by
      simp [Function.comp_def]
    have htag : (crypto.encipher iv plaintext).1 = iv := rfl
    have htext : (crypto.encipher iv plaintext).2 = (ByteString.ofString plaintext).map UInt8.ofFin := rfl
    rw [htag, htext, crypto]
    dsimp only
    rw [if_pos rfl, Base64.decodeString_encodeString, Option.bind_some, hbytes, ByteString.toString?_ofString]

def alice : KYC where
  userId      := "alice"
  address     := some "Kimathi Street 5"
  city        := some "Nairobi"
  phoneNumber := some "+254711000000"
  idNumber    := some "v1 12345678"

def records : KVStore ℕ KYC :=
  KVStore.empty.set 1 alice

theorem get_records {id : ℕ} {k : KYC} (hget : records.get id = some k) : k = alice := by
  rw [records, KVStore.get_set] at hget
  split_ifs at hget
  case pos => exact (Option.some.inj hget).symm
  case neg =>
    rw [KVStore.get_empty] at hget
    cases hget

theorem records_legacy : Legacy records where
  plain id k hget field text htext := by
    rw [get_records hget] at htext
    cases field <;> cases htext <;> decide
  cleared id k hget hsome := by
    rw [get_records hget] at hsome
    cases hsome

def store : Store where
  kyc   := records
  clear := records

def vector : Base64.Bytes :=
  [1, 2, 3, 4, 5, 6, 7, 8, 9, 10, 11, 12]

def bob : KycData where
  firstName     := "Bob"
  lastName      := "Otieno"
  dateOfBirth   := "1990-01-01"
  nationality   := "KE"
  address       := "Moi Avenue 1"
  city          := "Mombasa"
  country       := "KE"
  postalCode    := "80100"
  phoneNumber   := "+254722000000"
  idType        := "national_id"
  idNumber      := "87654321"
  idExpiry      := "2030-01-01"
  idDocumentUrl := ""
  occupation    := "Teacher"
  sourceOfFunds := "salary"
  annualIncome  := "1000"

def migration : Request :=
  .migrate (fun _ _ => vector) true (fun _ => true) [[1]]

-- Bob submits his record while Alice's is migrated, which is reviewed and erased later.
def actions : List (Action Request) :=
  .start migration :: .start (.create (fun _ => vector) 2 "bob" {} 7 bob true) ::
    .run 0 :: .run 1 :: List.replicate 4 (.run 0) ++
    .start (.review (fun _ => vector) 1 .approved 8 none true) :: List.replicate 2 (.run 2) ++
    [.start (.erase "alice" 9), .run 3]

-- Alice's record is erased after the migration has loaded it.
def overlapping : List (Action Request) :=
  [.start migration, .run 0, .start (.erase "alice" 9), .run 1, .run 0]

end Sample

theorem sample_encrypted_at_rest :
    (Pool.execs (Request.handler Sample.crypto) { store := Sample.store, running := [] }
      Sample.actions).store.completed = true ∧
    Sample.crypto.decryptAll (Pool.execs (Request.handler Sample.crypto)
      { store := Sample.store, running := [] } Sample.actions).store.kyc =
        some (Pool.execs (Request.handler Sample.crypto) { store := Sample.store, running := [] }
          Sample.actions).store.clear ∧
    ∀ id k, (Pool.execs (Request.handler Sample.crypto) { store := Sample.store, running := [] }
      Sample.actions).store.kyc.get id = some k → k.Sealed := by
  have hrun : (kycSystem Sample.crypto Sample.records).Run (condition Sample.records)
      (Pool.execs (Request.handler Sample.crypto) { store := Sample.store, running := [] } Sample.actions) :=
    run_along (.init ⟨⟨rfl, rfl, rfl⟩, rfl⟩) (by decide +kernel)
  have hcompleted : (Pool.execs (Request.handler Sample.crypto) { store := Sample.store, running := [] }
      Sample.actions).store.completed = true := by decide +kernel
  obtain ⟨hreads, hsealed⟩ := encrypted_at_rest Sample.crypto_lawful Sample.records_legacy hrun
  exact ⟨hcompleted, hreads, fun id k hget => hsealed id k hget (.inl hcompleted)⟩

-- What was erased after it was loaded is stored again.
theorem erasure_undone :
    ¬∀ (c : FieldCrypto) (start : KVStore ℕ KYC) (p : Pool Label Store), c.Lawful → Legacy start →
      (kycSystem c start).Reachable p → c.decryptAll p.store.kyc = some p.store.clear := by
  intro h
  have hreachable : (kycSystem Sample.crypto Sample.records).Reachable
      (Pool.execs (Request.handler Sample.crypto) { store := Sample.store, running := [] }
        Sample.overlapping) :=
    reachable_from ⟨rfl, rfl, rfl⟩
  have hstored : (Pool.execs (Request.handler Sample.crypto) { store := Sample.store, running := [] }
      Sample.overlapping).store.kyc.get 1 =
        some ((marked { current := Sample.alice }).save Sample.crypto (fun _ => Sample.vector)
          (redactKYC 9 Sample.alice)) :=
    rfl
  have hclear : (Pool.execs (Request.handler Sample.crypto) { store := Sample.store, running := [] }
      Sample.overlapping).store.clear.get 1 = some (redactKYC 9 Sample.alice) :=
    rfl
  have hread := get_decryptAll (h _ _ _ Sample.crypto_lawful Sample.records_legacy hreachable) hstored hclear
  obtain ⟨hfields, _⟩ := decryptKycPii_eq_some.mp hread
  have hid := hfields .idNumber
  rw [pii_save_marked rfl] at hid
  change Cipher.decrypt _ (some (Sample.crypto.encryptField Sample.vector "v1 12345678")) = _ at hid
  rw [Cipher.decrypt, decryptField_encryptField Sample.crypto_lawful] at hid
  revert hid
  decide

end AtRest

end Account
