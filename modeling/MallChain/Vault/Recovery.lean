import MallChain.Vault.Phases

-- The recovery of a key through the vault: the browser's part of it
-- (`mallchain-os-v14/src/services/vaultRecovery.ts`) over the vault of the chain.

namespace Vault

open Sdk Base64

-- The primitives of the browser (`services/vaultCrypto.ts`), which come from its libraries.
structure Crypto where
  deriveKey      : String → Bytes → (time memory threads keyLen : UInt32) → Bytes
  encrypt        : (key nonce plaintext : Bytes) → Bytes
  decrypt        : (key nonce ciphertext : Bytes) → Option Bytes
  encodeText     : String → Bytes
  decodeText     : Bytes → String
  verifyTotpCode : (secret code : String) → (now : ℕ) → Bool
  publicKey      : Bytes → Bytes
  sign           : (message privateKey : Bytes) → Bytes
  verify         : (signature message publicKey : Bytes) → Bool

-- What the libraries promise. A ciphertext ends with a tag, so it is never empty.
structure Crypto.Lawful (crypto : Crypto) : Prop where
  decrypt_encrypt   : ∀ key nonce text, crypto.decrypt key nonce (crypto.encrypt key nonce text) = some text
  encrypt_ne_nil    : ∀ key nonce text, crypto.encrypt key nonce text ≠ []
  decode_encode     : ∀ text, crypto.decodeText (crypto.encodeText text) = text
  length_publicKey  : ∀ privateKey, (crypto.publicKey privateKey).length = publicKeySize
  verify_sign       : ∀ message privateKey,
    crypto.verify (crypto.sign message privateKey) message (crypto.publicKey privateKey)

-- `password.length`, in units of UTF-16
def utf16Length (text : String) : ℕ :=
  (text.toList.map fun c => if c.toNat < 0x10000 then 1 else 2).sum

-- `DEFAULT_ARGON2_PARAMS`
def defaultTime    : UInt32 := 5
def defaultMemory  : UInt32 := 128 * 1024
def defaultThreads : UInt32 := 8
def defaultKeyLen  : UInt32 := 32

def recoveryError (text : String) : Failure :=
  .error s!"VaultRecoveryError: {text}"

-- `atob` throws what is not in base 64.
def fromBase64 (text : String) : Result Bytes :=
  orFail (decodeString text) (.error "InvalidCharacterError")

namespace Crypto

variable (crypto : Crypto)

def defaultKey (password : String) (salt : Bytes) : Bytes :=
  crypto.deriveKey password salt defaultTime defaultMemory defaultThreads defaultKeyLen

-- The salt, the nonce and the secret are fresh.
def setupMsg (address password : String) (salt nonce : Bytes) (secret : String) : MsgSetupVault where
  authority           := address
  salt                := encodeString salt
  kdfTime             := defaultTime
  kdfMemory           := defaultMemory
  kdfThreads          := defaultThreads
  kdfKeyLen           := defaultKeyLen
  nonceTotp           := encodeString nonce
  encryptedTotpSecret :=
    encodeString (crypto.encrypt (crypto.defaultKey password salt) nonce (crypto.encodeText secret))

-- What is answered is the message that is broadcast.
def setupKeyRecovery (address password : String) (salt nonce : Bytes) (secret : String) :
    Result MsgSetupVault := do
  failIf (utf16Length password < 8) (recoveryError
    "Choose a password of at least 8 characters — it protects your on-chain recovery backup.")
  return crypto.setupMsg address password salt nonce secret

-- The key that is derived from a password with the parameters of a vault.
def keyOf (blob : QueryVaultBlobResponse) (password : String) : Result Bytes := do
  let salt ← fromBase64 blob.salt
  return crypto.deriveKey password salt blob.kdfTime blob.kdfMemory blob.kdfThreads blob.kdfKeyLen

-- What is decrypted of a vault, if everything about it is right.
def opened (key : Bytes) (nonce ciphertext : String) : Option Bytes := do
  let nonce ← decodeString nonce
  let ciphertext ← decodeString ciphertext
  crypto.decrypt key nonce ciphertext

-- The private key and its nonce are fresh.
def confirmMsg (address : String) (key privateKey nonce : Bytes) : MsgConfirmVault where
  authority  := address
  noncePriv  := encodeString nonce
  ciphertext := encodeString (crypto.encrypt key nonce privateKey)
  publicKey  := encodeString (crypto.publicKey privateKey)

def confirmKeyRecovery (blob : QueryVaultBlobResponse) (address password code : String) (now : ℕ)
    (privateKey nonce : Bytes) : Result MsgConfirmVault := do
  failIf (blob.found = false)
    (recoveryError "No vault setup found for this address yet — start setup first.")
  failIf (blob.ciphertext ≠ "") (recoveryError "This vault is already confirmed.")
  let key ← crypto.keyOf blob password
  let secretBytes ← orFail (crypto.opened key blob.nonceTotp blob.encryptedTotpSecret)
    (recoveryError "Incorrect password.")
  failIf (crypto.verifyTotpCode (crypto.decodeText secretBytes) code now = false)
    (recoveryError "Incorrect authenticator code.")
  return crypto.confirmMsg address key privateKey nonce

end Crypto

inductive Recovery
  | recovered (publicKey : String)
  | refused (reason : String)
  deriving DecidableEq, Repr

namespace Crypto

variable (crypto : Crypto)

-- The part of the check after the authenticator's code: everything that throws is caught.
def selfTest (key : Bytes) (blob : QueryVaultBlobResponse) : Recovery :=
  match crypto.opened key blob.noncePriv blob.ciphertext, decodeString blob.publicKey with
  | some privateKey, some publicKey =>
    let message := crypto.encodeText "vault-recovery-self-test"
    if crypto.verify (crypto.sign message privateKey) message publicKey then
      .recovered blob.publicKey
    else
      .refused "Recovered key does not match the stored public key."
  | _, _ => .refused "Incorrect password."

def testRecovery (blob : QueryVaultBlobResponse) (password code : String) (now : ℕ) :
    Result Recovery :=
  if blob.found = false ∨ blob.ciphertext = "" then
    return .refused "No confirmed vault for this address."
  else do
    let key ← crypto.keyOf blob password
    match crypto.opened key blob.nonceTotp blob.encryptedTotpSecret with
    | none             => return .refused "Incorrect password."
    | some secretBytes =>
      if crypto.verifyTotpCode (crypto.decodeText secretBytes) code now then
        return crypto.selfTest key blob
      else
        return .refused "Incorrect authenticator code."

end Crypto

-- What the chain answers about a vault.
def VaultBlob.response (vb : VaultBlob) : QueryVaultBlobResponse where
  found               := true
  salt                := vb.salt
  kdfTime             := vb.params.time
  kdfMemory           := vb.params.memory
  kdfThreads          := vb.params.threads.toUInt32
  kdfKeyLen           := vb.params.keyLen
  nonceTotp           := vb.nonceTOTP
  encryptedTotpSecret := vb.encryptedTOTPSecret
  noncePriv           := vb.noncePriv
  ciphertext          := vb.ciphertext
  publicKey           := vb.publicKey

section Recovery

variable {crypto : Crypto} {codec : AddressCodec} {s : State} {addr : AccAddress} {vb : VaultBlob}
  {address password password' secret code : String} {now : ℕ} {salt nonce key privateKey : Bytes}
  {setup : MsgSetupVault} {confirm : MsgConfirmVault}

theorem encodeString_ne_empty {bytes : Bytes} (h : bytes ≠ []) : encodeString bytes ≠ "" := by
  intro he
  have hd := decodeString_encodeString bytes
  rw [he] at hd
  exact h (Option.some.inj hd).symm

theorem vaultBlob_eq (ha : address ≠ "") (h : getVault address s = some vb) :
    vaultBlob address s = .ok vb.response := by
  simp [vaultBlob, ha, h]
  rfl

theorem opened_encrypt (hl : crypto.Lawful) {text : Bytes} :
    crypto.opened key (encodeString nonce) (encodeString (crypto.encrypt key nonce text)) =
      some text := by
  simp [Crypto.opened, decodeString_encodeString, hl.decrypt_encrypt]

theorem decodes_encodeString {what : String} {bytes : Bytes} :
    decodes (encodeString bytes) what = .ok bytes :=
  decodes_eq_ok.mpr (decodeString_encodeString bytes)

theorem deliver_of_handle {msg : Msg} {s' : State} (ha : codec.decode msg.authority = some addr)
    (h : handle msg s = .ok s') : codec.deliver msg s = .ok s' := by
  simp [AddressCodec.deliver, AddressCodec.getSigners, ha, h]

-- The chain takes the vault that the browser has set up.
theorem deliver_setupMsg (ha : codec.decode address = some addr) (hn : getVault address s = none) :
    codec.deliver (.setup (crypto.setupMsg address password salt nonce secret)) s =
      .ok (setVault address (crypto.setupMsg address password salt nonce secret).blob s) := by
  refine deliver_of_handle ha ?_
  rw [handle, setupVault]
  simp only [Crypto.setupMsg, hn, decodes_encodeString]
  rfl

-- It takes the key as well.
theorem deliver_confirmMsg (hl : crypto.Lawful) (ha : codec.decode address = some addr)
    (hv : getVault address s = some vb) (he : vb.ciphertext = "") :
    codec.deliver (.confirm (crypto.confirmMsg address key privateKey nonce)) s =
      .ok (setVault address ((crypto.confirmMsg address key privateKey nonce).fill vb) s) := by
  refine deliver_of_handle ha ?_
  have hp : ¬¬(crypto.publicKey privateKey).length = publicKeySize :=
    not_not.mpr (hl.length_publicKey privateKey)
  rw [handle, confirmVault]
  simp only [Crypto.confirmMsg, hv, orFail, Option.elim_some, Result.ok_bind, failIf, he, ne_eq,
    not_true_eq_false, if_false, decodes_encodeString, if_neg hp]
  rfl

-- The key that a password gives with the vault that was set up.
theorem keyOf_setupMsg : crypto.keyOf
    (crypto.setupMsg address password salt nonce secret).blob.response password' =
      .ok (crypto.defaultKey password' salt) := by
  simp [Crypto.keyOf, fromBase64, VaultBlob.response, MsgSetupVault.blob, Crypto.setupMsg,
    decodeString_encodeString, orFail]
  rfl

-- A vault that was set up and confirmed, with the secret of the authenticator and a private key.
def Crypto.backup (crypto : Crypto) (address password : String) (salt nonce : Bytes) (secret : String)
    (privateKey nonce' : Bytes) : VaultBlob :=
  (crypto.confirmMsg address (crypto.defaultKey password salt) privateKey nonce').fill
    (crypto.setupMsg address password salt nonce secret).blob

theorem confirmKeyRecovery_setupMsg {nonce' : Bytes} (hl : crypto.Lawful)
    (hv : crypto.verifyTotpCode secret code now) :
    crypto.confirmKeyRecovery (crypto.setupMsg address password salt nonce secret).blob.response
      address password code now privateKey nonce' =
        .ok (crypto.confirmMsg address (crypto.defaultKey password salt) privateKey nonce') := by
  have ho : crypto.opened (crypto.defaultKey password salt)
      (crypto.setupMsg address password salt nonce secret).blob.response.nonceTotp
      (crypto.setupMsg address password salt nonce secret).blob.response.encryptedTotpSecret =
        some (crypto.encodeText secret) := opened_encrypt hl
  have hf : (crypto.setupMsg address password salt nonce secret).blob.response.found = true := rfl
  have hc : (crypto.setupMsg address password salt nonce secret).blob.response.ciphertext = "" := rfl
  simp [Crypto.confirmKeyRecovery, failIf, hf, hc, keyOf_setupMsg, ho, orFail, hl.decode_encode, hv]

section Backup

variable {nonce' : Bytes}

theorem keyOf_backup : crypto.keyOf
    (crypto.backup address password salt nonce secret privateKey nonce').response password' =
      .ok (crypto.defaultKey password' salt) :=
  @keyOf_setupMsg crypto address password password' secret salt nonce

theorem selfTest_backup (hl : crypto.Lawful) :
    crypto.selfTest (crypto.defaultKey password salt)
      (crypto.backup address password salt nonce secret privateKey nonce').response =
        .recovered (encodeString (crypto.publicKey privateKey)) := by
  have ho : crypto.opened (crypto.defaultKey password salt)
      (crypto.backup address password salt nonce secret privateKey nonce').response.noncePriv
      (crypto.backup address password salt nonce secret privateKey nonce').response.ciphertext =
        some privateKey := opened_encrypt hl
  have hp : (crypto.backup address password salt nonce secret privateKey nonce').response.publicKey =
      encodeString (crypto.publicKey privateKey) := rfl
  simp [Crypto.selfTest, ho, hp, decodeString_encodeString, hl.verify_sign]

theorem isConfirmed_backup (hl : crypto.Lawful) :
    ¬((crypto.backup address password salt nonce secret privateKey nonce').response.found = false ∨
      (crypto.backup address password salt nonce secret privateKey nonce').response.ciphertext = "") := by
  rintro (h | h)
  case inl => exact nomatch h
  case inr => exact encodeString_ne_empty (hl.encrypt_ne_nil _ _ _) h

theorem testRecovery_backup (hl : crypto.Lawful) :
    crypto.testRecovery (crypto.backup address password salt nonce secret privateKey nonce').response
      password code now = .ok (if crypto.verifyTotpCode secret code now then
        .recovered (encodeString (crypto.publicKey privateKey))
      else .refused "Incorrect authenticator code.") := by
  have ho : crypto.opened (crypto.defaultKey password salt)
      (crypto.backup address password salt nonce secret privateKey nonce').response.nonceTotp
      (crypto.backup address password salt nonce secret privateKey nonce').response.encryptedTotpSecret =
        some (crypto.encodeText secret) := opened_encrypt hl
  rw [Crypto.testRecovery, if_neg (isConfirmed_backup hl), keyOf_backup, Result.ok_bind, ho]
  simp only [hl.decode_encode, selfTest_backup hl]
  split_ifs <;> rfl

theorem testRecovery_of_password (hl : crypto.Lawful)
    (hw : crypto.decrypt (crypto.defaultKey password' salt) nonce
      (crypto.encrypt (crypto.defaultKey password salt) nonce (crypto.encodeText secret)) = none) :
    crypto.testRecovery (crypto.backup address password salt nonce secret privateKey nonce').response
      password' code now = .ok (.refused "Incorrect password.") := by
  have ho : crypto.opened (crypto.defaultKey password' salt)
      (crypto.backup address password salt nonce secret privateKey nonce').response.nonceTotp
      (crypto.backup address password salt nonce secret privateKey nonce').response.encryptedTotpSecret =
        none := by
    rw [← hw]
    simp [Crypto.opened, Crypto.backup, VaultBlob.response, MsgConfirmVault.fill,
      MsgSetupVault.blob, Crypto.setupMsg, decodeString_encodeString]
  rw [Crypto.testRecovery, if_neg (isConfirmed_backup hl), keyOf_backup, Result.ok_bind, ho]
  rfl

-- A key is set up and confirmed, whatever others send to the chain in between. Until its owner
-- disables the vault, the password and a code of the authenticator recover it on any device, and
-- without both of them nothing is recovered.
theorem key_recovered {msgs : List Msg} (hl : crypto.Lawful) (ha : codec.decode address = some addr)
    (hn : getVault address s = none) (hp : 8 ≤ utf16Length password)
    (hm : ∀ msg ∈ msgs, msg.authority ≠ address) (hv : crypto.verifyTotpCode secret code now) :
    ∃ setup s₁ blob confirm s₂,
      crypto.setupKeyRecovery address password salt nonce secret = .ok setup ∧
      codec.deliver (.setup setup) s = .ok s₁ ∧
      vaultBlob address (codec.run s₁ msgs) = .ok blob ∧
      crypto.confirmKeyRecovery blob address password code now privateKey nonce' = .ok confirm ∧
      codec.deliver (.confirm confirm) (codec.run s₁ msgs) = .ok s₂ ∧
      ∀ msgs', codec.count (Msg.disables address) s₂ msgs' = 0 →
        ∃ blob', vaultBlob address (codec.run s₂ msgs') = .ok blob' ∧
          (∀ code now, crypto.testRecovery blob' password code now =
            .ok (if crypto.verifyTotpCode secret code now then
              .recovered (encodeString (crypto.publicKey privateKey))
            else .refused "Incorrect authenticator code.")) ∧
          ∀ password' code now, crypto.decrypt (crypto.defaultKey password' salt) nonce
              (crypto.encrypt (crypto.defaultKey password salt) nonce (crypto.encodeText secret)) = none →
            crypto.testRecovery blob' password' code now = .ok (.refused "Incorrect password.") := by
  have he : address ≠ "" := by
    rintro rfl
    exact nomatch codec.decode_empty.symm.trans ha
  have hs : crypto.setupKeyRecovery address password salt nonce secret =
      .ok (crypto.setupMsg address password salt nonce secret) := by
    rw [Crypto.setupKeyRecovery, failIf, if_neg (Nat.not_lt.mpr hp), Result.ok_bind]
    rfl
  have hg : getVault address (codec.run
      (setVault address (crypto.setupMsg address password salt nonce secret).blob s) msgs) =
        some (crypto.setupMsg address password salt nonce secret).blob := by
    rw [getVault_run hm, getVault_setVault]
  refine ⟨_, _, _, _, _, hs, deliver_setupMsg ha hn, vaultBlob_eq he hg,
    confirmKeyRecovery_setupMsg hl hv, deliver_confirmMsg hl ha hg rfl, fun msgs' hd => ?_⟩
  have hc : Confirmed address (crypto.backup address password salt nonce secret privateKey nonce')
      (setVault address (crypto.backup address password salt nonce secret privateKey nonce')
        (codec.run (setVault address (crypto.setupMsg address password salt nonce secret).blob s)
          msgs)) :=
    ⟨getVault_setVault, encodeString_ne_empty (hl.encrypt_ne_nil _ _ _)⟩
  have hr := (hc.run hd).1.1
  exact ⟨_, vaultBlob_eq he hr, fun code now => testRecovery_backup hl,
    fun password' code now hw => testRecovery_of_password hl hw⟩

end Backup

end Recovery

namespace Sample

def utf8 (text : String) : Bytes :=
  text.toByteArray.data.toList

-- A cipher that puts the key and the nonce before the text.
def crypto : Crypto where
  deriveKey password salt _ _ _ _    := utf8 password ++ salt
  encrypt key nonce text             := key ++ nonce ++ text ++ [0]
  decrypt key nonce ciphertext       :=
    if (key ++ nonce).isPrefixOf ciphertext then
      some (ciphertext.drop (key ++ nonce).length).dropLast
    else none
  encodeText                         := utf8
  decodeText bytes                   := (String.fromUTF8? ⟨bytes.toArray⟩).getD ""
  verifyTotpCode _ code _            := code == "123456"
  publicKey _                        := .replicate 32 0
  sign message _                     := message
  verify signature message _         := signature == message

theorem crypto_lawful : crypto.Lawful where
  decrypt_encrypt key nonce text   := by
    have hp : (key ++ nonce).isPrefixOf (key ++ nonce ++ text ++ [0]) := by
      rw [List.append_assoc, List.isPrefixOf_iff_prefix]
      exact List.prefix_append _ _
    simp only [crypto, if_pos hp]
    rw [List.append_assoc, List.drop_left, List.dropLast_concat]
  encrypt_ne_nil key nonce text    := by simp [crypto]
  decode_encode text               := by
    have hb : (⟨(utf8 text).toArray⟩ : ByteArray) = text.toByteArray := by simp [utf8]
    simp only [crypto]
    rw [hb, String.fromUTF8?, dif_pos text.isValidUTF8]
    rfl
  length_publicKey privateKey      := rfl
  verify_sign message privateKey   := by simp [crypto]

end Sample

theorem sample_key_recovered : ∃ s blob, vaultBlob "mall1owner" s = .ok blob ∧
    Sample.crypto.testRecovery blob "correct horse" "123456" 7 =
      .ok (.recovered (encodeString (.replicate 32 0))) := by
  obtain ⟨_, _, _, _, s₂, _, _, _, _, _, h⟩ := @key_recovered Sample.crypto Sample.bech32 .empty
    ⟨[]⟩ "mall1owner" "correct horse" "JBSWY3DP" "123456" 1 [1] [2] [3] [4] []
    Sample.crypto_lawful rfl rfl (by decide) (by simp) rfl
  obtain ⟨blob, hb, hr, _⟩ := h [] rfl
  exact ⟨_, blob, hb, hr "123456" 7⟩

end Vault
