import MallChain.Lib.Text
import MallChain.Lib.KVStore
import MallChain.Sdk.Bank

namespace Vault

open Sdk

structure Argon2Params where
  time    : UInt32
  memory  : UInt32
  threads : UInt8
  keyLen  : UInt32
  deriving DecidableEq, Repr

structure VaultBlob where
  salt                : String
  params              : Argon2Params
  nonceTOTP           : String
  noncePriv           : String := ""
  ciphertext          : String := ""
  encryptedTOTPSecret : String
  kdfVersion          : String
  publicKey           : String := ""
  deriving DecidableEq, Repr

def vaultKeyPrefix : String := "vault:record:"

def vaultKeyFor (owner : String) : String :=
  vaultKeyPrefix ++ owner

-- The records are stored as JSON, which gives back what was written.
abbrev State := KVStore String VaultBlob

structure MsgSetupVault where
  authority           : String
  salt                : String
  kdfTime             : UInt32
  kdfMemory           : UInt32
  kdfThreads          : UInt32
  kdfKeyLen           : UInt32
  nonceTotp           : String
  encryptedTotpSecret : String
  deriving DecidableEq, Repr

structure MsgConfirmVault where
  authority  : String
  noncePriv  : String
  ciphertext : String
  publicKey  : String
  deriving DecidableEq, Repr

structure MsgDisableVault where
  authority : String
  deriving DecidableEq, Repr

structure QueryVaultBlobResponse where
  found               : Bool
  salt                : String := ""
  kdfTime             : UInt32 := 0
  kdfMemory           : UInt32 := 0
  kdfThreads          : UInt32 := 0
  kdfKeyLen           : UInt32 := 0
  nonceTotp           : String := ""
  encryptedTotpSecret : String := ""
  noncePriv           : String := ""
  ciphertext          : String := ""
  publicKey           : String := ""
  deriving DecidableEq, Repr

def minArgon2Time    : UInt32 := 1
def minArgon2Memory  : UInt32 := 19 * 1024
def minArgon2Threads : UInt8 := 1
def minArgon2KeyLen  : UInt32 := 16

def kdfVersion : String := "argon2id_v1"

def getVault (owner : String) (s : State) : Option VaultBlob :=
  s.get (vaultKeyFor owner)

def setVault (owner : String) (vb : VaultBlob) (s : State) : State :=
  s.set (vaultKeyFor owner) vb

def validateArgon2Params (params : Argon2Params) : Result Unit :=
  failIf
    (params.time < minArgon2Time ∨ params.memory < minArgon2Memory ∨
      params.threads < minArgon2Threads ∨ params.keyLen < minArgon2KeyLen)
    (.error "argon2 parameters below minimum security floor")

def decodes (text what : String) : Result Base64.Bytes :=
  orFail (Base64.decodeString text) (.error s!"invalid {what} encoding")

def setupVault (owner salt : String) (params : Argon2Params)
    (nonceTOTP encryptedTOTPSecret : String) (s : State) : Result State := do
  failIf (getVault owner s ≠ none) (.error "vault already exists for this account")
  let _ ← decodes salt "salt"
  let _ ← decodes nonceTOTP "TOTP nonce"
  let _ ← decodes encryptedTOTPSecret "encrypted TOTP secret"
  validateArgon2Params params
  return setVault owner {
    salt                := salt
    params              := params
    nonceTOTP           := nonceTOTP
    encryptedTOTPSecret := encryptedTOTPSecret
    kdfVersion          := kdfVersion
  } s

-- The size of an ed25519 public key
def publicKeySize : ℕ := 32

def confirmVault (owner noncePriv ciphertext publicKey : String) (s : State) : Result State := do
  let vb ← orFail (getVault owner s) (.error "vault not initialized")
  failIf (vb.ciphertext ≠ "") (.error "vault already confirmed")
  let _ ← decodes noncePriv "private-key nonce"
  let _ ← decodes ciphertext "ciphertext"
  let pubBytes ← decodes publicKey "public key"
  failIf (pubBytes.length ≠ publicKeySize) (.error "public key must be an ed25519 public key")
  return setVault owner
    { vb with noncePriv := noncePriv, ciphertext := ciphertext, publicKey := publicKey } s

def disableVault (owner : String) (s : State) : Result State := do
  let _ ← orFail (getVault owner s) (.error "vault not initialized")
  return s.remove (vaultKeyFor owner)

inductive Msg
  | setup (msg : MsgSetupVault)
  | confirm (msg : MsgConfirmVault)
  | disable (msg : MsgDisableVault)
  deriving DecidableEq, Repr

def Msg.authority : Msg → String
  | setup msg   => msg.authority
  | confirm msg => msg.authority
  | disable msg => msg.authority

-- `uint8(n)`
def truncated (n : UInt32) : UInt8 :=
  n.toUInt8

def MsgSetupVault.params (msg : MsgSetupVault) : Argon2Params where
  time    := msg.kdfTime
  memory  := msg.kdfMemory
  threads := truncated msg.kdfThreads
  keyLen  := msg.kdfKeyLen

-- How addresses are read. The empty text is none.
structure AddressCodec where
  decode       : String → Option AccAddress
  decode_empty : decode "" = none

def AddressCodec.getSigners (codec : AddressCodec) (msg : Msg) : Result AccAddress :=
  orFail (codec.decode msg.authority) (.panic "decoding bech32 failed")

def handle : Msg → State → Result State
  | .setup msg   => setupVault msg.authority msg.salt msg.params msg.nonceTotp msg.encryptedTotpSecret
  | .confirm msg => confirmVault msg.authority msg.noncePriv msg.ciphertext msg.publicKey
  | .disable msg => disableVault msg.authority

-- A message is handled once its signer is known.
def AddressCodec.deliver (codec : AddressCodec) (msg : Msg) (s : State) : Result State := do
  let _ ← codec.getSigners msg
  handle msg s

-- A message that is rejected changes nothing.
def AddressCodec.next (codec : AddressCodec) (s : State) (msg : Msg) : State :=
  match codec.deliver msg s with
  | .ok s'   => s'
  | .error _ => s

def AddressCodec.run (codec : AddressCodec) (s : State) (msgs : List Msg) : State :=
  msgs.foldl codec.next s

def vaultBlob (owner : String) (s : State) : Result QueryVaultBlobResponse := do
  failIf (owner = "") (.error "owner is required")
  match getVault owner s with
  | none    => return { found := false }
  | some vb => return {
      found               := true
      salt                := vb.salt
      kdfTime             := vb.params.time
      kdfMemory           := vb.params.memory
      kdfThreads          := vb.params.threads.toUInt32
      kdfKeyLen           := vb.params.keyLen
      nonceTotp           := vb.nonceTOTP
      encryptedTotpSecret := vb.encryptedTOTPSecret
      noncePriv           := vb.noncePriv
      ciphertext          := vb.ciphertext
      publicKey           := vb.publicKey
    }

-- What each message does when it is accepted.

def MsgSetupVault.blob (msg : MsgSetupVault) : VaultBlob where
  salt                := msg.salt
  params              := msg.params
  nonceTOTP           := msg.nonceTotp
  encryptedTOTPSecret := msg.encryptedTotpSecret
  kdfVersion          := kdfVersion

def MsgConfirmVault.fill (msg : MsgConfirmVault) (vb : VaultBlob) : VaultBlob :=
  { vb with noncePriv := msg.noncePriv, ciphertext := msg.ciphertext, publicKey := msg.publicKey }

variable {codec : AddressCodec} {s s' : State} {msg : Msg} {msgs : List Msg} {owner : String}

theorem vaultKeyFor_inj {owner' : String} : vaultKeyFor owner = vaultKeyFor owner' ↔ owner = owner' := by
  refine ⟨fun h => ?_, congrArg _⟩
  have hlist := congrArg String.toList h
  simp only [vaultKeyFor, String.toList_append] at hlist
  exact String.toList_injective (List.append_cancel_left hlist)

@[simp]
theorem getVault_setVault {vb : VaultBlob} : getVault owner (setVault owner vb s) = some vb :=
  KVStore.get_set_self

theorem getVault_setVault_ne {owner' : String} {vb : VaultBlob} (h : owner ≠ owner') :
    getVault owner (setVault owner' vb s) = getVault owner s :=
  KVStore.get_set_ne (mt vaultKeyFor_inj.mp h)

@[simp]
theorem decodes_eq_ok {text what : String} {bytes : Base64.Bytes} :
    decodes text what = .ok bytes ↔ Base64.decodeString text = some bytes := by
  simp [decodes]

theorem of_setupVault {msg : MsgSetupVault} (h : handle (.setup msg) s = .ok s') :
    getVault msg.authority s = none ∧ s' = setVault msg.authority msg.blob s := by
  simp only [handle, setupVault, Result.bind_eq_ok, failIf_eq_ok, Result.pure_eq_ok, not_not] at h
  obtain ⟨_, hnone, _, _, _, _, _, _, _, _, rfl⟩ := h
  exact ⟨hnone, rfl⟩

theorem of_confirmVault {msg : MsgConfirmVault} (h : handle (.confirm msg) s = .ok s') :
    ∃ vb, getVault msg.authority s = some vb ∧ vb.ciphertext = "" ∧
      s' = setVault msg.authority (msg.fill vb) s := by
  simp only [handle, confirmVault, Result.bind_eq_ok, failIf_eq_ok, Result.pure_eq_ok, orFail_eq_ok,
    not_not] at h
  obtain ⟨vb, hvb, _, hempty, _, _, _, _, _, _, _, _, rfl⟩ := h
  exact ⟨vb, hvb, hempty, rfl⟩

theorem of_disableVault {msg : MsgDisableVault} (h : handle (.disable msg) s = .ok s') :
    getVault msg.authority s ≠ none ∧ s' = s.remove (vaultKeyFor msg.authority) := by
  simp only [handle, disableVault, Result.bind_eq_ok, Result.pure_eq_ok, orFail_eq_ok] at h
  obtain ⟨vb, hvb, rfl⟩ := h
  exact ⟨hvb ▸ Option.some_ne_none vb, rfl⟩

theorem of_deliver (h : codec.deliver msg s = .ok s') :
    msg.authority ≠ "" ∧ handle msg s = .ok s' := by
  simp only [AddressCodec.deliver, AddressCodec.getSigners, Result.bind_eq_ok, orFail_eq_ok] at h
  obtain ⟨addr, haddr, h⟩ := h
  refine ⟨fun hempty => ?_, h⟩
  rw [hempty, codec.decode_empty] at haddr
  cases haddr

-- A message is about the vault of its sender only.
theorem getVault_handle (h : handle msg s = .ok s') (hne : owner ≠ msg.authority) :
    getVault owner s' = getVault owner s := by
  cases msg with
  | setup msg =>
    obtain ⟨_, rfl⟩ := of_setupVault h
    exact getVault_setVault_ne hne
  | confirm msg =>
    obtain ⟨vb, _, _, rfl⟩ := of_confirmVault h
    exact getVault_setVault_ne hne
  | disable msg =>
    obtain ⟨_, rfl⟩ := of_disableVault h
    exact KVStore.get_remove_ne (mt vaultKeyFor_inj.mp hne)

theorem next_cases (codec : AddressCodec) (msg : Msg) (s : State) :
    codec.deliver msg s = .ok (codec.next s msg) ∨
      (∀ s', codec.deliver msg s ≠ .ok s') ∧ codec.next s msg = s := by
  simp only [AddressCodec.next]
  cases codec.deliver msg s with
  | ok s'   => exact .inl rfl
  | error e => exact .inr ⟨by simp, rfl⟩

theorem getVault_next (hne : owner ≠ msg.authority) :
    getVault owner (codec.next s msg) = getVault owner s := by
  rcases next_cases codec msg s with h | ⟨_, h⟩
  · exact getVault_handle (of_deliver h).2 hne
  · rw [h]

theorem getVault_run (h : ∀ msg ∈ msgs, msg.authority ≠ owner) :
    getVault owner (codec.run s msgs) = getVault owner s := by
  induction msgs generalizing s with
  | nil => rfl
  | cons msg msgs ih =>
    have hrest := ih (s := codec.next s msg) fun msg hm => h msg (List.mem_cons_of_mem _ hm)
    exact hrest.trans (getVault_next (h msg (List.mem_cons_self ..)).symm)

end Vault
