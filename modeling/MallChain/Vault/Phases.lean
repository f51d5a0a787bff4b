import MallChain.Vault.Keeper

-- What the owner of a vault reads back, and how often a vault is confirmed.

namespace Vault

open Sdk

-- What a client finds again of what it has submitted.
def submitted (setup : MsgSetupVault) (confirm : MsgConfirmVault) : QueryVaultBlobResponse where
  found               := true
  salt                := setup.salt
  kdfTime             := setup.kdfTime
  kdfMemory           := setup.kdfMemory
  kdfThreads          := setup.kdfThreads
  kdfKeyLen           := setup.kdfKeyLen
  nonceTotp           := setup.nonceTotp
  encryptedTotpSecret := setup.encryptedTotpSecret
  noncePriv           := confirm.noncePriv
  ciphertext          := confirm.ciphertext
  publicKey           := confirm.publicKey

variable {codec : AddressCodec} {s s₁ s₂ : State} {msg : Msg} {msgs msgs' : List Msg}
variable {setup : MsgSetupVault} {confirm : MsgConfirmVault} {owner : String} {vb : VaultBlob}

-- The threads survive the storage if they fit into a byte.
theorem toUInt32_truncated_iff {n : UInt32} : (truncated n).toUInt32 = n ↔ n < 256 := by
  rw [← UInt32.toNat_inj, UInt32.lt_iff_toNat_lt]
  simp only [truncated, UInt8.toNat_toUInt32, UInt32.toNat_toUInt8]
  have hbound : (256 : UInt32).toNat = 256 := rfl
  omega

theorem vaultBlob_of_getVault (howner : owner ≠ "")
    (hget : getVault owner s = some (confirm.fill setup.blob)) :
    vaultBlob owner s = .ok { submitted setup confirm with
      kdfThreads := (truncated setup.kdfThreads).toUInt32 } := by
  simp only [vaultBlob, failIf, howner, if_false, Result.ok_bind, hget]
  rfl

theorem getVault_confirmed (hs : codec.deliver (.setup setup) s = .ok s₁)
    (hother : ∀ msg ∈ msgs, msg.authority ≠ setup.authority)
    (hc : codec.deliver (.confirm confirm) (codec.run s₁ msgs) = .ok s₂)
    (howner : confirm.authority = setup.authority) :
    getVault setup.authority s₂ = some (confirm.fill setup.blob) := by
  obtain ⟨_, hset⟩ := of_setupVault (of_deliver hs).2
  obtain ⟨vb, hvb, _, rfl⟩ := of_confirmVault (of_deliver hc).2
  rw [howner, getVault_run hother, hset, getVault_setVault] at hvb
  cases hvb
  rw [howner, getVault_setVault]

namespace Sample

def bech32 : AddressCodec where
  decode text  := if text = "" then none else some ⟨[]⟩
  decode_empty := rfl

def setupMsg (threads : UInt32) : MsgSetupVault where
  authority           := "mall1owner"
  salt                := "c2FsdA=="
  kdfTime             := 3
  kdfMemory           := 65536
  kdfThreads          := threads
  kdfKeyLen           := 32
  nonceTotp           := "bm9uY2U="
  encryptedTotpSecret := "c2VjcmV0"

def confirmMsg (ciphertext : String) : MsgConfirmVault where
  authority  := "mall1owner"
  noncePriv  := "bm9uY2U="
  ciphertext := ciphertext
  publicKey  := "AAAAAAAAAAAAAAAAAAAAAAAAAAAAAAAAAAAAAAAAAAA="

def provisioned (threads : UInt32) : State :=
  setVault "mall1owner" (setupMsg threads).blob .empty

def finalized (threads : UInt32) (ciphertext : String) : State :=
  setVault "mall1owner" ((confirmMsg ciphertext).fill (setupMsg threads).blob) (provisioned threads)

end Sample

-- A vault that was set up and confirmed is read back as it was submitted, unless the number of
-- threads was too large for the storage.
theorem vaultBlob_submitted_iff (hs : codec.deliver (.setup setup) s = .ok s₁)
    (hother : ∀ msg ∈ msgs, msg.authority ≠ setup.authority)
    (hc : codec.deliver (.confirm confirm) (codec.run s₁ msgs) = .ok s₂)
    (howner : confirm.authority = setup.authority)
    (hother' : ∀ msg ∈ msgs', msg.authority ≠ setup.authority) :
    vaultBlob setup.authority (codec.run s₂ msgs') = .ok (submitted setup confirm) ↔
      setup.kdfThreads < 256 := by
  have howned : setup.authority ≠ "" := (of_deliver hs).1
  have hget : getVault setup.authority (codec.run s₂ msgs') = some (confirm.fill setup.blob) := by
    rw [getVault_run hother']
    exact getVault_confirmed hs hother hc howner
  rw [vaultBlob_of_getVault howned hget, ← toUInt32_truncated_iff]
  refine ⟨fun h => ?_, fun h => by rw [h]; rfl⟩
  exact congrArg QueryVaultBlobResponse.kdfThreads (Except.ok.inj h)

theorem vaultBlob_submitted_sample :
    vaultBlob "mall1owner" (Sample.finalized 4 "a2V5") =
      .ok (submitted (Sample.setupMsg 4) (Sample.confirmMsg "a2V5")) ↔ (4 : UInt32) < 256 :=
  @vaultBlob_submitted_iff Sample.bech32 .empty (Sample.provisioned 4)
    (Sample.finalized 4 "a2V5") [] [] (Sample.setupMsg 4) (Sample.confirmMsg "a2V5")
    rfl (by simp) rfl rfl (by simp)

-- 257 threads are stored as one.
theorem threads_truncated :
    ¬ ∀ (codec : AddressCodec) (s s₁ s₂ : State) (setup : MsgSetupVault) (confirm : MsgConfirmVault),
      codec.deliver (.setup setup) s = .ok s₁ → codec.deliver (.confirm confirm) s₁ = .ok s₂ →
      confirm.authority = setup.authority →
      vaultBlob setup.authority s₂ = .ok (submitted setup confirm) := by
  intro h
  have hblob := h Sample.bech32 .empty (Sample.provisioned 257) (Sample.finalized 257 "a2V5")
    (Sample.setupMsg 257) (Sample.confirmMsg "a2V5") rfl rfl rfl
  have hthreads : vaultBlob (Sample.setupMsg 257).authority (Sample.finalized 257 "a2V5") =
      .ok { submitted (Sample.setupMsg 257) (Sample.confirmMsg "a2V5") with kdfThreads := 1 } := rfl
  rw [hthreads] at hblob
  exact absurd (congrArg QueryVaultBlobResponse.kdfThreads (Except.ok.inj hblob)) (by decide)

-- The messages of an owner that the chain accepts.

def AddressCodec.accepts (codec : AddressCodec) (s : State) (msg : Msg) : Bool :=
  (codec.deliver msg s).isOk

def Msg.confirms (owner : String) : Msg → Bool
  | .confirm msg => msg.authority == owner
  | _            => false

def Msg.disables (owner : String) : Msg → Bool
  | .disable msg => msg.authority == owner
  | _            => false

-- How many messages of a kind are accepted in a run
def AddressCodec.count (codec : AddressCodec) (kind : Msg → Bool) : State → List Msg → ℕ
  | _, []          => 0
  | s, msg :: msgs =>
    (if kind msg && codec.accepts s msg then 1 else 0) + codec.count kind (codec.next s msg) msgs

structure Lawful (codec : AddressCodec) (s : State) (msgs : List Msg) : Prop where
  once : ∀ owner before during after, msgs = before ++ during ++ after →
    codec.count (Msg.disables owner) (codec.run s before) during = 0 →
    codec.count (Msg.confirms owner) (codec.run s before) during ≤ 1
  kept : ∀ owner before msg during after, msgs = before ++ msg :: during ++ after →
    msg.confirms owner = true → codec.accepts (codec.run s before) msg = true →
    codec.count (Msg.disables owner) (codec.run s (before ++ [msg])) during = 0 →
    getVault owner (codec.run s (before ++ msg :: during)) =
      getVault owner (codec.run s (before ++ [msg]))
  own  : ∀ owner before msg after, msgs = before ++ msg :: after → owner ≠ msg.authority →
    getVault owner (codec.run s (before ++ [msg])) = getVault owner (codec.run s before)

-- A vault whose ciphertext is there
def Confirmed (owner : String) (vb : VaultBlob) (s : State) : Prop :=
  getVault owner s = some vb ∧ vb.ciphertext ≠ ""

theorem run_append (before after : List Msg) :
    codec.run s (before ++ after) = codec.run (codec.run s before) after :=
  List.foldl_append

theorem accepts_iff : codec.accepts s msg = true ↔ codec.deliver msg s = .ok (codec.next s msg) := by
  rw [AddressCodec.accepts, Result.isOk_iff]
  refine ⟨fun ⟨s', h⟩ => ?_, fun h => ⟨_, h⟩⟩
  rw [AddressCodec.next, h]

theorem count_cons_eq_zero {kind : Msg → Bool} : codec.count kind s (msg :: msgs) = 0 ↔
    ¬ (kind msg = true ∧ codec.accepts s msg = true) ∧ codec.count kind (codec.next s msg) msgs = 0 := by
  simp only [AddressCodec.count, Nat.add_eq_zero_iff, ite_eq_right_iff, Bool.and_eq_true,
    Nat.one_ne_zero, imp_false]

-- A confirmed vault takes no other message than one that disables it.
theorem Confirmed.next (h : Confirmed owner vb s)
    (hd : ¬ (msg.disables owner = true ∧ codec.accepts s msg = true)) :
    Confirmed owner vb (codec.next s msg) ∧
      ¬ (msg.confirms owner = true ∧ codec.accepts s msg = true) := by
  by_cases hacc : codec.accepts s msg = true
  case neg =>
    refine ⟨?_, fun hc => hacc hc.2⟩
    rcases next_cases codec msg s with hok | ⟨_, heq⟩
    · exact absurd (accepts_iff.mpr hok) hacc
    · rw [heq]
      exact h
  case pos =>
    have hok := (of_deliver (accepts_iff.mp hacc)).2
    by_cases howner : owner = msg.authority
    case neg =>
      refine ⟨⟨(getVault_handle hok howner).trans h.1, h.2⟩, fun ⟨hc, _⟩ => ?_⟩
      cases msg <;> simp_all [Msg.confirms, Msg.authority]
    case pos =>
      cases msg with
      | setup msg =>
        obtain ⟨hnone, _⟩ := of_setupVault hok
        cases (howner ▸ h.1).symm.trans hnone
      | confirm msg =>
        obtain ⟨vb', hvb, hempty, _⟩ := of_confirmVault hok
        cases (howner ▸ h.1).symm.trans hvb
        exact absurd hempty h.2
      | disable msg => exact absurd ⟨by simp [Msg.disables, howner, Msg.authority], hacc⟩ hd

theorem Confirmed.run (h : Confirmed owner vb s)
    (hd : codec.count (Msg.disables owner) s msgs = 0) :
    Confirmed owner vb (codec.run s msgs) ∧ codec.count (Msg.confirms owner) s msgs = 0 := by
  induction msgs generalizing s with
  | nil => exact ⟨h, rfl⟩
  | cons msg msgs ih =>
    obtain ⟨hd, hds⟩ := count_cons_eq_zero.mp hd
    obtain ⟨hnext, hc⟩ := h.next hd
    obtain ⟨hrun, hcs⟩ := ih hnext hds
    exact ⟨hrun, count_cons_eq_zero.mpr ⟨hc, hcs⟩⟩

theorem confirmed_of_confirms (hc : msg.confirms owner = true) (hacc : codec.accepts s msg = true)
    (hfull : ∀ confirm, msg = .confirm confirm → confirm.ciphertext ≠ "") :
    ∃ vb, Confirmed owner vb (codec.next s msg) := by
  have hok := (of_deliver (accepts_iff.mp hacc)).2
  cases msg with
  | setup msg => cases hc
  | disable msg => cases hc
  | confirm msg =>
    cases beq_iff_eq.mp hc
    obtain ⟨vb, _, _, hnext⟩ := of_confirmVault hok
    refine ⟨msg.fill vb, ?_, hfull msg rfl⟩
    rw [hnext, getVault_setVault]

theorem confirms_le_one (hfull : ∀ confirm, .confirm confirm ∈ msgs → confirm.ciphertext ≠ "")
    (hd : codec.count (Msg.disables owner) s msgs = 0) :
    codec.count (Msg.confirms owner) s msgs ≤ 1 := by
  induction msgs generalizing s with
  | nil => exact Nat.zero_le 1
  | cons msg msgs ih =>
    have hds := (count_cons_eq_zero.mp hd).2
    by_cases hc : msg.confirms owner = true ∧ codec.accepts s msg = true
    case neg =>
      have hrest := ih (fun confirm hm => hfull confirm (List.mem_cons_of_mem _ hm)) hds
      simpa only [AddressCodec.count, Bool.and_eq_true, hc, if_false, Nat.zero_add] using hrest
    case pos =>
      obtain ⟨vb, hvb⟩ := confirmed_of_confirms hc.1 hc.2 fun confirm he =>
        hfull confirm (he ▸ List.mem_cons_self ..)
      simp [AddressCodec.count, hc.1, hc.2, (hvb.run hds).2]

-- Where no vault is confirmed with an empty ciphertext, a vault is confirmed once and kept until
-- its owner disables it.
theorem lawful_of_ciphertexts
    (hfull : ∀ confirm, .confirm confirm ∈ msgs → confirm.ciphertext ≠ "") :
    Lawful codec s msgs where
  once := by
    rintro owner before during after rfl hd
    refine confirms_le_one (fun confirm hm => hfull confirm ?_) hd
    simp [hm]
  kept := by
    rintro owner before msg during after rfl hc hacc hd
    obtain ⟨vb, hvb⟩ := confirmed_of_confirms hc hacc fun confirm he => hfull confirm (by simp [he])
    have hafter : codec.run s (before ++ [msg]) = codec.next (codec.run s before) msg :=
      run_append before [msg]
    have hrun : codec.run s (before ++ msg :: during) =
        codec.run (codec.next (codec.run s before) msg) during := run_append before (msg :: during)
    rw [hafter] at hd ⊢
    rw [hrun, hvb.1, (hvb.run hd).1.1]
  own := by
    rintro owner before msg after rfl howner
    rw [run_append]
    exact getVault_next howner

theorem lawful_sample : Lawful Sample.bech32 .empty
    [.setup (Sample.setupMsg 4), .confirm (Sample.confirmMsg "a2V5")] := by
  refine lawful_of_ciphertexts fun confirm hm => ?_
  simp only [List.mem_cons, reduceCtorEq, Msg.confirm.injEq, List.not_mem_nil, or_false,
    false_or] at hm
  subst hm
  decide

-- A vault with an empty ciphertext is confirmed a second time.
theorem confirmed_twice :
    ¬ ∀ (codec : AddressCodec) (s : State) (msgs : List Msg), Lawful codec s msgs := by
  intro h
  have honce := (h Sample.bech32 .empty
    [.setup (Sample.setupMsg 4), .confirm (Sample.confirmMsg ""), .confirm (Sample.confirmMsg "a2V5")]).once
    "mall1owner" [.setup (Sample.setupMsg 4)]
    [.confirm (Sample.confirmMsg ""), .confirm (Sample.confirmMsg "a2V5")] [] rfl
  exact absurd (honce rfl) (by decide)

end Vault
