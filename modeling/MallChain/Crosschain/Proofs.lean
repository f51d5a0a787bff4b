import MallChain.Lib.Text
import MallChain.Crosschain.Records

namespace Crosschain

open Sdk TransitionSystem
open Base64 (Bytes)

-- The fields of the caller's proof as `json.Unmarshal` fills them.
structure UnmarshalledProof extends BridgeTransferProof where
  proof : String

def decodeProofValue (value : String) : Option Bytes :=
  if value = "" then none else (Base64.decodeString value).filter (· ≠ [])

-- The proof may be encoded as a whole, and its bytes are given directly or in the field `proof`.
def parseBridgeTransferProof (unmarshal : Bytes → Option UnmarshalledProof) (proof : String) :
    Option BridgeTransferProof := do
  if proof = "" then
    none
  let proofBytes := ((Base64.decodeString proof).filter (· ≠ [])).getD proof.toUTF8.data.toList
  let parsed ← unmarshal proofBytes
  let proofBytes :=
    if parsed.proofBytes = [] then (decodeProofValue parsed.proof).getD [] else parsed.proofBytes
  if proofBytes = [] then
    none
  return { parsed.toBridgeTransferProof with proofBytes }

-- The keeper that reads proofs with a decoder of JSON.
def Keeper.parsing (k : Keeper) (unmarshal : Bytes → Option UnmarshalledProof) : Keeper :=
  { k with parseProof := parseBridgeTransferProof unmarshal }

-- What the IBC packages compute from the fields of a packet: the bytes of its data, and the key and the
-- value of its commitment.
structure Commitments where
  getBytes            : FungibleTokenPacketData → Bytes
  packetCommitmentKey : (portID channelID : String) → (sequence : UInt64) → Bytes
  commitPacket        : (timeoutTimestamp : UInt64) → (data : Bytes) → Bytes

namespace Commitments

def storeKey : Bytes :=
  "ibc".toUTF8.data.toList

def path (c : Commitments) (p : Packet) : List Bytes :=
  [storeKey, c.packetCommitmentKey p.sourcePort p.sourceChannel p.sequence]

def value (c : Commitments) (p : Packet) : Bytes :=
  c.commitPacket p.timeoutTimestamp (p.data.elim [] c.getBytes)

end Commitments

-- The paths and values that the light clients accept for the bytes of a proof at a height.
abbrev Acceptance :=
  (clientID : String) → (revisionNumber revisionHeight : UInt64) → Bytes → Set (List Bytes × Bytes)

-- The light clients check the path and the value of a packet.
def LightClients.Check (clients : LightClients) (c : Commitments) (accepted : Acceptance) : Prop :=
  ∀ clientID revisionNumber revisionHeight proof p,
    clients.verifyMembership clientID revisionNumber revisionHeight proof p = true →
      (c.path p, c.value p) ∈ accepted clientID revisionNumber revisionHeight proof

def BridgeTransferProof.provenHeight (p : BridgeTransferProof) : UInt64 :=
  if p.revisionHeight = 0 then p.height else p.revisionHeight

-- A transfer was sent with a packet.
def TransferMeta.Sent (m : TransferMeta) : Prop :=
  m.ibcSequence ≠ 0 ∧ m.portID ≠ "" ∧ m.channelID ≠ ""

namespace Keeper

def Accepts (k : Keeper) (ctx : Context) (s : State) (proof : String) (t : BridgeTransfer) : Prop :=
  k.verifyTransferProof ctx s proof t = .ok ()

-- The packet that a proof for a transfer has to be about.
def expectedPacket (k : Keeper) (t : BridgeTransfer) (amount : Coin) (m : TransferMeta) : Packet where
  sourcePort       := m.portID
  sourceChannel    := m.channelID
  sequence         := m.ibcSequence
  timeoutTimestamp := m.timeoutTimestamp
  data             := some {
    denom    := t.assetDenom
    amount   := amount.amount
    sender   := k.moduleAddrString
    receiver := t.recipient
    memo     := formatBridgeMemo t.id
  }

end Keeper

variable {k : Keeper} {ctx ctx' : Context} {s s' : State} {proof : String} {A B : BridgeTransfer}
variable {c : Commitments} {accepted : Acceptance} {idA idB : UInt64}

-- The caller chooses the client, the height and the bytes, and the keeper everything else.
theorem of_accepts (h : k.Accepts ctx s proof A) :
    ∃ m parsed amount, s.transferMeta.get A.id = some m ∧ m.Sent ∧ k.parseProof proof = some parsed ∧
      ctx.lightClients.verifyMembership parsed.clientID parsed.revisionNumber parsed.provenHeight
        parsed.proofBytes (k.expectedPacket A amount m) = true := by
  simp only [Keeper.Accepts, Keeper.verifyTransferProof, Result.bind_eq_ok, orFail_eq_ok,
    failIf_eq_ok, Bool.not_eq_false, not_or] at h
  obtain ⟨m, hm, _, hsent, parsed, hp, _, _, _, _, amount, _, _, _, _, _, hv⟩ := h
  exact ⟨m, parsed, amount, hm, hsent, hp, hv⟩

-- A new transfer is stored under its own id.
theorem lasting_id : Lasting k fun id t => t.id = id where
  initiate h := by
    obtain ⟨t, ht, hid, _⟩ := of_initiate h
    exact ⟨t, ht, hid⟩
  settle _ ht := ht

theorem stored_id (hs : (system k).Reachable s) (hA : s.bridgeTransfers.get idA = some A) :
    A.id = idA :=
  (each lasting_id).holds hs idA A hA

theorem value_expectedPacket (hdata : Function.Injective c.getBytes)
    (hcommit : Function.Injective2 c.commitPacket) {a b : Coin} {m n : TransferMeta}
    (h : c.value (k.expectedPacket A a m) = c.value (k.expectedPacket B b n)) : A.id = B.id := by
  have hbytes := (hcommit h).2
  have hmemo := congrArg FungibleTokenPacketData.memo (hdata hbytes)
  exact formatBridgeMemo_injective hmemo

-- A proof is accepted for the transfers of one id only.
theorem Keeper.Accepts.id_eq (hdata : Function.Injective c.getBytes)
    (hcommit : Function.Injective2 c.commitPacket)
    (hone : ∀ clientID revisionNumber revisionHeight bytes,
      (accepted clientID revisionNumber revisionHeight bytes).Subsingleton)
    (hc : ctx.lightClients.Check c accepted) (hc' : ctx'.lightClients.Check c accepted)
    (hA : k.Accepts ctx s proof A) (hB : k.Accepts ctx' s' proof B) : A.id = B.id := by
  obtain ⟨m, p, a, _, _, hp, hv⟩ := of_accepts hA
  obtain ⟨n, q, b, _, _, hq, hw⟩ := of_accepts hB
  cases hp.symm.trans hq
  have heq := hone _ _ _ _ (hc _ _ _ _ _ hv) (hc' _ _ _ _ _ hw)
  exact value_expectedPacket hdata hcommit (Prod.mk.inj heq).2

-- A proof is accepted for a transfer only with a recorded packet, and once it is accepted for one
-- transfer, it is at no time accepted for another one.
theorem proofs_bound (k : Keeper) (unmarshal : Bytes → Option UnmarshalledProof) (c : Commitments)
    (accepted : Acceptance) (hdata : Function.Injective c.getBytes)
    (hcommit : Function.Injective2 c.commitPacket)
    (hone : ∀ clientID revisionNumber revisionHeight bytes,
      (accepted clientID revisionNumber revisionHeight bytes).Subsingleton) :
    ∀ s, (system (k.parsing unmarshal)).Reachable s →
      ∀ ctx idA A proof, s.bridgeTransfers.get idA = some A →
        (k.parsing unmarshal).Accepts ctx s proof A →
          (∃ m, s.transferMeta.get idA = some m ∧ m.Sent) ∧
          ∀ s', (system (k.parsing unmarshal)).Reachable s' →
            ∀ ctx' idB B, s'.bridgeTransfers.get idB = some B → idB ≠ idA →
              ctx.lightClients.Check c accepted → ctx'.lightClients.Check c accepted →
                ¬(k.parsing unmarshal).Accepts ctx' s' proof B := by
  intro s hs ctx idA A proof hA hacc
  have hidA := stored_id hs hA
  refine ⟨?recorded, ?bound⟩
  case recorded =>
    obtain ⟨m, _, _, hm, hsent, _⟩ := of_accepts hacc
    exact ⟨m, hidA ▸ hm, hsent⟩
  case bound =>
    intro s' hs' ctx' idB B hB hne hc hc' hacc'
    have hid := hacc.id_eq hdata hcommit hone hc hc' hacc'
    exact hne ((stored_id hs' hB).symm.trans (hid.symm.trans hidA))

-- Two transfers over one channel, and a light client that knows the packet of the first one.
namespace Sample

-- A string of JSON up to its closing quote.
def quoted : List Char → List Char
  | [] => ['"']
  | c :: cs => if c = '"' ∨ c = '\\' then '\\' :: c :: quoted cs else c :: quoted cs

def signed : ℤ → List Char
  | .ofNat n => Decimal.digits n
  | .negSucc n => '-' :: Decimal.digits (n + 1)

def json (data : FungibleTokenPacketData) : List Char :=
  "\x7b\"denom\":\"".toList ++ (quoted data.denom.toList ++
  (",\"amount\":\"".toList ++ (quoted (signed data.amount) ++
  (",\"sender\":\"".toList ++ (quoted data.sender.toList ++
  (",\"receiver\":\"".toList ++ (quoted data.receiver.toList ++
  (",\"memo\":\"".toList ++ (quoted data.memo.toList ++ ['\x7d'])))))))))

def bigEndian (n : UInt64) : Bytes :=
  (List.range 8).map fun i => UInt8.ofNat (n.toNat / 256 ^ (7 - i))

-- Nothing is hashed, so that there is no collision.
def commitments : Commitments where
  getBytes data := (String.ofList (json data)).toUTF8.data.toList
  packetCommitmentKey portID channelID sequence :=
    s!"commitments/ports/{portID}/channels/{channelID}/sequences/{sequence.toNat}".toUTF8.data.toList
  commitPacket timeoutTimestamp data := bigEndian timeoutTimestamp ++ (List.replicate 16 0 ++ data)

theorem quoted_inj : {l l' r r' : List Char} → quoted l ++ r = quoted l' ++ r' → l = l' ∧ r = r'
  | [], [], _, _, h => by simpa [quoted] using h
  | [], c :: cs, _, _, h => by
    simp only [quoted] at h
    grind
  | c :: cs, [], _, _, h => by
    simp only [quoted] at h
    grind
  | c :: cs, c' :: cs', r, r', h => by
    have ht : c = c' ∧ quoted cs ++ r = quoted cs' ++ r' := by
      simp only [quoted] at h
      grind
    obtain ⟨rfl, ht⟩ := ht
    exact (quoted_inj ht).imp_left (congrArg (c :: ·))

theorem minus_notMem {n : ℕ} : '-' ∉ Decimal.digits n :=
  fun h => absurd (Decimal.isDigit_of_mem h) (by decide)

theorem signed_injective : Function.Injective signed
  | .ofNat n, .ofNat m, h => congrArg Int.ofNat (Decimal.digits_injective h)
  | .ofNat n, .negSucc m, h => by
    have hd : Decimal.digits n = '-' :: Decimal.digits (m + 1) := h
    exact absurd (hd ▸ List.mem_cons_self) minus_notMem
  | .negSucc n, .ofNat m, h => by
    have hd : '-' :: Decimal.digits (n + 1) = Decimal.digits m := h
    exact absurd (hd ▸ List.mem_cons_self) minus_notMem
  | .negSucc n, .negSucc m, h => by
    have hd := Decimal.digits_injective (List.tail_eq_of_cons_eq h)
    exact congrArg Int.negSucc (Nat.succ_inj.mp hd)

theorem json_injective : Function.Injective json := by
  intro data data' h
  obtain ⟨hdenom, h⟩ := quoted_inj (List.append_cancel_left h)
  obtain ⟨hamount, h⟩ := quoted_inj (List.append_cancel_left h)
  obtain ⟨hsender, h⟩ := quoted_inj (List.append_cancel_left h)
  obtain ⟨hreceiver, h⟩ := quoted_inj (List.append_cancel_left h)
  obtain ⟨hmemo, _⟩ := quoted_inj (List.append_cancel_left h)
  cases data
  cases data'
  simp only [FungibleTokenPacketData.mk.injEq]
  exact ⟨String.toList_inj.mp hdenom, signed_injective hamount, String.toList_inj.mp hsender,
    String.toList_inj.mp hreceiver, String.toList_inj.mp hmemo⟩

theorem getBytes_injective : Function.Injective commitments.getBytes := by
  intro data data' h
  apply json_injective
  apply String.ofList_injective
  apply String.toByteArray_inj.mp
  exact ByteArray.ext (Array.toList_inj.mp h)

theorem bigEndian_inj {m n : UInt64} (h : bigEndian m = bigEndian n) : m = n := by
  have hb : ∀ i < 8, m.toNat / 256 ^ (7 - i) % 256 = n.toNat / 256 ^ (7 - i) % 256 := by
    intro i hi
    have hi := List.map_inj_left.mp h i (List.mem_range.mpr hi)
    simpa using congrArg UInt8.toNat hi
  have hm := m.toNat_lt
  have hn := n.toNat_lt
  have h0 := hb 0
  have h1 := hb 1
  have h2 := hb 2
  have h3 := hb 3
  have h4 := hb 4
  have h5 := hb 5
  have h6 := hb 6
  have h7 := hb 7
  norm_num at h0 h1 h2 h3 h4 h5 h6 h7
  apply UInt64.toNat_inj.mp
  omega

theorem commitPacket_injective : Function.Injective2 commitments.commitPacket := by
  intro m n data data' h
  obtain ⟨hn, h⟩ := List.append_inj h (by simp [bigEndian])
  exact ⟨bigEndian_inj hn, List.append_cancel_left h⟩

-- The proof of the caller and how it is decoded.
def proofText : String :=
  "\x7b\"client_id\":\"07-tendermint-0\",\"revision_height\":1,\"proof\":\"AQ==\"\x7d"

def unmarshal (bytes : Bytes) : Option UnmarshalledProof :=
  if bytes = proofText.toUTF8.data.toList then
    some {
      clientID       := "07-tendermint-0"
      revisionNumber := 0
      revisionHeight := 1
      height         := 0
      proofBytes     := []
      proof          := "AQ=="
    }
  else none

def proving : Keeper :=
  keeper.parsing unmarshal

def alsoRouted : Action :=
  .initiate (block 1) ⟨"bob", "osmo1bob", ⟨"umlcn", 100⟩, "osmosis"⟩

def bothSent : State :=
  proving.next (proving.next genesis routed) alsoRouted

def first : BridgeTransfer where
  id               := 1
  sender           := "alice"
  recipient        := "osmo1alice"
  amount           := some ⟨"umlcn", 100⟩
  sourceChain      := "marketplace"
  destinationChain := "osmosis"
  assetDenom       := "umlcn"
  status           := .pending
  timestamp        := 1

def second : BridgeTransfer :=
  { first with id := 2, sender := "bob", recipient := "osmo1bob" }

def known : Acceptance := fun clientID revisionNumber revisionHeight proof =>
  { entry | clientID = "07-tendermint-0" ∧ revisionNumber = 0 ∧ revisionHeight = 1 ∧ proof = [1] ∧
    entry = (commitments.path packet, commitments.value packet) }

instance {clientID : String} {revisionNumber revisionHeight : UInt64} {proof : Bytes}
    {entry : List Bytes × Bytes} :
    Decidable (entry ∈ known clientID revisionNumber revisionHeight proof) :=
  inferInstanceAs (Decidable (_ ∧ _))

def watching : Context where
  blockHeight   := 2
  blockTime     := 2000000000
  isBonded addr := addr = bob
  lightClients  := {
    route            := fun clientID => clientID = "07-tendermint-0"
    active           := fun _ => true
    verifyMembership := fun clientID revisionNumber revisionHeight proof p =>
      (commitments.path p, commitments.value p) ∈ known clientID revisionNumber revisionHeight proof
  }
  channelAccept _ channelID _ := channelID = "channel-0"

theorem bothSent_reachable : (system proving).Reachable bothSent := by
  have h₁ : (system proving).step genesis routed (proving.next genesis routed) :=
    ⟨⟨by decide, by simp [routed]⟩, Keeper.act_next (by decide +kernel)⟩
  have h₂ : (system proving).step (proving.next genesis routed) alsoRouted bothSent :=
    ⟨⟨by decide, by simp [alsoRouted]⟩, Keeper.act_next (by decide +kernel)⟩
  have hempty : genesis.Empty proving := { genesis_empty with }
  exact .step (.step (.init hempty) trivial h₁) trivial h₂

theorem known_one {clientID : String} {revisionNumber revisionHeight : UInt64} {bytes : Bytes} :
    (known clientID revisionNumber revisionHeight bytes).Subsingleton := by
  rintro _ ⟨_, _, _, _, rfl⟩ _ ⟨_, _, _, _, rfl⟩
  rfl

theorem watching_check : watching.lightClients.Check commitments known :=
  fun _ _ _ _ _ h => of_decide_eq_true h

end Sample

-- The proof for the first transfer is not accepted for the second one.
theorem sample_proofs_bound :
    Sample.proving.Accepts Sample.watching Sample.bothSent Sample.proofText Sample.first ∧
    ¬Sample.proving.Accepts Sample.watching Sample.bothSent Sample.proofText Sample.second := by
  have hbound := proofs_bound Sample.keeper Sample.unmarshal Sample.commitments Sample.known
    Sample.getBytes_injective Sample.commitPacket_injective fun _ _ _ _ => Sample.known_one
  obtain ⟨_, hacc⟩ := Result.isOk_iff.mp (by decide +kernel : (Sample.proving.verifyTransferProof
    Sample.watching Sample.bothSent Sample.proofText Sample.first).isOk = true)
  have h := hbound Sample.bothSent Sample.bothSent_reachable Sample.watching 1 Sample.first
    Sample.proofText (by decide +kernel) hacc
  exact ⟨hacc, h.2 Sample.bothSent Sample.bothSent_reachable Sample.watching 2 Sample.second
    (by decide +kernel) (by decide) Sample.watching_check Sample.watching_check⟩

end Crosschain
