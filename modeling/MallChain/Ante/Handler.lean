import MallChain.Lib.ByteString
import MallChain.Lib.KVStore
import MallChain.Sdk.Bank

namespace Ante

open Sdk ByteString

abbrev Store := KVStore ByteString ByteString

-- A transaction with its signers, as far as they can be resolved, and its encoded bytes, as far as it
-- can be encoded.
structure Tx where
  signers : Option (List AccAddress)
  encoded : Option ByteString
  deriving DecidableEq

-- The functions of other packages that the handler calls.
structure App where
  sha256        : ByteString → ByteString
  addressString : AccAddress → String

def perAddrPerBlockLimit : UInt64 := 10

def defaultReplayRetentionBlocks : UInt64 := 200

def replayPrefix : ByteString :=
  ofString "ante:replay:"

def App.sender (app : App) (tx : Tx) : String :=
  let sender :=
    match tx.signers with
    | some (signer :: _) => app.addressString signer
    | _ => ""
  if sender = "" then "unknown" else sender

def rlKey (sender : String) : ByteString :=
  ofString "ante:rl:sender:" ++ ofString sender ++ ofString ":height"

def App.replayKey (app : App) (b : ByteString) : ByteString :=
  replayPrefix ++ app.sha256 b

-- The height and the count of a stored counter.
def readCounter : Option ByteString → UInt64 × UInt64
  | some val => if val.length = 16 then (uint64 (val.take 8), uint64 (val.drop 8)) else (0, 0)
  | none => (0, 0)

def writeCounter (storedHeight count : UInt64) : ByteString :=
  putUint64 storedHeight ++ putUint64 count

def pruneBefore (curH : UInt64) : UInt64 :=
  if defaultReplayRetentionBlocks < curH then curH - defaultReplayRetentionBlocks else 0

-- The replay keys that are older than the height.
def toDelete (pruneBefore : UInt64) (store : Store) : List ByteString :=
  (store.entries.filter fun e =>
    replayPrefix.isPrefixOf e.1 && e.2.length = 8 && uint64 e.2 < pruneBefore).map (·.1)

def deleteAll (keys : List ByteString) (store : Store) : Store :=
  keys.foldl .remove store

def App.innerAnte (app : App) (curH : UInt64) (tx : Tx) (simulate : Bool) (store : Store) :
    Result Store := do
  if simulate then return store
  let sender := app.sender tx
  let (storedHeight, count) := readCounter (store.get (rlKey sender))
  let (storedHeight, count) :=
    if storedHeight < curH then (curH, 1) else (storedHeight, count + 1)
  failIf (count > perAddrPerBlockLimit) (.error s!"rate limit exceeded for sender {sender}")
  let store := store.set (rlKey sender) (writeCounter storedHeight count)
  match tx.encoded with
  | none => return store
  | some b =>
    let replayKey := app.replayKey b
    failIf ((store.get replayKey).isSome = true) (.error "replayed transaction")
    let store := deleteAll (toDelete (pruneBefore curH) store) store
    return store.set replayKey (putUint64 curH)

-- The helpers of the unit tests.

def anteRLCountKey : ByteString :=
  ofString "ante:rl:count"

def App.replayDecision (app : App) (txBytes : ByteString) (store : Store) : ByteString × Bool :=
  let replayKey := replayPrefix ++ app.sha256 txBytes
  (replayKey, (store.get replayKey).isSome)

def pruneReplayKeys (store : Store) (pruneBefore : UInt64) : Store :=
  if pruneBefore = 0 then store else deleteAll (toDelete pruneBefore store) store

-- Whether the transaction is allowed, the new count and the store.
def updateRateLimitCounter (store : Store) (curH perBlockLimit : UInt64) : Bool × UInt64 × Store :=
  let (storedHeight, count) := readCounter (store.get anteRLCountKey)
  let (storedHeight, count) :=
    if storedHeight < curH then (curH, 1) else (storedHeight, count + 1)
  if count > perBlockLimit then (false, count, store)
  else (true, count, store.set anteRLCountKey (writeCounter storedHeight count))

def markReplaySeen (store : Store) (replayKey : ByteString) (curH : UInt64) : Store :=
  store.set replayKey (putUint64 curH)

-- The helpers in the order of the handler they stand for.
def App.composed (app : App) (curH : UInt64) (tx : Tx) (store : Store) : Result Store := do
  let (allowed, _, store) := updateRateLimitCounter store curH perAddrPerBlockLimit
  failIf (allowed = false) (.error s!"rate limit exceeded for sender {app.sender tx}")
  match tx.encoded with
  | none => return store
  | some b =>
    let (replayKey, alreadySeen) := app.replayDecision b store
    failIf (alreadySeen = true) (.error "replayed transaction")
    return markReplaySeen (pruneReplayKeys store (pruneBefore curH)) replayKey curH

variable {app : App} {curH n : UInt64} {tx : Tx} {store store' : Store} {k key : ByteString}
variable {sender sender' : String} {b : ByteString}

theorem rlKey_injective : Function.Injective rlKey := by
  intro sender sender' h
  exact ofString_injective <| List.append_cancel_left <| List.append_cancel_right h

theorem not_replay_rlKey : ¬replayPrefix <+: rlKey sender := by
  intro h
  have htake : (rlKey sender).take 12 = (ofString "ante:rl:sender:").take 12 := by
    rw [rlKey, List.append_assoc, List.take_append_of_le_length (by decide)]
  have heq : replayPrefix = (ofString "ante:rl:sender:").take 12 := by
    rw [← htake]
    exact List.prefix_iff_eq_take.mp h
  exact absurd heq (by decide)

theorem not_replay_countKey : ¬replayPrefix <+: anteRLCountKey := by
  decide

theorem App.replayKey_prefix : replayPrefix <+: app.replayKey b :=
  List.prefix_append ..

@[simp]
theorem readCounter_writeCounter (storedHeight count : UInt64) :
    readCounter (some (writeCounter storedHeight count)) = (storedHeight, count) := by
  have hlen : (writeCounter storedHeight count).length = 16 := by
    simp [writeCounter]
  have hhead : (writeCounter storedHeight count).take 8 = putUint64 storedHeight := by
    rw [writeCounter, List.take_append_of_le_length (by simp), List.take_of_length_le (by simp)]
  have htail : (writeCounter storedHeight count).drop 8 = putUint64 count := by
    rw [writeCounter, List.drop_append_of_le_length (by simp), List.drop_of_length_le (by simp),
      List.nil_append]
  rw [readCounter, if_pos hlen, hhead, htail, uint64_putUint64, uint64_putUint64]

theorem get_deleteAll {keys : List ByteString} :
    (deleteAll keys store).get k = if k ∈ keys then none else store.get k := by
  rw [deleteAll]
  induction keys generalizing store with
  | nil => simp
  | cons key keys ih =>
    rw [List.foldl_cons, ih, KVStore.get_remove]
    by_cases hk : k = key <;> simp [hk]

theorem mem_toDelete : k ∈ toDelete n store ↔
    ∃ v, store.get k = some v ∧ replayPrefix <+: k ∧ v.length = 8 ∧ uint64 v < n := by
  simp only [toDelete, List.mem_map, List.mem_filter, Bool.and_eq_true, decide_eq_true_eq,
    List.isPrefixOf_iff_prefix, Prod.exists, KVStore.mem_entries_iff, and_assoc]
  constructor
  · rintro ⟨_, v, hget, hp, hlen, hlt, rfl⟩
    exact ⟨v, hget, hp, hlen, hlt⟩
  · rintro ⟨v, hget, hp, hlen, hlt⟩
    exact ⟨k, v, hget, hp, hlen, hlt, rfl⟩

-- What is pruned is older than the retention allows.
theorem of_lt_pruneBefore (h : n < pruneBefore curH) : n.toNat + 200 < curH.toNat := by
  rw [pruneBefore] at h
  split at h
  case isTrue hlt =>
    have hsub := UInt64.toNat_sub_of_le _ _ hlt.le
    have hn := UInt64.lt_iff_toNat_lt.mp h
    have h₂ : defaultReplayRetentionBlocks.toNat = 200 := by decide
    omega
  case isFalse => exact absurd h (UInt64.not_lt_zero)

-- Pruning only reaches the replay keys.
theorem get_pruned_of_not_replay (hk : ¬replayPrefix <+: k) :
    (deleteAll (toDelete n store) store).get k = store.get k := by
  rw [get_deleteAll, if_neg]
  intro hmem
  obtain ⟨_, _, hp, _⟩ := mem_toDelete.mp hmem
  exact hk hp

end Ante
