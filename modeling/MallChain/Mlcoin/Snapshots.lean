import MallChain.Lib.Window
import MallChain.Mlcoin.EndBlock

namespace Mlcoin

open Sdk

-- The latest snapshot first. A limit of zero is none.
def Keeper.getTreasurySnapshots (limit : UInt64) (s : State) : List TreasurySnapshot :=
  let snapshots := s.treasurySnapshots.values.reverse
  if 0 < limit ∧ limit.toNat < snapshots.length then snapshots.take limit.toNat else snapshots

section History

variable (calls : List TreasurySnapshot)

-- The state after some snapshots were stored, one after the other.
def Keeper.storeTreasurySnapshots (s : State) : State :=
  calls.foldl (fun s snapshot => storeTreasurySnapshot snapshot s) s

-- The snapshots as if none was ever pruned.
def everStored : KVStore ℤ TreasurySnapshot :=
  calls.foldl (fun m snapshot => m.set snapshot.blockHeight snapshot) .empty

def heights : Finset ℤ :=
  (calls.map (·.blockHeight)).toFinset

def lastStored (height : ℤ) : Option TreasurySnapshot :=
  calls.reverse.find? (·.blockHeight = height)

end History

-- The snapshots in the store, from the greatest height down.
structure NewestFirst (s : State) (snapshots : List TreasurySnapshot) : Prop where
  sorted : snapshots.Pairwise fun t t' => t'.blockHeight < t.blockHeight
  stored : ∀ t, t ∈ snapshots ↔ s.treasurySnapshots.get t.blockHeight = some t

variable {calls : List TreasurySnapshot} {snapshot : TreasurySnapshot} {s : State} {height : ℤ}

theorem get_everStored : (everStored calls).get height = lastStored calls height := by
  rw [everStored, KVStore.get_foldl_set_last, KVStore.get_empty, Option.or_none, lastStored]

theorem mem_heights : height ∈ heights calls ↔ ((everStored calls).get height).isSome = true := by
  rw [get_everStored, lastStored, List.find?_isSome, heights, List.mem_toFinset, List.mem_map]
  simp only [List.mem_reverse, decide_eq_true_eq]

theorem lastStored_height (h : lastStored calls height = some snapshot) :
    snapshot.blockHeight = height := by
  simpa using List.find?_some h

theorem treasurySnapshots_store : (Keeper.storeTreasurySnapshot snapshot s).treasurySnapshots =
    (s.treasurySnapshots.set snapshot.blockHeight snapshot).keepLast maxTreasurySnapshotsToKeep := by
  simp only [Keeper.storeTreasurySnapshot, KVStore.keepLast, List.length_map]

-- Pruning after every write keeps what a single pruning at the end would.
theorem entries_storeTreasurySnapshots {m : KVStore ℤ TreasurySnapshot}
    (h : s.treasurySnapshots.entries = (m.keepLast maxTreasurySnapshotsToKeep).entries) :
    (Keeper.storeTreasurySnapshots calls s).treasurySnapshots.entries =
      ((calls.foldl (fun m snapshot => m.set snapshot.blockHeight snapshot) m).keepLast
        maxTreasurySnapshotsToKeep).entries := by
  induction calls generalizing s m with
  | nil => exact h
  | cons snapshot calls ih =>
    rw [Keeper.storeTreasurySnapshots, List.foldl_cons, List.foldl_cons]
    refine ih ?_
    have hs : s.treasurySnapshots = m.keepLast maxTreasurySnapshotsToKeep := by
      cases hs : s.treasurySnapshots
      cases hm : m.keepLast maxTreasurySnapshotsToKeep
      simp_all
    rw [treasurySnapshots_store, hs]
    exact KVStore.keepLast_set

theorem get_storeTreasurySnapshots (h : s.treasurySnapshots = .empty) :
    (Keeper.storeTreasurySnapshots calls s).treasurySnapshots.get height =
      if ((heights calls).filter (height < ·)).card < maxTreasurySnapshotsToKeep then
        lastStored calls height
      else none := by
  have hempty : s.treasurySnapshots.entries =
      ((KVStore.empty : KVStore ℤ TreasurySnapshot).keepLast maxTreasurySnapshotsToKeep).entries := by
    rw [h]
    rfl
  have hentries : (Keeper.storeTreasurySnapshots calls s).treasurySnapshots.entries = _ :=
    entries_storeTreasurySnapshots hempty
  rw [KVStore.get, hentries, ← KVStore.get, ← everStored, KVStore.get_keepLast, get_everStored,
    KVStore.countP_entries fun _ => mem_heights]

-- Every snapshot is stored at its own height.
def Heighted (s : State) : Prop :=
  ∀ height snapshot, s.treasurySnapshots.get height = some snapshot → snapshot.blockHeight = height

theorem Heighted.newestFirst (h : Heighted s) : NewestFirst s s.treasurySnapshots.values.reverse where
  sorted := by
    rw [List.pairwise_reverse, KVStore.values, List.pairwise_map]
    refine s.treasurySnapshots.sorted.imp_of_mem fun {e e'} he he' hlt => ?_
    rw [h e.1 e.2 (KVStore.mem_entries_iff.mp he), h e'.1 e'.2 (KVStore.mem_entries_iff.mp he')]
    exact hlt
  stored t := by
    rw [List.mem_reverse, KVStore.mem_values_iff]
    constructor
    · rintro ⟨height, hg⟩
      rw [h height t hg]
      exact hg
    · exact fun hg => ⟨_, hg⟩

theorem getTreasurySnapshots_eq (limit : UInt64) :
    Keeper.getTreasurySnapshots limit s = s.treasurySnapshots.values.reverse.take
      (if limit = 0 then s.treasurySnapshots.values.length
      else min limit.toNat s.treasurySnapshots.values.length) := by
  have hpos : 0 < limit ↔ limit ≠ 0 := UInt64.pos_iff_ne_zero
  simp only [Keeper.getTreasurySnapshots, List.length_reverse, hpos]
  by_cases hz : limit = 0
  case pos => simp [hz]
  case neg =>
    simp only [hz, ne_eq, not_false_eq_true, true_and, if_false]
    split_ifs with hlt
    · rw [Nat.min_eq_left hlt.le]
    · rw [Nat.min_eq_right (not_lt.mp hlt), ← List.length_reverse, List.take_length]

-- The store holds the snapshots of the 600 greatest heights, each as it was stored last, and the
-- query returns the latest of them, or all.
theorem treasury_window (s : State) (h : s.treasurySnapshots = .empty)
    (calls : List TreasurySnapshot) :
    (∀ height, (Keeper.storeTreasurySnapshots calls s).treasurySnapshots.get height =
      if ((heights calls).filter (height < ·)).card < maxTreasurySnapshotsToKeep then
        lastStored calls height
      else none) ∧
    ∃ snapshots, NewestFirst (Keeper.storeTreasurySnapshots calls s) snapshots ∧
      ∀ limit, Keeper.getTreasurySnapshots limit (Keeper.storeTreasurySnapshots calls s) =
        snapshots.take (if limit = 0 then snapshots.length else min limit.toNat snapshots.length) := by
  refine ⟨fun height => get_storeTreasurySnapshots h, _, Heighted.newestFirst ?_, fun limit => ?_⟩
  · intro height snapshot hg
    rw [get_storeTreasurySnapshots h] at hg
    split_ifs at hg
    exact lastStored_height hg
  · rw [getTreasurySnapshots_eq, List.length_reverse]

namespace Sample

def snapshotAt (height : ℤ) : TreasurySnapshot where
  blockHeight       := height
  totalSupply       := 670000000
  circulatingSupply := 160000000
  burnedSupply      := 0
  stakedSupply      := 0
  treasuryBalance   := 0
  timestamp         := 0

end Sample

-- A limit of zero returns a snapshot all the same.
theorem zero_limit_returns_all : ¬∀ (s : State), s.treasurySnapshots = .empty →
    ∀ (calls : List TreasurySnapshot), ∃ snapshots,
      NewestFirst (Keeper.storeTreasurySnapshots calls s) snapshots ∧
      ∀ limit, Keeper.getTreasurySnapshots limit (Keeper.storeTreasurySnapshots calls s) =
        snapshots.take (min limit.toNat snapshots.length) := by
  intro h
  obtain ⟨snapshots, _, hall⟩ := h {} rfl [Sample.snapshotAt 5]
  have hzero := hall 0
  rw [UInt64.toNat_zero, Nat.zero_min, List.take_zero] at hzero
  revert hzero
  decide +kernel

theorem sample_treasury_window :
    (Keeper.storeTreasurySnapshots [Sample.snapshotAt 7, Sample.snapshotAt 5] {}).treasurySnapshots.get 5 =
      some (Sample.snapshotAt 5) := by
  rw [(treasury_window {} rfl [Sample.snapshotAt 7, Sample.snapshotAt 5]).1 5]
  decide +kernel

end Mlcoin
