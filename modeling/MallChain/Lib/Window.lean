import MallChain.Lib.KVStore

-- A store that only keeps a number of entries, those with the greatest keys.
namespace KVStore

variable {κ ν : Type*} [LinearOrder κ]

-- The smallest keys are removed one by one.
def keepLast (n : ℕ) (s : KVStore κ ν) : KVStore κ ν :=
  ((s.entries.map (·.1)).take (s.entries.length - n)).foldl remove s

section Rtake

variable {α : Type*} {l : List α} {n : ℕ}

theorem rtake_of_length_le (h : l.length ≤ n) : l.rtake n = l := by
  rw [List.rtake, Nat.sub_eq_zero_of_le h, List.drop_zero]

theorem rtake_cons {e : α} (h : n ≤ l.length) : (e :: l).rtake n = l.rtake n := by
  rw [List.rtake, List.length_cons, Nat.succ_sub h, List.drop_succ_cons, List.rtake]

end Rtake

variable {s : KVStore κ ν} {l : List (κ × ν)} {k : κ} {v : ν} {n : ℕ}

theorem insert_of_lt (h : ∀ e ∈ l, k < e.1) : insert k v l = (k, v) :: l := by
  cases l with
  | nil => rfl
  | cons e l => simp only [insert, h e List.mem_cons_self, if_true]

theorem length_le_insert : l.length ≤ (insert k v l).length := by
  induction l with
  | nil => exact Nat.zero_le _
  | cons e l ih =>
    simp only [insert]
    split_ifs <;> simp only [List.length_cons] <;> omega

theorem entries_foldl_remove (j : ℕ) :
    (((s.entries.map (·.1)).take j).foldl remove s).entries = s.entries.drop j := by
  induction j generalizing s with
  | zero => rfl
  | succ j ih =>
    cases he : s.entries with
    | nil => simp [he]
    | cons e l =>
      have hr : (s.remove e.1).entries = l := by
        simp only [remove, he, erase, if_true]
      rw [List.map_cons, List.take_succ_cons, List.foldl_cons, List.drop_succ_cons, ← hr]
      exact ih

theorem entries_keepLast : (s.keepLast n).entries = s.entries.rtake n :=
  entries_foldl_remove _

-- An entry that is not kept now does not matter later on.
theorem rtake_insert (h : l.Pairwise (·.1 < ·.1)) :
    (insert k v (l.rtake n)).rtake n = (insert k v l).rtake n := by
  induction l with
  | nil => rw [List.rtake_nil]
  | cons e l ih =>
    obtain ⟨hd, ht⟩ := List.pairwise_cons.mp h
    by_cases hn : n ≤ l.length
    case neg => rw [rtake_of_length_le (l := e :: l) (by rw [List.length_cons]; omega)]
    case pos =>
      rw [rtake_cons hn, ih ht]
      simp only [insert]
      split_ifs with hlt heq
      · rw [insert_of_lt fun e' he => hlt.trans (hd e' he), rtake_cons hn, rtake_cons (by simp; omega),
          rtake_cons hn]
      · rw [insert_of_lt fun e' he => heq ▸ hd e' he]
      · rw [rtake_cons (hn.trans length_le_insert)]

theorem keepLast_set : (((s.keepLast n).set k v).keepLast n).entries =
    ((s.set k v).keepLast n).entries := by
  rw [entries_keepLast, entries_keepLast]
  simp only [set, entries_keepLast]
  exact rtake_insert s.sorted

-- A key is kept as long as fewer than `n` keys are greater.
theorem lookup_rtake (h : l.Pairwise (·.1 < ·.1)) :
    lookup k (l.rtake n) = if l.countP (k < ·.1) < n then lookup k l else none := by
  induction l with
  | nil => simp only [List.rtake_nil, lookup, ite_self]
  | cons e l ih =>
    obtain ⟨hd, ht⟩ := List.pairwise_cons.mp h
    by_cases hn : n ≤ l.length
    case neg =>
      rw [rtake_of_length_le (by rw [List.length_cons]; omega)]
      split_ifs with hlt
      · rfl
      · have hle := (e :: l).countP_le_length (p := (k < ·.1))
        have hall : (e :: l).countP (k < ·.1) = (e :: l).length := by
          rw [List.length_cons] at hle ⊢
          omega
        refine lookup_eq_none_of_lt fun e' he => ?_
        simpa using List.countP_eq_length.mp hall e' he
    case pos =>
      rw [rtake_cons hn, ih ht, List.countP_cons]
      rcases lt_trichotomy k e.1 with hlt | rfl | hgt
      · have hnone : lookup k l = none := lookup_eq_none_of_lt fun e' he => hlt.trans (hd e' he)
        simp [lookup, hnone, hlt.ne]
      · have hall : l.countP (e.1 < ·.1) = l.length :=
          List.countP_eq_length.mpr fun e' he => by simpa using hd e' he
        simp [hall, hn.not_gt]
      · simp [lookup, hgt.ne', hgt.not_gt]

theorem get_keepLast :
    (s.keepLast n).get k = if s.entries.countP (k < ·.1) < n then s.get k else none := by
  rw [get, entries_keepLast]
  exact lookup_rtake s.sorted

-- The keys of a store as a set.
theorem countP_entries {keys : Finset κ} {p : κ → Prop} [DecidablePred p]
    (h : ∀ k, k ∈ keys ↔ (s.get k).isSome = true) :
    s.entries.countP (p ·.1) = (keys.filter p).card := by
  have hnodup : (s.entries.map (·.1)).Nodup := by
    rw [List.Nodup, List.pairwise_map]
    exact s.sorted.imp fun hlt => hlt.ne
  have hkeys : keys = (s.entries.map (·.1)).toFinset := by
    ext k
    rw [h, Option.isSome_iff_exists, List.mem_toFinset, List.mem_map]
    constructor
    · rintro ⟨v, hv⟩
      exact ⟨(k, v), mem_entries_iff.mpr hv, rfl⟩
    · rintro ⟨e, he, rfl⟩
      exact ⟨e.2, mem_entries_iff.mp he⟩
  have hfilter : keys.filter p = ((s.entries.map (·.1)).filter (p ·)).toFinset := by
    rw [hkeys, List.toFinset_filter]
    simp only [decide_eq_true_eq]
  rw [hfilter, List.toFinset_card_of_nodup (hnodup.filter _), ← List.countP_eq_length_filter,
    List.countP_map]
  rfl

-- A store to which values are written under their keys has the last value of every key.
theorem get_foldl_set_last {key : ν → κ} (l : List ν) (s : KVStore κ ν) (k : κ) :
    (l.foldl (fun m v => m.set (key v) v) s).get k =
      (l.reverse.find? (key · = k)).or (s.get k) := by
  induction l generalizing s with
  | nil => rfl
  | cons v l ih =>
    rw [List.foldl_cons, ih, get_set, List.reverse_cons, List.find?_append, Option.or_assoc]
    congr 1
    by_cases hk : key v = k
    · simp [hk]
    · simp [hk, Ne.symm hk]

end KVStore
