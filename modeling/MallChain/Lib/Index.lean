import MallChain.Lib.Snapshot

-- Secondary indices: stores that name the keys of another store, under what the values have in common.

namespace KVStore

section Under

variable {α β ν : Type*} [LinearOrder α] [LinearOrder β] {s : KVStore (α ×ₗ β) ν}
variable {a a' : α} {b : β} {v : ν}

-- The entries whose keys begin with `a`, in increasing order of the rest of their keys.
def under (s : KVStore (α ×ₗ β) ν) (a : α) : List (β × ν) :=
  s.entries.filterMap fun e => if (ofLex e.1).1 = a then some ((ofLex e.1).2, e.2) else none

theorem mem_under_iff : (b, v) ∈ s.under a ↔ s.get (toLex (a, b)) = some v := by
  rw [← mem_entries_iff, under, List.mem_filterMap]
  constructor
  · rintro ⟨⟨key, w⟩, hmem, he⟩
    split_ifs at he with hkey
    cases he
    subst hkey
    exact hmem
  · intro hmem
    exact ⟨_, hmem, by simp⟩

theorem under_sorted : (s.under a).Pairwise (·.1 < ·.1) := by
  refine List.Pairwise.filterMap _ (fun e e' hlt p hp p' hp' => ?_) s.sorted
  split_ifs at hp hp' with he he'
  cases hp
  cases hp'
  rcases Prod.Lex.lt_iff.mp hlt with hlt | ⟨_, hlt⟩
  · exact absurd (he.trans he'.symm) hlt.ne
  · exact hlt

-- A walk is determined by what it meets.
theorem under_eq {l : List (β × ν)} (hs : l.Pairwise (·.1 < ·.1))
    (h : ∀ b v, (b, v) ∈ l ↔ s.get (toLex (a, b)) = some v) : s.under a = l := by
  have hirrefl : Std.Irrefl fun e e' : β × ν => e.1 < e'.1 := ⟨fun e => lt_irrefl e.1⟩
  have hasymm : Std.Antisymm fun e e' : β × ν => e.1 < e'.1 :=
    ⟨fun _ _ hlt hgt => absurd hgt hlt.not_gt⟩
  refine List.Pairwise.eq_of_mem_iff under_sorted hs fun e => ?_
  exact mem_under_iff.trans (h e.1 e.2).symm

theorem under_set_ne (h : a' ≠ a) : (s.set (toLex (a, b)) v).under a' = s.under a' := by
  refine under_eq under_sorted fun b' v' => ?_
  have hne : toLex (a', b') ≠ toLex (a, b) := fun he => h (congrArg (fun p => (ofLex p).1) he)
  rw [mem_under_iff, get_set_ne hne]

-- A key that lies above the others of its kind is met last.
theorem under_set_last (h : ∀ e ∈ s.under a, e.1 < b) :
    (s.set (toLex (a, b)) v).under a = s.under a ++ [(b, v)] := by
  refine under_eq (List.pairwise_append.mpr ⟨under_sorted, List.pairwise_singleton .., ?_⟩) ?_
  · intro e he e' he'
    rw [List.mem_singleton.mp he']
    exact h e he
  · intro b' v'
    rw [List.mem_append, mem_under_iff, List.mem_singleton, get_set]
    by_cases hb : b' = b
    case pos =>
      subst hb
      have hnone : s.get (toLex (a, b')) ≠ some v' := fun hget =>
        lt_irrefl b' (h (b', v') (mem_under_iff.mpr hget))
      simp [hnone, eq_comm]
    case neg => simp [hb]

end Under

section Indexed

variable {ι κ ν : Type*} [LinearOrder κ] {f : ν → κ} {g : ν → ι} {k : κ}

-- Of the values with a common key only the last one that is written counts.
theorem get_foldl_last {l : List ν} {m : KVStore κ ι} :
    (l.foldl (fun m v => m.set (f v) (g v)) m).get k =
      ((l.filter fun v => f v = k).getLast?.map g).or (m.get k) := by
  induction l using List.reverseRecOn with
  | nil => simp
  | append_singleton l v ih =>
    rw [List.foldl_concat, get_set, ih, List.filter_append]
    by_cases hk : k = f v
    case pos => simp [hk]
    case neg => simp [hk, Ne.symm hk]

-- The index of a list of values.
def indexOf (f : ν → κ) (g : ν → ι) (l : List ν) : KVStore κ ι :=
  l.foldl (fun m v => m.set (f v) (g v)) .empty

variable [LinearOrder ι] {s : KVStore ι ν} {i : ι}

theorem values_sorted (h : s.Keyed g) : s.values.Pairwise fun v w => g v < g w := by
  rw [values, List.pairwise_map]
  refine s.sorted.imp_of_mem fun he he' hlt => ?_
  rw [h _ _ (mem_entries_iff.mp he), h _ _ (mem_entries_iff.mp he')]
  exact hlt

-- The index of all values of a store names the greatest key of each kind.
theorem get_indexOf_values (h : s.Keyed g) : (indexOf f g s.values).get k = some i ↔
    (∃ v, s.get i = some v ∧ f v = k) ∧ ∀ j w, s.get j = some w → f w = k → j ≤ i := by
  have hsorted := (values_sorted h).filter fun v => decide (f v = k)
  have hmem : ∀ v, v ∈ s.values.filter (fun v => decide (f v = k)) ↔
      s.get (g v) = some v ∧ f v = k := by
    intro v
    rw [List.mem_filter, mem_values_iff, decide_eq_true_eq]
    constructor
    · rintro ⟨⟨j, hj⟩, hk⟩
      exact ⟨h j v hj ▸ hj, hk⟩
    · rintro ⟨hj, hk⟩
      exact ⟨⟨_, hj⟩, hk⟩
  rw [indexOf, get_foldl_last, get_empty, Option.or_none]
  generalize s.values.filter (fun v => decide (f v = k)) = l at hsorted hmem
  induction l using List.reverseRecOn with
  | nil =>
    simp only [List.not_mem_nil, false_iff, not_and] at hmem
    simp only [List.getLast?_nil, Option.map_none, reduceCtorEq, false_iff]
    rintro ⟨⟨v, hget, hk⟩, _⟩
    exact hmem v (h i v hget ▸ hget) hk
  | append_singleton l v =>
    have hv := (hmem v).mp (by simp)
    have hmax : ∀ j w, s.get j = some w → f w = k → j ≤ g v := by
      intro j w hget hk
      have hw : w ∈ l ++ [v] := (hmem w).mpr ⟨h j w hget ▸ hget, hk⟩
      rw [← h j w hget]
      rcases List.mem_append.mp hw with hw | hw
      · exact ((List.pairwise_append.mp hsorted).2.2 w hw v (by simp)).le
      · rw [List.mem_singleton.mp hw]
    simp only [List.getLast?_append, List.getLast?_singleton, Option.some_or, Option.map_some,
      Option.some.injEq]
    constructor
    · rintro rfl
      exact ⟨⟨v, hv⟩, hmax⟩
    · rintro ⟨⟨w, hget, hk⟩, hall⟩
      exact le_antisymm (hall _ v hv.1 hv.2) (hmax i w hget hk)

end Indexed

end KVStore
