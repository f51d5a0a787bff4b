import MallChain.Lib.KVStore

-- What is done to the documents of a collection, each under its key.
namespace KVStore

variable {κ ν : Type*} [LinearOrder κ]

-- A document that is there is replaced.
def update (s : KVStore κ ν) (k : κ) (f : ν → ν) : KVStore κ ν :=
  match s.get k with
  | some v => s.set k (f v)
  | none   => s

-- A key is taken once.
def add (s : KVStore κ ν) (k : κ) (v : ν) : KVStore κ ν :=
  match s.get k with
  | some _ => s
  | none   => s.set k v

def updateMany (s : KVStore κ ν) (p : ν → Bool) (f : ν → ν) : KVStore κ ν where
  entries := s.entries.map fun e => (e.1, if p e.2 then f e.2 else e.2)
  sorted  := List.pairwise_map.mpr s.sorted

def removeMany (s : KVStore κ ν) (p : ν → Bool) : KVStore κ ν where
  entries := s.entries.filter fun e => !p e.2
  sorted  := s.sorted.filter _

def find (s : KVStore κ ν) (p : ν → Bool) : KVStore κ ν where
  entries := s.entries.filter fun e => p e.2
  sorted  := s.sorted.filter _

def any (s : KVStore κ ν) (p : ν → Bool) : Bool :=
  s.entries.any fun e => p e.2

variable {s t : KVStore κ ν} {k k' : κ} {v : ν} {f : ν → ν} {p q : ν → Bool}

theorem ext_entries (h : s.entries = t.entries) : s = t := by
  cases s
  cases t
  cases h
  rfl

theorem get_update : (s.update k f).get k' = if k' = k then (s.get k).map f else s.get k' := by
  rw [update]
  cases hget : s.get k with
  | some v => rw [get_set, Option.map_some]
  | none =>
    rw [Option.map_none]
    split_ifs with heq
    case pos => rw [heq, hget]
    case neg => rfl

@[simp]
theorem get_update_self : (s.update k f).get k = (s.get k).map f := by
  rw [get_update, if_pos rfl]

theorem get_update_ne (h : k' ≠ k) : (s.update k f).get k' = s.get k' := by
  rw [get_update, if_neg h]

theorem get_add : (s.add k v).get k' = if k' = k then some ((s.get k).getD v) else s.get k' := by
  rw [add]
  cases hget : s.get k with
  | none => rw [get_set, Option.getD_none]
  | some v₀ =>
    rw [Option.getD_some]
    split_ifs with heq
    case pos => rw [heq, hget]
    case neg => rfl

theorem get_add_ne (h : k' ≠ k) : (s.add k v).get k' = s.get k' := by
  rw [get_add, if_neg h]

theorem get_add_of_isSome (h : (s.get k').isSome = true) : (s.add k v).get k' = s.get k' := by
  rw [get_add]
  split_ifs with heq
  case neg => rfl
  case pos =>
    subst heq
    obtain ⟨v₀, hget⟩ := Option.isSome_iff_exists.mp h
    rw [hget, Option.getD_some]

theorem lookup_filter : {l : List (κ × ν)} → l.Pairwise (·.1 < ·.1) →
    lookup k (l.filter fun e => !p e.2) = (lookup k l).filter fun v => !p v
  | [], _ => rfl
  | (k₀, v₀) :: tl, h => by
    obtain ⟨hd, ht⟩ := List.pairwise_cons.mp h
    have ih := lookup_filter ht
    by_cases heq : k = k₀
    case neg =>
      rw [List.filter_cons]
      split_ifs <;> simp only [lookup, if_neg heq, ih]
    case pos =>
      subst heq
      have hnone : lookup k tl = none := lookup_eq_none_of_lt hd
      rw [hnone] at ih
      cases hp : p v₀ with
      | false => simp [lookup, Option.filter_some, hp]
      | true  => simpa [lookup, Option.filter_some, hp] using ih

@[simp]
theorem get_updateMany :
    (s.updateMany p f).get k = (s.get k).map fun v => if p v then f v else v :=
  lookup_map (fun v => if p v then f v else v) s.entries

@[simp]
theorem get_removeMany : (s.removeMany p).get k = (s.get k).filter fun v => !p v :=
  lookup_filter s.sorted

@[simp]
theorem get_find : (s.find p).get k = (s.get k).filter p := by
  have h := lookup_filter (k := k) (p := fun v => !p v) s.sorted
  simp only [Bool.not_not] at h
  exact h

theorem filter_insert {l : List (κ × ν)} (hp : p v = true) (h : lookup k l = none) :
    (insert k v l).filter (fun e => !p e.2) = l.filter fun e => !p e.2 := by
  induction l with
  | nil => simp [insert, hp]
  | cons e l ih =>
    rw [lookup] at h
    split_ifs at h with heq
    rw [insert]
    split_ifs
    case pos => simp [hp]
    case neg => simp only [List.filter_cons, ih h]

-- What is put under a new key and is meant is removed again.
theorem removeMany_set (hp : p v = true) (h : s.get k = none) :
    (s.set k v).removeMany p = s.removeMany p :=
  ext_entries (filter_insert hp h)

-- What is removed is not looked for.
theorem find_removeMany (h : ∀ v, q v = true → p v = false) : (s.removeMany p).find q = s.find q := by
  apply ext_entries
  change (s.entries.filter _).filter _ = s.entries.filter _
  rw [List.filter_filter]
  apply List.filter_congr
  intro e _
  cases hq : q e.2 with
  | false => rfl
  | true  => rw [h e.2 hq, Bool.not_false, Bool.and_true]

-- What is changed is not looked for, before and after, or is what it was already.
theorem find_updateMany
    (h : ∀ k v, s.get k = some v → p v = true → q v = false ∧ q (f v) = false ∨ f v = v) :
    (s.updateMany p f).find q = s.find q := by
  apply ext_entries
  change (s.entries.map _).filter _ = s.entries.filter _
  have hmem : ∀ e ∈ s.entries, p e.2 = true → q e.2 = false ∧ q (f e.2) = false ∨ f e.2 = e.2 :=
    fun e he => h e.1 e.2 (mem_entries_iff.mp he)
  revert hmem
  induction s.entries with
  | nil => exact fun _ => rfl
  | cons e l ih =>
    intro hmem
    have htail := ih fun e he => hmem e (List.mem_cons_of_mem _ he)
    rw [List.map_cons, List.filter_cons, List.filter_cons, htail]
    cases hp : p e.2 with
    | false => rfl
    | true  =>
      cases hmem e List.mem_cons_self hp with
      | inl hq => simp [hq]
      | inr hf => simp [hf]

-- Collections that agree on what is not meant.
theorem find_eq_of_removeMany (h : ∀ v, q v = true → p v = false) (hst : s.removeMany p = t.removeMany p) :
    s.find q = t.find q := by
  rw [← find_removeMany h, hst, find_removeMany h]

theorem any_eq_true : s.any p = true ↔ ∃ k v, s.get k = some v ∧ p v = true := by
  rw [any, List.any_eq_true]
  constructor
  · intro h
    obtain ⟨e, he, hp⟩ := h
    exact ⟨e.1, e.2, mem_entries_iff.mp he, hp⟩
  · intro h
    obtain ⟨k, v, hget, hp⟩ := h
    exact ⟨(k, v), mem_entries_iff.mpr hget, hp⟩

theorem any_eq_false : s.any p = false ↔ ∀ k v, s.get k = some v → p v = false := by
  rw [← Bool.not_eq_true, any_eq_true]
  simp

-- Nothing is removed.
theorem removeMany_eq_self : s.removeMany p = s ↔ s.any p = false := by
  rw [any_eq_false]
  constructor
  · intro h k v hget
    have hk := congrArg (·.get k) h
    simp only [get_removeMany, hget, Option.filter_some] at hk
    cases hp : p v with
    | false => rfl
    | true  => simp [hp] at hk
  · intro h
    apply ext_entries
    apply List.filter_eq_self.mpr
    intro e he
    rw [h e.1 e.2 (mem_entries_iff.mp he)]
    rfl

-- Nothing is changed.
theorem updateMany_eq_self [DecidableEq ν] :
    s.updateMany p f = s ↔ (s.any fun v => p v && decide (f v ≠ v)) = false := by
  rw [any_eq_false]
  constructor
  · intro h k v hget
    have hk := congrArg (·.get k) h
    simp only [get_updateMany, hget, Option.map_some, Option.some.injEq] at hk
    cases hp : p v with
    | false => rfl
    | true  =>
      rw [if_pos hp] at hk
      simp [hk]
  · intro h
    apply ext_entries
    change s.entries.map _ = s.entries
    have hself : ∀ e ∈ s.entries, (e.1, if p e.2 = true then f e.2 else e.2) = e := by
      intro e he
      have hf := h e.1 e.2 (mem_entries_iff.mp he)
      split_ifs with hp
      case pos =>
        rw [hp, Bool.true_and, decide_eq_false_iff_not, not_not] at hf
        rw [hf]
      case neg => rfl
    conv => rhs; rw [← List.map_id s.entries]
    exact List.map_congr_left hself

-- Where the same documents are meant in the image of a collection, the first of them has the same key.
theorem head_find_mapValues {ν' : Type*} {h : ν → ν'} {r : ν' → Bool} (hp : ∀ v, r (h v) = p v) :
    ((s.mapValues h).find r).entries.head?.map (·.1) = (s.find p).entries.head?.map (·.1) := by
  simp only [find, mapValues, List.filter_map, List.head?_map, Option.map_map, Function.comp_def, hp]

end KVStore
