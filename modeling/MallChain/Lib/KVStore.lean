import Mathlib

-- A finite key-value store that is walked in increasing key order.
structure KVStore (κ ν : Type*) [LinearOrder κ] where
  entries : List (κ × ν)
  sorted  : entries.Pairwise (·.1 < ·.1)

namespace KVStore

-- Stores may be keyed by 64-bit ids.
instance linearOrderUInt64 : LinearOrder UInt64 where
  le_refl _        := UInt64.le_refl _
  le_trans _ _ _   := UInt64.le_trans
  le_antisymm _ _  := UInt64.le_antisymm
  le_total         := UInt64.le_total
  lt_iff_le_not_ge := by simp only [UInt64.lt_iff_toNat_lt, UInt64.le_iff_toNat_le]; omega
  toDecidableLE    := inferInstance
  toDecidableEq    := inferInstance
  toDecidableLT    := inferInstance

variable {κ ν : Type*} [LinearOrder κ]

def lookup (k : κ) : List (κ × ν) → Option ν
  | [] => none
  | (k', v) :: tl => if k = k' then some v else lookup k tl

def insert (k : κ) (v : ν) : List (κ × ν) → List (κ × ν)
  | [] => [(k, v)]
  | (k', v') :: tl =>
    if k < k' then (k, v) :: (k', v') :: tl
    else if k = k' then (k, v) :: tl
    else (k', v') :: insert k v tl

def erase (k : κ) : List (κ × ν) → List (κ × ν)
  | [] => []
  | (k', v) :: tl => if k = k' then tl else (k', v) :: erase k tl

theorem mem_insert {k : κ} {v : ν} {e} : {l : List (κ × ν)} → e ∈ insert k v l → e = (k, v) ∨ e ∈ l
  | [], h => by simp_all [insert]
  | (k', v') :: tl, h => by
    simp only [insert] at h
    split_ifs at h
    · simpa using h
    · simp only [List.mem_cons] at h ⊢
      exact h.imp_right .inr
    · simp only [List.mem_cons] at h ⊢
      rcases h with h | h
      · exact .inr (.inl h)
      · exact (mem_insert h).imp_right .inr

theorem insert_sorted (k : κ) (v : ν) : {l : List (κ × ν)} →
    l.Pairwise (·.1 < ·.1) → (insert k v l).Pairwise (·.1 < ·.1)
  | [], _ => by simp [insert]
  | (k', v') :: tl, h => by
    obtain ⟨hd, ht⟩ := List.pairwise_cons.mp h
    simp only [insert]
    split_ifs with hlt heq
    · refine List.pairwise_cons.mpr ⟨fun e he => ?_, h⟩
      rcases List.mem_cons.mp he with rfl | he
      · exact hlt
      · exact hlt.trans (hd e he)
    · exact List.pairwise_cons.mpr ⟨heq ▸ hd, ht⟩
    · refine List.pairwise_cons.mpr ⟨fun e he => ?_, insert_sorted k v ht⟩
      rcases mem_insert he with rfl | he
      · exact lt_of_le_of_ne (not_lt.mp hlt) (Ne.symm heq)
      · exact hd e he

theorem insert_insert (k : κ) (v v' : ν) : (l : List (κ × ν)) →
    insert k v (insert k v' l) = insert k v l
  | [] => by simp [insert]
  | (k₀, v₀) :: tl => by
    by_cases hlt : k < k₀
    case pos => simp [insert, hlt]
    case neg =>
      by_cases heq : k = k₀
      case pos => simp [insert, heq]
      case neg => simp [insert, hlt, heq, insert_insert k v v' tl]

theorem erase_sublist (k : κ) : (l : List (κ × ν)) → (erase k l).Sublist l
  | [] => List.Sublist.refl _
  | (k', v) :: tl => by
    simp only [erase]
    split_ifs
    · exact List.sublist_cons_self ..
    · exact (erase_sublist k tl).cons_cons _

theorem lookup_eq_none_of_lt {k : κ} : {l : List (κ × ν)} → (∀ e ∈ l, k < e.1) → lookup k l = none
  | [], _ => rfl
  | (k', v) :: tl, h => by
    have hk : k < k' := h (k', v) (List.mem_cons_self ..)
    simp only [lookup, hk.ne, if_false]
    exact lookup_eq_none_of_lt fun e he => h e (List.mem_cons_of_mem _ he)

theorem lookup_insert (k k' : κ) (v : ν) : (l : List (κ × ν)) →
    lookup k' (insert k v l) = if k' = k then some v else lookup k' l
  | [] => by simp [insert, lookup]
  | (k₀, v₀) :: tl => by
    simp only [insert]
    split_ifs with hlt heq hk hk <;> simp_all [lookup]
    · have ih := lookup_insert k k v tl
      simp_all
    · have ih := lookup_insert k k' v tl
      simp_all

theorem lookup_erase {k : κ} (k' : κ) : {l : List (κ × ν)} → l.Pairwise (·.1 < ·.1) →
    lookup k' (erase k l) = if k' = k then none else lookup k' l
  | [], _ => by simp [erase, lookup]
  | (k₀, v₀) :: tl, h => by
    obtain ⟨hd, ht⟩ := List.pairwise_cons.mp h
    simp only [erase]
    split_ifs with heq hk hk
    · subst heq hk
      exact lookup_eq_none_of_lt hd
    · subst heq
      simp [lookup, hk]
    · subst hk
      simp [lookup, heq, lookup_erase k' ht]
    · simp [lookup, lookup_erase k' ht, hk]

variable {M : Type*} [AddCommGroup M]

-- The part of a sum over all entries that comes from one key.
def part (f : κ → ν → M) (k : κ) : Option ν → M
  | none => 0
  | some v => f k v

theorem part_ite {f : κ → ν → M} {p : κ → Prop} [DecidablePred p] {k : κ} {o : Option ν} :
    part (fun k v => if p k then f k v else 0) k o = if p k then part f k o else 0 := by
  cases o <;> simp [part]

def sumOf (f : κ → ν → M) (l : List (κ × ν)) : M :=
  (l.map fun e => f e.1 e.2).sum

theorem sumOf_insert (f : κ → ν → M) (k : κ) (v : ν) : {l : List (κ × ν)} →
    l.Pairwise (·.1 < ·.1) → sumOf f (insert k v l) = sumOf f l - part f k (lookup k l) + f k v
  | [], _ => by simp [insert, sumOf, lookup, part]
  | (k', v') :: tl, h => by
    obtain ⟨hd, ht⟩ := List.pairwise_cons.mp h
    simp only [insert]
    split_ifs with hlt heq
    · have hn : lookup k ((k', v') :: tl) = none := by
        refine lookup_eq_none_of_lt fun e he => ?_
        rcases List.mem_cons.mp he with rfl | he
        · exact hlt
        · exact hlt.trans (hd e he)
      simp only [hn, part, sumOf, List.map_cons, List.sum_cons]
      abel
    · subst heq
      simp only [lookup, part, if_true, sumOf, List.map_cons, List.sum_cons]
      abel
    · have ih := sumOf_insert f k v ht
      simp only [sumOf, lookup, heq, if_false, List.map_cons, List.sum_cons] at ih ⊢
      rw [ih]
      abel

theorem sumOf_erase (f : κ → ν → M) (k : κ) : (l : List (κ × ν)) →
    sumOf f (erase k l) = sumOf f l - part f k (lookup k l)
  | [] => by simp [erase, sumOf, lookup, part]
  | (k', v') :: tl => by
    simp only [erase]
    split_ifs with heq
    · subst heq
      simp [sumOf, lookup, part]
    · have ih := sumOf_erase f k tl
      simp only [sumOf, lookup, heq, if_false, List.map_cons, List.sum_cons] at ih ⊢
      rw [ih]
      abel

theorem sumOf_congr {f g : κ → ν → M} : {l : List (κ × ν)} → l.Pairwise (·.1 < ·.1) →
    (∀ k v, lookup k l = some v → f k v = g k v) → sumOf f l = sumOf g l
  | [], _, _ => rfl
  | (k', v') :: tl, h, hfg => by
    obtain ⟨hd, ht⟩ := List.pairwise_cons.mp h
    have h₁ : f k' v' = g k' v' := hfg k' v' (by simp [lookup])
    have h₂ : sumOf f tl = sumOf g tl := by
      refine sumOf_congr ht fun k v hk => hfg k v ?_
      have hne : k ≠ k' := by
        rintro rfl
        simp [lookup_eq_none_of_lt hd] at hk
      simpa [lookup, hne] using hk
    simp only [sumOf, List.map_cons, List.sum_cons] at h₂ ⊢
    rw [h₁, h₂]

theorem mem_of_lookup {k : κ} {v : ν} : {l : List (κ × ν)} → lookup k l = some v → (k, v) ∈ l
  | (k', v') :: tl, h => by
    simp only [lookup] at h
    split_ifs at h with heq
    · simp_all
    · exact List.mem_cons_of_mem _ (mem_of_lookup h)

theorem lookup_of_mem {k : κ} {v : ν} : {l : List (κ × ν)} → l.Pairwise (·.1 < ·.1) →
    (k, v) ∈ l → lookup k l = some v
  | (k', v') :: tl, h, hm => by
    obtain ⟨hd, ht⟩ := List.pairwise_cons.mp h
    rcases List.mem_cons.mp hm with heq | hm
    · cases heq
      simp [lookup]
    · have hne : k ≠ k' := (hd _ hm).ne'
      simpa [lookup, hne] using lookup_of_mem ht hm

theorem filterMap_lookup {α : Type*} {f : ν → α} {k : κ} : {l : List (κ × ν)} → l.Pairwise (·.1 < ·.1) →
    l.filterMap (fun e => if e.1 = k then some (f e.2) else none) = ((lookup k l).map f).toList
  | [], _ => rfl
  | (k', v) :: tl, h => by
    obtain ⟨hd, ht⟩ := List.pairwise_cons.mp h
    have ih := filterMap_lookup (f := f) (k := k) ht
    by_cases hk : k = k'
    case pos =>
      subst hk
      rw [lookup_eq_none_of_lt hd] at ih
      simpa [lookup] using ih
    case neg => simp [lookup, hk, Ne.symm hk, ih]

-- The operations on stores.

def empty : KVStore κ ν where
  entries := []
  sorted := List.Pairwise.nil

def get (s : KVStore κ ν) (k : κ) : Option ν :=
  lookup k s.entries

def set (s : KVStore κ ν) (k : κ) (v : ν) : KVStore κ ν where
  entries := insert k v s.entries
  sorted := insert_sorted k v s.sorted

def remove (s : KVStore κ ν) (k : κ) : KVStore κ ν where
  entries := erase k s.entries
  sorted := s.sorted.sublist (erase_sublist k s.entries)

def sum (s : KVStore κ ν) (f : κ → ν → M) : M :=
  sumOf f s.entries

variable {s : KVStore κ ν} {f g : κ → ν → M} {k k' : κ} {v : ν}

@[simp]
theorem get_empty : (empty : KVStore κ ν).get k = none :=
  rfl

@[simp]
theorem sum_empty : (empty : KVStore κ ν).sum f = 0 :=
  rfl

theorem get_set : (s.set k v).get k' = if k' = k then some v else s.get k' :=
  lookup_insert k k' v s.entries

@[simp]
theorem get_set_self : (s.set k v).get k = some v := by
  simp [get_set]

theorem get_set_ne (h : k' ≠ k) : (s.set k v).get k' = s.get k' := by
  simp [get_set, h]

-- Only the last value that is written to a key counts.
theorem set_set {v' : ν} : (s.set k v').set k v = s.set k v := by
  simp only [set, insert_insert]

theorem get_remove : (s.remove k).get k' = if k' = k then none else s.get k' :=
  lookup_erase k' s.sorted

@[simp]
theorem get_remove_self : (s.remove k).get k = none := by
  simp [get_remove]

theorem get_remove_ne (h : k' ≠ k) : (s.remove k).get k' = s.get k' := by
  simp [get_remove, h]

theorem mem_entries_iff : (k, v) ∈ s.entries ↔ s.get k = some v :=
  ⟨lookup_of_mem s.sorted, mem_of_lookup⟩

theorem sum_set : (s.set k v).sum f = s.sum f - part f k (s.get k) + f k v :=
  sumOf_insert f k v s.sorted

theorem sum_remove : (s.remove k).sum f = s.sum f - part f k (s.get k) :=
  sumOf_erase f k s.entries

-- Writing a key that is absent only adds to a sum.
theorem sum_set_new (h : s.get k = none) : (s.set k v).sum f = s.sum f + f k v := by
  simp [sum_set, h, part]

-- Overwriting a key replaces its contribution.
theorem sum_set_old {v₀ : ν} (h : s.get k = some v₀) :
    (s.set k v).sum f = s.sum f - f k v₀ + f k v := by
  simp [sum_set, h, part]

theorem sum_congr (h : ∀ k v, s.get k = some v → f k v = g k v) : s.sum f = s.sum g :=
  sumOf_congr s.sorted h

-- Two functions that agree away from one key.
theorem sum_congr_except (h : ∀ k' v, k' ≠ k → s.get k' = some v → f k' v = g k' v) :
    s.sum g = s.sum f - part f k (s.get k) + part g k (s.get k) := by
  have hr : (s.remove k).sum f = (s.remove k).sum g := by
    refine sum_congr fun k' v hg => ?_
    rw [get_remove] at hg
    split_ifs at hg with hk
    exact h k' v hk hg
  rw [sum_remove, sum_remove] at hr
  rw [hr]
  abel

theorem sum_zero (h : ∀ k v, s.get k = some v → f k v = 0) : s.sum f = 0 := by
  have hz : s.sum f = s.sum fun _ _ => (0 : M) := sum_congr h
  rw [hz, sum, sumOf]
  simp

theorem sum_add : (s.sum fun k v => f k v + g k v) = s.sum f + s.sum g :=
  List.sum_map_add

theorem sum_nonneg [LinearOrder M] [IsOrderedAddMonoid M]
    (h : ∀ k v, s.get k = some v → 0 ≤ f k v) : 0 ≤ s.sum f := by
  refine List.sum_nonneg fun x hx => ?_
  obtain ⟨e, he, rfl⟩ := List.mem_map.mp hx
  exact h e.1 e.2 (mem_entries_iff.mp he)

theorem sum_le [LinearOrder M] [IsOrderedAddMonoid M]
    (h : ∀ k v, s.get k = some v → f k v ≤ g k v) : s.sum f ≤ s.sum g := by
  apply List.sum_le_sum
  intro e he
  exact h e.1 e.2 (mem_entries_iff.mp he)

-- The entries of one kind.
theorem sum_filter {p : κ → Bool} :
    ((s.entries.filter fun e => p e.1).map fun e => f e.1 e.2).sum =
      s.sum fun k v => if p k = true then f k v else 0 := by
  rw [sum, sumOf]
  induction s.entries with
  | nil => rfl
  | cons e l ih => cases hp : p e.1 <;> simp [hp, ih]

theorem filterMap_entries {α : Type*} {f : ν → α} :
    s.entries.filterMap (fun e => if e.1 = k then some (f e.2) else none) =
      ((s.get k).map f).toList :=
  filterMap_lookup s.sorted

def values (s : KVStore κ ν) : List ν :=
  s.entries.map (·.2)

theorem length_filter_values {p : ν → Bool} :
    ((s.values.filter p).length : ℤ) = s.sum fun _ v => if p v = true then 1 else 0 := by
  rw [values, sum, sumOf]
  induction s.entries with
  | nil => rfl
  | cons e l ih =>
    rw [List.map_cons, List.map_cons, List.sum_cons, ← ih, List.filter_cons]
    split_ifs <;> push_cast [List.length_cons] <;> omega

theorem mem_values_iff : v ∈ s.values ↔ ∃ k, s.get k = some v := by
  simp only [values, List.mem_map, Prod.exists, mem_entries_iff, exists_eq_right]

section MapValues

variable {ν' : Type*} {h : ν → ν'}

-- The values are replaced one by one.
def mapValues (h : ν → ν') (s : KVStore κ ν) : KVStore κ ν' where
  entries := s.entries.map fun e => (e.1, h e.2)
  sorted  := List.pairwise_map.mpr s.sorted

theorem lookup_map (h : ν → ν') : (l : List (κ × ν)) →
    lookup k (l.map fun e => (e.1, h e.2)) = (lookup k l).map h
  | []            => rfl
  | (k₀, v₀) :: l => by
    simp only [List.map_cons, lookup]
    split_ifs
    case pos => rfl
    case neg => exact lookup_map h l

theorem insert_map : (l : List (κ × ν)) →
    insert k (h v) (l.map fun e => (e.1, h e.2)) = (insert k v l).map fun e => (e.1, h e.2)
  | []            => rfl
  | (k₀, v₀) :: l => by
    simp only [List.map_cons, insert]
    split_ifs
    case pos => rfl
    case pos => rfl
    case neg => exact congrArg _ (insert_map l)

@[simp]
theorem get_mapValues : (s.mapValues h).get k = (s.get k).map h :=
  lookup_map h s.entries

@[simp]
theorem set_mapValues : (s.mapValues h).set k (h v) = (s.set k v).mapValues h := by
  simp only [set, mapValues, insert_map]

@[simp]
theorem values_mapValues : (s.mapValues h).values = s.values.map h := by
  simp only [values, mapValues, List.map_map, Function.comp_def]

end MapValues

-- Values that know their keys may be stored one by one in any order.
theorem get_foldl_set {key : ν → κ} {l : List ν} (h : (l.map key).Nodup) :
    (l.foldl (fun m v => m.set (key v) v) s).get k = some v ↔
      v ∈ l ∧ key v = k ∨ k ∉ l.map key ∧ s.get k = some v := by
  induction l generalizing s with
  | nil => simp
  | cons v₀ l ih =>
    obtain ⟨hnew, hl⟩ := List.nodup_cons.mp h
    rw [List.foldl_cons, ih hl, get_set]
    by_cases hk : k = key v₀
    case pos =>
      subst hk
      have hl : v ∈ l → key v ≠ key v₀ := fun hv heq =>
        hnew (heq ▸ List.mem_map_of_mem hv)
      simp only [if_true, Option.some.injEq, List.mem_cons, List.map_cons, hnew, not_false_eq_true,
        true_and, not_true, false_and, or_false]
      constructor
      · rintro (⟨hv, heq⟩ | rfl)
        · exact ⟨.inr hv, heq⟩
        · exact ⟨.inl rfl, rfl⟩
      · rintro ⟨rfl | hv, heq⟩
        · exact .inr rfl
        · exact absurd heq (hl hv)
    case neg =>
      have hne : key v₀ ≠ k := Ne.symm hk
      simp only [hk, if_false, List.mem_cons, List.map_cons, false_or]
      constructor
      · rintro (⟨hv, heq⟩ | hr)
        · exact .inl ⟨.inr hv, heq⟩
        · exact .inr hr
      · rintro (⟨rfl | hv, heq⟩ | hr)
        · exact absurd heq hne
        · exact .inl ⟨hv, heq⟩
        · exact .inr hr

section Keyed

variable {key : ν → κ} (h : ∀ k v, s.get k = some v → key v = k)

include h

-- A store whose values know their keys is restored from its values.

theorem nodup_values_map : (s.values.map key).Nodup := by
  have hk : s.values.map key = s.entries.map (·.1) := by
    rw [values, List.map_map]
    exact List.map_congr_left fun e he => h e.1 e.2 (mem_entries_iff.mp he)
  rw [hk, List.Nodup, List.pairwise_map]
  exact s.sorted.imp fun hlt => hlt.ne

theorem get_restored : (s.values.foldl (fun m v => m.set (key v) v) empty).get k = s.get k := by
  ext v
  rw [get_foldl_set (nodup_values_map h), mem_values_iff, get_empty]
  constructor
  · rintro (⟨⟨k', hv⟩, heq⟩ | ⟨_, hn⟩)
    · rw [← heq, h k' v hv]
      exact hv
    · cases hn
  · exact fun hv => .inl ⟨⟨k, hv⟩, h k v hv⟩

end Keyed

end KVStore
