import MallChain.Lib.KVStore

-- Stores that are saved as the list of their values and restored from it.

namespace KVStore

variable {κ ν : Type*} [LinearOrder κ] {s s' : KVStore κ ν} {key : ν → κ} {k : κ} {v : ν}

-- A store is determined by what it returns.
theorem eq_of_get (h : ∀ k, s.get k = s'.get k) : s = s' := by
  have hirrefl : Std.Irrefl fun e e' : κ × ν => e.1 < e'.1 := ⟨fun e => lt_irrefl e.1⟩
  have hasymm : Std.Antisymm fun e e' : κ × ν => e.1 < e'.1 :=
    ⟨fun _ _ hlt hgt => absurd hgt hlt.not_gt⟩
  have hentries : s.entries = s'.entries := by
    refine List.Pairwise.eq_of_mem_iff s.sorted s'.sorted fun e => ?_
    rw [mem_entries_iff (k := e.1), mem_entries_iff (k := e.1), h]
  cases s
  cases s'
  cases hentries
  rfl

-- Every value knows the key that it is stored under.
def Keyed (key : ν → κ) (s : KVStore κ ν) : Prop :=
  ∀ k v, s.get k = some v → key v = k

theorem Keyed.empty : (empty : KVStore κ ν).Keyed key := by
  intro k v hget
  simp at hget

theorem Keyed.set (h : s.Keyed key) (hv : key v = k) : (s.set k v).Keyed key := by
  intro k' v' hget
  rw [get_set] at hget
  split at hget
  case isTrue hk =>
    cases hget
    exact hv.trans hk.symm
  case isFalse => exact h k' v' hget

-- The store in which the values of a list are written one after the other.
def ofValues (key : ν → κ) (l : List ν) : KVStore κ ν :=
  l.foldl (fun m v => m.set (key v) v) .empty

theorem keyed_foldl {l : List ν} (h : s.Keyed key) :
    (l.foldl (fun m v => m.set (key v) v) s).Keyed key := by
  induction l generalizing s with
  | nil => exact h
  | cons v l ih => exact ih (h.set rfl)

theorem keyed_ofValues {l : List ν} : (ofValues key l).Keyed key :=
  keyed_foldl .empty

theorem mem_of_get_foldl {l : List ν}
    (h : (l.foldl (fun m v => m.set (key v) v) s).get k = some v) :
    v ∈ l ∨ s.get k = some v := by
  induction l generalizing s with
  | nil => exact .inr h
  | cons v' l ih =>
    rcases ih h with hmem | hget
    · exact .inl (List.mem_cons_of_mem _ hmem)
    · rw [get_set] at hget
      split at hget
      · cases hget
        exact .inl (List.mem_cons_self ..)
      · exact .inr hget

theorem mem_of_get_ofValues {l : List ν} (h : (ofValues key l).get k = some v) :
    v ∈ l ∧ key v = k :=
  ⟨(mem_of_get_foldl h).resolve_right (by simp), keyed_ofValues k v h⟩

theorem ofValues_values (h : s.Keyed key) : ofValues key s.values = s :=
  eq_of_get fun _ => get_restored h

theorem get_foldl_ne_none {l : List ν} (h : v ∈ l ∨ s.get (key v) ≠ none) :
    (l.foldl (fun m v => m.set (key v) v) s).get (key v) ≠ none := by
  induction l generalizing s with
  | nil => exact h.resolve_left List.not_mem_nil
  | cons v' l ih =>
    refine ih ?_
    by_cases hk : key v = key v'
    case pos => exact .inr (by simp [hk])
    case neg =>
      rw [get_set_ne hk]
      rcases h with hmem | hget
      · exact .inl ((List.mem_cons.mp hmem).resolve_left fun he => hk (congrArg key he))
      · exact .inr hget

-- Where some values name a common key `t` in place of their own, the others are restored.
theorem get_ofValues_of_tagged {t : κ}
    (h : ∀ k v, s.get k = some v → key v = k ∨ key v = t) (hk : k ≠ t) :
    (ofValues key s.values).get k = (s.get k).filter fun v => key v = k := by
  have hown : ∀ v, (ofValues key s.values).get k = some v → s.get k = some v ∧ key v = k := by
    intro v hget
    obtain ⟨hmem, hkey⟩ := mem_of_get_ofValues hget
    obtain ⟨k', hk'⟩ := mem_values_iff.mp hmem
    rcases h k' v hk' with he | he
    · exact ⟨(he.symm.trans hkey) ▸ hk', hkey⟩
    · exact absurd (hkey.symm.trans he) hk
  cases hget : s.get k with
  | none =>
    refine Option.eq_none_iff_forall_not_mem.mpr fun v hv => ?_
    rw [(hown v hv).1] at hget
    cases hget
  | some v =>
    by_cases hkey : key v = k
    case pos =>
      have hne : (ofValues key s.values).get (key v) ≠ none :=
        get_foldl_ne_none (.inl (mem_values_iff.mpr ⟨k, hget⟩))
      obtain ⟨v', hv'⟩ := Option.ne_none_iff_exists'.mp (hkey ▸ hne)
      cases hget.symm.trans (hown v' hv').1
      rw [hv', Option.filter_some, if_pos (by simpa using hkey)]
    case neg =>
      rw [Option.filter_some, if_neg (by simpa using hkey)]
      refine Option.eq_none_iff_forall_not_mem.mpr fun v' hv' => hkey ?_
      obtain ⟨hv, hkey'⟩ := hown v' hv'
      cases hget.symm.trans hv
      exact hkey'

end KVStore
