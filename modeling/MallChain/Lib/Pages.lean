import Mathlib.Data.List.Sort

-- Lists that are shown page by page, and lists with one element for each key.
namespace Pages

variable {α κ : Type} [DecidableEq κ]

-- `xs.slice(offset, offset + n)` for the page with that number, the first of which is 0.
def page (xs : List α) (n p : ℕ) : List α :=
  (xs.drop (p * n)).take n

-- The first pages, one after the other.
def firsts (xs : List α) (n m : ℕ) : List α :=
  (List.range m).flatMap (page xs n)

-- The first element with each key that was not seen before.
def distinct (key : α → κ) : List κ → List α → List α
  | _, [] => []
  | seen, x :: xs => if key x ∈ seen then distinct key seen xs else x :: distinct key (key x :: seen) xs

variable {xs : List α} {n m : ℕ} {key : α → κ} {seen : List κ} {x : α}

theorem firsts_eq_take : firsts xs n m = xs.take (m * n) := by
  induction m with
  | zero => simp [firsts]
  | succ m ih =>
    rw [firsts] at ih
    rw [firsts, List.range_succ, List.flatMap_append, ih, Nat.succ_mul, List.take_add]
    simp [page]

theorem firsts_eq_self (h : xs.length ≤ m * n) : firsts xs n m = xs := by
  rw [firsts_eq_take, List.take_of_length_le h]

theorem distinct_subset : distinct key seen xs ⊆ xs := by
  induction xs generalizing seen with
  | nil => simp [distinct]
  | cons x xs ih =>
    rw [distinct]
    split_ifs
    case pos => exact List.subset_cons_of_subset x ih
    case neg => exact List.cons_subset_cons x ih

theorem not_seen_of_mem_distinct (h : x ∈ distinct key seen xs) : key x ∉ seen := by
  induction xs generalizing seen with
  | nil => simp [distinct] at h
  | cons y xs ih =>
    rw [distinct] at h
    split_ifs at h with hseen
    case pos => exact ih h
    case neg =>
      cases List.mem_cons.mp h with
      | inl heq => exact heq ▸ hseen
      | inr h => exact fun hmem => ih h (List.mem_cons_of_mem _ hmem)

theorem nodup_distinct : ((distinct key seen xs).map key).Nodup := by
  induction xs generalizing seen with
  | nil => simp [distinct]
  | cons x xs ih =>
    rw [distinct]
    split_ifs
    case pos => exact ih
    case neg =>
      rw [List.map_cons, List.nodup_cons]
      refine ⟨fun hmem => ?_, ih⟩
      obtain ⟨y, hy, hkey⟩ := List.mem_map.mp hmem
      exact not_seen_of_mem_distinct hy (hkey ▸ List.mem_cons_self)

-- No key is lost.
theorem exists_mem_distinct (h : x ∈ xs) (hseen : key x ∉ seen) :
    ∃ y ∈ distinct key seen xs, key y = key x := by
  induction xs generalizing seen with
  | nil => cases h
  | cons y xs ih =>
    rw [distinct]
    cases List.mem_cons.mp h with
    | inl heq => exact ⟨y, by rw [if_neg (heq ▸ hseen)]; exact List.mem_cons_self, heq ▸ rfl⟩
    | inr h =>
      split_ifs with hy
      case pos => exact ih h hseen
      case neg =>
        by_cases hkey : key x = key y
        case pos => exact ⟨y, List.mem_cons_self, hkey.symm⟩
        case neg =>
          have hnew : key x ∉ key y :: seen := by simp [hkey, hseen]
          obtain ⟨z, hz, heq⟩ := ih h hnew
          exact ⟨z, List.mem_cons_of_mem _ hz, heq⟩

-- Where the key tells the elements apart, none of them is lost.
theorem mem_distinct (hinj : ∀ x ∈ xs, ∀ y ∈ xs, key x = key y → x = y) :
    x ∈ distinct key [] xs ↔ x ∈ xs := by
  refine ⟨fun h => distinct_subset h, fun h => ?_⟩
  obtain ⟨y, hy, hkey⟩ := exists_mem_distinct h (List.not_mem_nil (a := key x))
  exact hinj y (distinct_subset hy) x h hkey ▸ hy

end Pages
