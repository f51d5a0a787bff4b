import MallChain.Governance.System

namespace Governance

open Sdk

variable {α σ : Type}

structure PageRequest where
  offset : UInt64
  limit  : UInt64

-- The bounds of a page. Without a request, and for the limit 0, it has no end of its own.
def paginationBounds (p : Option PageRequest) (total : UInt64) : UInt64 × UInt64 :=
  match p with
  | none => (0, total)
  | some p =>
    let start := if total < p.offset then total else p.offset
    if p.limit = 0 then
      (start, total)
    else
      let stop := start + p.limit
      (start, if total < stop then total else stop)

-- `xs[start:stop]`
def slice (xs : List α) (start stop : UInt64) : Result (List α) :=
  if start ≤ stop ∧ stop.toNat ≤ xs.length then .ok ((xs.take stop.toNat).drop start.toNat)
  else .error (.panic "slice bounds out of range")

structure Page (α : Type) where
  items : List α
  total : UInt64

def paginate (pagination : Option PageRequest) (xs : List α) : Result (Page α) := do
  let total := UInt64.ofNat xs.length
  let (start, stop) := paginationBounds pagination total
  return { items := ← slice xs start stop, total }

structure QueryProposalsRequest where
  proposalStatus : ProposalStatus := .unspecified
  voter          : String := ""
  depositor      : String := ""
  pagination     : Option PageRequest := none

structure QueryByProposalRequest where
  proposalId : UInt64
  pagination : Option PageRequest := none

def errInvalidRequest : Failure :=
  .error "invalid request"

namespace State

-- The proposals with the status, the voter and the depositor that are asked for.
def filteredProposals (s : State σ) (req : QueryProposalsRequest) : List Proposal :=
  s.getProposals.filter fun proposal =>
    (req.proposalStatus = .unspecified ∨ proposal.status = req.proposalStatus) ∧
    (req.voter = "" ∨ (s.votes.get (join proposal.id req.voter)).isSome = true) ∧
    (req.depositor = "" ∨ (s.deposits.get (join proposal.id req.depositor)).isSome = true)

def queryProposals (s : State σ) (req : Option QueryProposalsRequest) : Result (Page Proposal) := do
  let req ← orFail req errInvalidRequest
  paginate req.pagination (s.filteredProposals req)

def queryDeposits (s : State σ) (req : Option QueryByProposalRequest) : Result (Page Deposit) := do
  let req ← orFail req errInvalidRequest
  paginate req.pagination (s.getDeposits req.proposalId)

def queryVotes (s : State σ) (req : Option QueryByProposalRequest) : Result (Page Vote) := do
  let req ← orFail req errInvalidRequest
  paginate req.pagination (s.getVotes req.proposalId)

end State

-- The bounds of a page lie in the list, one after the other.
def ValidBounds (bounds : UInt64 × UInt64) (total : UInt64) : Prop :=
  bounds.1 ≤ bounds.2 ∧ bounds.2 ≤ total

instance validBoundsDecidable (bounds : UInt64 × UInt64) (total : UInt64) :
    Decidable (ValidBounds bounds total) :=
  inferInstanceAs (Decidable (_ ∧ _))

-- The end of the page, before it is clipped, is a number of 64 bits.
def PageFits (total : UInt64) : Option PageRequest → Prop
  | none => True
  | some p => p.limit = 0 ∨ min p.offset.toNat total.toNat + p.limit.toNat < 2 ^ 64

section Bounds

variable {p : Option PageRequest} {total a b : UInt64} {xs : List α}

-- The smaller of two numbers, as it is written in the source.
theorem toNat_clip : (if total < a then total else a).toNat = min a.toNat total.toNat := by
  split_ifs with h
  · rw [UInt64.lt_iff_toNat_lt] at h
    omega
  · rw [UInt64.lt_iff_toNat_lt] at h
    omega

theorem limit_pos (h : a ≠ 0) : 0 < a.toNat := by
  rw [Nat.pos_iff_ne_zero]
  exact fun he => h (UInt64.toNat_inj.mp he)

-- A sum that wraps around is smaller than its terms, and the end comes before the start.
theorem validBounds_iff : ValidBounds (paginationBounds p total) total ↔ PageFits total p := by
  cases p with
  | none => simp [ValidBounds, paginationBounds, PageFits]
  | some p =>
    simp only [ValidBounds, paginationBounds, PageFits]
    by_cases hz : p.limit = 0
    · simp only [hz, if_true, true_or, iff_true, UInt64.le_iff_toNat_le, toNat_clip]
      exact ⟨min_le_right .., le_rfl⟩
    · have hpos := limit_pos hz
      have hlimit := p.limit.toNat_lt
      have htotal := total.toNat_lt
      simp only [hz, if_false, false_or, UInt64.le_iff_toNat_le, toNat_clip, UInt64.toNat_add]
      omega

theorem slice_ok_iff {start stop : UInt64} : (∃ ys, slice xs start stop = .ok ys) ↔
    start ≤ stop ∧ stop.toNat ≤ xs.length := by
  rw [slice]
  split_ifs with h
  · exact iff_of_true ⟨_, rfl⟩ h
  · simpa using h

theorem of_slice {start stop : UInt64} {ys : List α} (h : slice xs start stop = .ok ys) :
    ys = (xs.take stop.toNat).drop start.toNat := by
  rw [slice] at h
  split_ifs at h
  cases h
  rfl

-- The length of a list in memory is a number that is not negative.
theorem toNat_length (h : xs.length < 2 ^ 63) : (UInt64.ofNat xs.length).toNat = xs.length := by
  rw [UInt64.toNat_ofNat']
  omega

theorem paginate_ok_iff (h : xs.length < 2 ^ 63) :
    (∃ page, paginate p xs = .ok page) ↔ PageFits (UInt64.ofNat xs.length) p := by
  have hle : ∀ stop : UInt64, stop ≤ UInt64.ofNat xs.length ↔ stop.toNat ≤ xs.length := by
    intro stop
    rw [UInt64.le_iff_toNat_le, toNat_length h]
  rw [← validBounds_iff, ValidBounds, hle, ← slice_ok_iff]
  simp only [paginate, Result.bind_eq_ok, Result.pure_eq_ok]
  constructor
  · rintro ⟨_, items, hs, -⟩
    exact ⟨items, hs⟩
  · rintro ⟨items, hs⟩
    exact ⟨_, items, hs, rfl⟩

end Bounds

-- The pages of a list, from its start on.
def pages (xs : List α) (n : UInt64) : ℕ → Result (List α)
  | 0 => .ok []
  | m + 1 => do
    let before ← pages xs n m
    let page ← paginate (some ⟨UInt64.ofNat (m * n.toNat), n⟩) xs
    return before ++ page.items

section Pages

variable {xs : List α} {n : UInt64} {m : ℕ}

theorem drop_take_clip {a k : ℕ} :
    (xs.take (min (min a xs.length + k) xs.length)).drop (min a xs.length) = (xs.drop a).take k := by
  rcases le_total a xs.length with h | h
  · rw [min_eq_left h, List.drop_take]
    rcases le_total (a + k) xs.length with h' | h'
    · rw [min_eq_left h', Nat.add_sub_cancel_left]
    · rw [min_eq_right h', List.take_of_length_le (by simp), List.take_of_length_le (by simp; omega)]
  · rw [min_eq_right h, List.drop_eq_nil_of_le h, List.take_nil]
    exact List.drop_eq_nil_of_le (by simp)

theorem pageFits_iff (hn : n ≠ 0) (h : xs.length < 2 ^ 63) (hm : m * n.toNat < 2 ^ 64) :
    PageFits (.ofNat xs.length) (some ⟨UInt64.ofNat (m * n.toNat), n⟩) ↔
      min (m * n.toNat) xs.length + n.toNat < 2 ^ 64 := by
  rw [PageFits, or_iff_right hn, toNat_length h, UInt64.toNat_ofNat', Nat.mod_eq_of_lt hm]

theorem paginate_page (hn : n ≠ 0) (h : xs.length < 2 ^ 63) (hm : m * n.toNat < 2 ^ 64)
    (hfits : min (m * n.toNat) xs.length + n.toNat < 2 ^ 64) :
    paginate (some ⟨UInt64.ofNat (m * n.toNat), n⟩) xs =
      .ok ⟨(xs.drop (m * n.toNat)).take n.toNat, .ofNat xs.length⟩ := by
  obtain ⟨page, hp⟩ := (paginate_ok_iff h).mpr ((pageFits_iff hn h hm).mpr hfits)
  rw [hp]
  simp only [paginate, paginationBounds, hn, if_false, Result.bind_eq_ok, Result.pure_eq_ok] at hp
  obtain ⟨items, hs, rfl⟩ := hp
  rw [of_slice hs]
  simp only [toNat_clip, UInt64.toNat_add, toNat_length h, UInt64.toNat_ofNat',
    Nat.mod_eq_of_lt hm, Nat.mod_eq_of_lt hfits, drop_take_clip]

theorem pages_ok (hn : n ≠ 0) (h : xs.length < 2 ^ 63) (hm : ∀ i < m, i * n.toNat < 2 ^ 64)
    (hfits : ∀ i < m, min (i * n.toNat) xs.length + n.toNat < 2 ^ 64) :
    pages xs n m = .ok (xs.take (m * n.toNat)) := by
  induction m with
  | zero => simp [pages]
  | succ m ih =>
    have ih := ih (fun i hi => hm i (by omega)) fun i hi => hfits i (by omega)
    rw [pages, ih, Result.ok_bind, paginate_page hn h (hm m (by omega)) (hfits m (by omega)),
      Result.ok_bind, Nat.succ_mul, List.take_add]
    rfl

-- Every page was answered.
theorem of_pages {ys : List α} (h : pages xs n m = .ok ys) :
    ∀ i < m, ∃ page, paginate (some ⟨UInt64.ofNat (i * n.toNat), n⟩) xs = .ok page := by
  induction m generalizing ys with
  | zero => simp
  | succ m ih =>
    simp only [pages, Result.bind_eq_ok, Result.pure_eq_ok] at h
    obtain ⟨before, hb, page, hp, -⟩ := h
    intro i hi
    rcases Nat.lt_succ_iff_lt_or_eq.mp hi with hi | rfl
    · exact ih hb i hi
    · exact ⟨page, hp⟩

-- The pages are those of the whole list as long as none of them wraps around. That can only happen
-- to a page that starts behind the list.
theorem pages_iff (hn : n ≠ 0) (h : xs.length < 2 ^ 63) (hm : ∀ i < m, i * n.toNat < 2 ^ 64)
    (hall : xs.length ≤ m * n.toNat) : pages xs n m = .ok xs ↔
      ((∀ i < m, i * n.toNat < xs.length) ∨ xs.length + n.toNat < 2 ^ 64) := by
  have hlimit := n.toNat_lt
  constructor
  · intro hp
    by_contra hne
    simp only [not_or, not_forall, not_lt, exists_prop] at hne
    obtain ⟨⟨i, hi, hlen⟩, hwrap⟩ := hne
    have hfits := (paginate_ok_iff h).mp (of_pages hp i hi)
    rw [pageFits_iff hn h (hm i hi), min_eq_right hlen] at hfits
    omega
  · intro hc
    rw [pages_ok hn h hm, List.take_of_length_le hall]
    intro i hi
    rcases hc with hin | hfits
    · have hlt := hin i hi
      rcases Nat.eq_zero_or_pos i with rfl | hpos
      · rw [zero_mul, Nat.zero_min, zero_add]
        exact hlimit
      · have hle : n.toNat ≤ i * n.toNat := Nat.le_mul_of_pos_left _ hpos
        omega
    · have hle := min_le_right (i * n.toNat) xs.length
      omega

end Pages

-- The bounds are valid, the queries are answered and the pages make up the whole list exactly when
-- no end of a page wraps around.
theorem pagination_iff (α σ : Type) :
    (∀ (p : Option PageRequest) (total : UInt64),
      ValidBounds (paginationBounds p total) total ↔ PageFits total p) ∧
    (∀ (s : State σ) (req : QueryProposalsRequest), (s.filteredProposals req).length < 2 ^ 63 →
      ((∃ page, s.queryProposals (some req) = .ok page) ↔
        PageFits (.ofNat (s.filteredProposals req).length) req.pagination)) ∧
    (∀ (s : State σ) (req : QueryByProposalRequest), (s.getDeposits req.proposalId).length < 2 ^ 63 →
      ((∃ page, s.queryDeposits (some req) = .ok page) ↔
        PageFits (.ofNat (s.getDeposits req.proposalId).length) req.pagination)) ∧
    (∀ (s : State σ) (req : QueryByProposalRequest), (s.getVotes req.proposalId).length < 2 ^ 63 →
      ((∃ page, s.queryVotes (some req) = .ok page) ↔
        PageFits (.ofNat (s.getVotes req.proposalId).length) req.pagination)) ∧
    (∀ (xs : List α) (n : UInt64) (m : ℕ), n ≠ 0 → xs.length < 2 ^ 63 →
      (∀ i < m, i * n.toNat < 2 ^ 64) → xs.length ≤ m * n.toNat →
      (pages xs n m = .ok xs ↔
        (∀ i < m, i * n.toNat < xs.length) ∨ xs.length + n.toNat < 2 ^ 64)) :=
  ⟨fun _ _ => validBounds_iff, fun _ _ h => paginate_ok_iff h, fun _ _ h => paginate_ok_iff h,
    fun _ _ h => paginate_ok_iff h, fun _ _ _ hn h hm hall => pages_iff hn h hm hall⟩

namespace Sample

def listed : State Unit :=
  genesis.setProposal {
    id           := 1
    title        := "t"
    summary      := "s"
    metadata     := ""
    proposer     := "mallory"
    messages     := []
    totalDeposit := []
    submitTime   := 0
    expedited    := false
  }

end Sample

-- A page behind the only proposal that is as large as it can be ends before it starts, and the query
-- panics.
theorem page_wraps_around :
    paginationBounds (some ⟨5, 2 ^ 64 - 3⟩) 10 = (5, 2) ∧
    ¬ ValidBounds (paginationBounds (some ⟨5, 2 ^ 64 - 3⟩) 10) 10 ∧
    (Sample.listed.queryProposals (some { pagination := some ⟨1, 2 ^ 64 - 1⟩ })).map (·.total) =
      .error (.panic "slice bounds out of range") ∧
    pages [()] (2 ^ 64 - 1) 2 ≠ .ok [()] := by
  decide +kernel

-- Two pages of two entries are a list of three, and the only proposal is a page of one.
theorem sample_pagination : pages [10, 11, 12] 2 2 = .ok [10, 11, 12] ∧
    (∃ page, Sample.listed.queryProposals (some { pagination := some ⟨0, 1⟩ }) = .ok page) ∧
    ¬ ∃ page, Sample.listed.queryProposals (some { pagination := some ⟨1, 2 ^ 64 - 1⟩ }) =
      .ok page := by
  obtain ⟨-, hproposals, -, -, hpages⟩ := pagination_iff ℕ Unit
  refine ⟨?_, ?_, ?_⟩
  · exact (hpages [10, 11, 12] 2 2 (by decide) (by decide) (by decide) (by decide)).mpr
      (.inl (by decide))
  · exact (hproposals Sample.listed { pagination := some ⟨0, 1⟩ } (by decide)).mpr
      (.inr (by decide +kernel))
  · rw [hproposals Sample.listed { pagination := some ⟨1, 2 ^ 64 - 1⟩ } (by decide)]
    rintro (h | h)
    · revert h
      decide +kernel
    · revert h
      decide +kernel

end Governance
