import MallChain.Sdk.Math

namespace Sdk

structure Coin where
  denom  : String
  amount : ℤ
  deriving DecidableEq, Repr

abbrev Coins := List Coin

def isDenomChar (c : Char) : Bool :=
  c.isAlphanum || c = '/' || c = ':' || c = '.' || c = '_' || c = '-'

-- `[a-zA-Z][a-zA-Z0-9/:._-]{2,127}`
def validDenom (denom : String) : Bool :=
  match denom.toList with
  | [] => false
  | c :: cs => c.isAlpha && cs.all isDenomChar && 2 ≤ cs.length && cs.length ≤ 127

namespace Coin

-- `sdk.NewCoin`
def new (denom : String) (amount : ℤ) : Result Coin := do
  failIf (validDenom denom = false) (.panic s!"invalid denom: {denom}")
  failIf (amount < 0) (.panic s!"negative coin amount: {amount}")
  return ⟨denom, amount⟩

def add (coin coinB : Coin) : Result Coin := do
  failIf (coin.denom ≠ coinB.denom)
    (.panic s!"invalid coin denominations; {coin.denom}, {coinB.denom}")
  return ⟨coin.denom, ← MathInt.add coin.amount coinB.amount⟩

def sub (coin coinB : Coin) : Result Coin := do
  failIf (coin.denom ≠ coinB.denom)
    (.panic s!"invalid coin denominations; {coin.denom}, {coinB.denom}")
  let amount ← MathInt.sub coin.amount coinB.amount
  failIf (amount < 0) (.panic "negative coin amount")
  return ⟨coin.denom, amount⟩

variable {c c' r : Coin} {denom : String} {amount : ℤ}

theorem of_new (h : new denom amount = .ok r) : r = ⟨denom, amount⟩ ∧ 0 ≤ amount := by
  simp only [new, Result.bind_eq_ok, failIf_eq_ok, Result.pure_eq_ok] at h
  obtain ⟨_, _, _, hn, hr⟩ := h
  exact ⟨hr.symm, not_lt.mp hn⟩

theorem of_add (h : c.add c' = .ok r) : c.denom = c'.denom ∧ r = ⟨c.denom, c.amount + c'.amount⟩ := by
  simp only [add, Result.bind_eq_ok, failIf_eq_ok, Result.pure_eq_ok, not_not] at h
  obtain ⟨_, hd, _, ha, hr⟩ := h
  exact ⟨hd, MathInt.of_add ha ▸ hr.symm⟩

theorem of_sub (h : c.sub c' = .ok r) : c.denom = c'.denom ∧
    r = ⟨c.denom, c.amount - c'.amount⟩ ∧ c'.amount ≤ c.amount := by
  simp only [sub, Result.bind_eq_ok, failIf_eq_ok, Result.pure_eq_ok, not_not] at h
  obtain ⟨_, hd, _, ha, _, hn, hr⟩ := h
  cases MathInt.of_sub ha
  exact ⟨hd, hr.symm, by omega⟩

end Coin

namespace Coins

-- `Coins.Validate`: positive amounts and valid, distinct denominations.
def isValid (cs : Coins) : Bool :=
  cs.all (fun c => validDenom c.denom && 0 < c.amount) && (cs.map Coin.denom).Nodup

-- `sdk.NewCoins`
def new (cs : Coins) : Result Coins := do
  let cs := (cs.filter (·.amount ≠ 0)).insertionSort (·.denom ≤ ·.denom)
  failIf (isValid cs = false) (.panic "invalid coins")
  return cs

-- `Coins.Add`: both lists must be sorted, and coins that add up to zero are dropped.
def add (cs csB : Coins) : Result Coins := do
  failIf (¬cs.Pairwise (·.denom ≤ ·.denom)) (.panic "Coins (self) must be sorted")
  failIf (¬csB.Pairwise (·.denom ≤ ·.denom)) (.panic "Wrong argument: coins must be sorted")
  let denoms := ((cs ++ csB).map (·.denom)).dedup.insertionSort (· ≤ ·)
  let coins ← denoms.mapM fun denom => do
    let sum ← ((cs ++ csB).filter (·.denom = denom)).foldlM (fun x c => MathInt.add x c.amount) 0
    return Coin.mk denom sum
  return coins.filter (·.amount ≠ 0)

def isZero (cs : Coins) : Bool :=
  cs.all (·.amount = 0)

-- What a list of coins holds of one denomination.
def amountOf (cs : Coins) (denom : String) : ℤ :=
  (cs.map fun c => if c.denom = denom then c.amount else 0).sum

-- `Coins.IsAllGTE`
def isAllGTE (cs csB : Coins) : Bool :=
  csB = [] || cs ≠ [] && csB.all fun c => c.amount ≤ cs.amountOf c.denom

variable {cs csB cs' : Coins} {c c₁ c₂ : Coin} {denom : String}

@[simp]
theorem amountOf_nil : amountOf [] denom = 0 :=
  rfl

@[simp]
theorem amountOf_cons :
    amountOf (c :: cs) denom = (if c.denom = denom then c.amount else 0) + amountOf cs denom := by
  simp [amountOf]

theorem amountOf_append : amountOf (cs ++ cs') denom = amountOf cs denom + amountOf cs' denom := by
  simp [amountOf]

theorem amountOf_eq_zero (h : ∀ c ∈ cs, c.denom ≠ denom) : amountOf cs denom = 0 := by
  induction cs with
  | nil => rfl
  | cons c cs ih => simp_all

theorem amountOf_perm (h : cs.Perm cs') : amountOf cs denom = amountOf cs' denom :=
  (h.map _).sum_eq

theorem amountOf_filter : amountOf (cs.filter (·.amount ≠ 0)) denom = amountOf cs denom := by
  induction cs with
  | nil => rfl
  | cons c cs ih => by_cases h : c.amount = 0 <;> simp_all

theorem amountOf_nonneg (h : ∀ c ∈ cs, 0 ≤ c.amount) : 0 ≤ amountOf cs denom := by
  refine List.sum_nonneg fun x hx => ?_
  obtain ⟨c, hc, he⟩ := List.mem_map.mp hx
  have := h c hc
  split at he <;> omega

theorem amountOf_nonneg_of_isValid (h : cs.isValid = true) (denom : String) :
    0 ≤ cs.amountOf denom := by
  refine amountOf_nonneg fun c hc => ?_
  simp only [isValid, Bool.and_eq_true, List.all_eq_true, decide_eq_true_eq] at h
  exact (h.1 c hc).2.le

theorem amountOf_of_isZero (h : cs.isZero = true) : amountOf cs denom = 0 := by
  simp only [isZero, List.all_eq_true, decide_eq_true_eq] at h
  induction cs with
  | nil => rfl
  | cons c cs ih => simp_all

-- A list with each denomination once holds its own coins.
theorem amount_eq_of_nodup (h : (cs.map Coin.denom).Nodup) (hc : c ∈ cs) :
    c.amount = amountOf cs c.denom := by
  induction cs with
  | nil => simp at hc
  | cons c' cs ih =>
    obtain ⟨hn, h⟩ := List.nodup_cons.mp h
    rcases List.mem_cons.mp hc with rfl | hc
    · rw [amountOf_cons, if_pos rfl, amountOf_eq_zero, add_zero]
      exact fun c' hc' he => hn (he ▸ List.mem_map_of_mem hc')
    · have hne : c'.denom ≠ c.denom := fun he => hn (he ▸ List.mem_map_of_mem hc)
      rw [amountOf_cons, if_neg hne, zero_add]
      exact ih h hc

theorem le_of_isAllGTE (h : cs.isAllGTE csB = true) (hc : c ∈ csB) :
    c.amount ≤ cs.amountOf c.denom := by
  simp only [isAllGTE, Bool.or_eq_true, Bool.and_eq_true, List.all_eq_true, decide_eq_true_eq] at h
  rcases h with rfl | ⟨_, ha⟩
  · simp at hc
  · exact ha c hc

theorem nodup_of_isValid (h : cs.isValid = true) : (cs.map Coin.denom).Nodup := by
  simp only [isValid, Bool.and_eq_true, decide_eq_true_eq] at h
  exact h.2

theorem eq_nil_of_isZero (hv : cs.isValid = true) (hz : cs.isZero = true) : cs = [] := by
  simp only [isValid, isZero, Bool.and_eq_true, List.all_eq_true, decide_eq_true_eq] at hv hz
  refine List.eq_nil_iff_forall_not_mem.mpr fun c hc => ?_
  exact (hv.1 c hc).2.ne' (hz c hc)

-- Only the coins that are not zero are taken over, and these are positive.
theorem of_new (h : new cs = .ok cs') :
    (∀ denom, amountOf cs' denom = amountOf cs denom) ∧ (∀ c ∈ cs', 0 < c.amount) ∧
      ∀ c ∈ cs, 0 ≤ c.amount := by
  simp only [new, Result.bind_eq_ok, failIf_eq_ok, Result.pure_eq_ok] at h
  obtain ⟨_, hv, he⟩ := h
  have hp : cs'.Perm (cs.filter (·.amount ≠ 0)) := he ▸ List.perm_insertionSort _ _
  have hpos : ∀ c ∈ cs', 0 < c.amount := by
    intro c hc
    rw [he] at hv
    simp only [isValid, Bool.not_eq_false, Bool.and_eq_true, List.all_eq_true] at hv
    simpa using (hv.1 c hc).2
  refine ⟨fun _ => (amountOf_perm hp).trans amountOf_filter, hpos, fun c hc => ?_⟩
  by_cases hz : c.amount = 0
  · exact hz.ge
  · exact (hpos c <| hp.mem_iff.mpr <| List.mem_filter.mpr ⟨hc, by simpa using hz⟩).le

theorem of_sum : {cs : Coins} → {x r : ℤ} →
    (cs.filter (·.denom = denom)).foldlM (fun x c => MathInt.add x c.amount) x = .ok r →
      r = x + amountOf cs denom
  | [], x, r, h => by
    cases h
    simp
  | c :: cs, x, r, h => by
    by_cases hd : c.denom = denom
    case pos =>
      simp only [hd, List.filter_cons, decide_true, if_true, List.foldlM_cons,
        Result.bind_eq_ok] at h
      obtain ⟨_, ha, h⟩ := h
      rw [of_sum h, MathInt.of_add ha, amountOf_cons, if_pos hd, add_assoc]
    case neg =>
      simp only [hd, List.filter_cons, decide_false, Bool.false_eq_true, if_false] at h
      rw [of_sum h, amountOf_cons, if_neg hd, zero_add]

-- The coins that hold the given amount of each of some denominations.
theorem amountOf_map {f : String → ℤ} {denoms : List String} (h : denoms.Nodup) :
    amountOf (denoms.map fun d => ⟨d, f d⟩) denom = if denom ∈ denoms then f denom else 0 := by
  induction denoms with
  | nil => simp
  | cons d denoms ih =>
    obtain ⟨hd, hn⟩ := List.nodup_cons.mp h
    by_cases he : d = denom
    case pos =>
      subst he
      simp [ih hn, hd]
    case neg => simp [ih hn, he, Ne.symm he]

theorem of_mapM_sum {denoms : List String} {r : Coins} (h : (denoms.mapM fun denom => do
      let sum ← (cs.filter fun c : Coin => c.denom = denom).foldlM
        (fun x (c : Coin) => MathInt.add x c.amount) 0
      return Coin.mk denom sum) = .ok r) :
    r = denoms.map fun d => ⟨d, cs.amountOf d⟩ := by
  induction denoms generalizing r with
  | nil =>
    simp only [List.mapM_nil, Result.pure_eq_ok] at h
    simp [← h]
  | cons d denoms ih =>
    simp only [List.mapM_cons, Result.bind_eq_ok, Result.pure_eq_ok] at h
    obtain ⟨_, ⟨_, hs, rfl⟩, _, hm, rfl⟩ := h
    rw [ih hm, of_sum hs, zero_add, List.map_cons]

-- The sum has each denomination once.
theorem of_add (h : add cs csB = .ok cs') :
    (∀ denom, amountOf cs' denom = amountOf cs denom + amountOf csB denom) ∧
      (cs'.map Coin.denom).Nodup := by
  simp only [add, Result.bind_eq_ok, failIf_eq_ok, Result.pure_eq_ok] at h
  obtain ⟨_, _, _, _, coins, hm, rfl⟩ := h
  have hn : (((cs ++ csB).map (·.denom)).dedup.insertionSort (· ≤ ·)).Nodup :=
    (List.perm_insertionSort _ _).nodup_iff.mpr (List.nodup_dedup _)
  refine ⟨fun denom => ?_, ?_⟩
  · rw [amountOf_filter, of_mapM_sum hm, amountOf_map hn, ← amountOf_append]
    split_ifs with hd
    · rfl
    · refine (amountOf_eq_zero fun c hc he => hd ?_).symm
      rw [List.mem_insertionSort, List.mem_dedup]
      exact he ▸ List.mem_map_of_mem hc
  · refine List.Nodup.sublist ((List.filter_sublist (l := coins)).map _) ?_
    rw [of_mapM_sum hm, List.map_map]
    exact (List.map_id _).symm ▸ hn

theorem of_new_pair (h : new [c₁, c₂] = .ok cs) : 0 ≤ c₁.amount ∧ 0 ≤ c₂.amount :=
  have ⟨_, _, hn⟩ := of_new h
  ⟨hn c₁ (by simp), hn c₂ (by simp)⟩

end Coins

end Sdk
