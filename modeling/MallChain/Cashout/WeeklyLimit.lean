import MallChain.Cashout.Sell

namespace Cashout

-- The withdrawals of a wallet that count since some time, the oldest first.
def countedWithdrawals (walletAddress : String) (windowStart : ℤ) (w : World) : List WithdrawalRequest :=
  (w.withdrawals.values.filter fun withdrawal => withdrawal.walletAddress = walletAddress ∧
    windowStart ≤ withdrawal.createdAt ∧ withdrawal.status.counts).insertionSort fun a b =>
      a.createdAt ≤ b.createdAt

structure LimitCheck where
  ok              : Bool
  count           : ℕ
  limit           : ℕ
  nextAvailableAt : Option ℤ
  deriving DecidableEq, Repr

-- With a limit of 0 there may be no oldest withdrawal, in which case the check throws.
def checkWeeklyWithdrawalLimit (cfg : Config) (walletAddress : String) (now : ℤ) (w : World) :
    Option LimitCheck :=
  let counted := countedWithdrawals walletAddress (now - windowMs) w
  let count   := counted.length
  let limit   := cfg.weeklyLimit
  if count < limit then
    some { ok := true, count, limit, nextAvailableAt := none }
  else
    counted.head?.map fun oldest =>
      { ok := false, count, limit, nextAvailableAt := some (oldest.createdAt + windowMs) }

-- Whether the check lets a withdrawal pass.
def World.passes (w : World) (cfg : Config) (walletAddress : String) (now : ℤ) : Option Bool :=
  (checkWeeklyWithdrawalLimit cfg walletAddress now w).map (·.ok)

-- A check that rejects rejects until the time that it promises, and lets a withdrawal pass then.
def PromiseKept (cfg : Config) (walletAddress : String) (now : ℤ) (w : World) : Prop :=
  ∀ check nextAvailableAt, checkWeeklyWithdrawalLimit cfg walletAddress now w = some check →
    check.nextAvailableAt = some nextAvailableAt →
      (∀ t, now ≤ t → t < nextAvailableAt → w.passes cfg walletAddress t = some false) ∧
        w.passes cfg walletAddress nextAvailableAt = some true

variable {cfg : Config} {walletAddress : String} {now t nextAvailableAt : ℤ} {w : World} {check : LimitCheck}

theorem length_countedWithdrawals :
    (countedWithdrawals walletAddress t w).length = w.counted walletAddress t := by
  rw [countedWithdrawals, List.length_insertionSort, World.counted]

-- The gate of a sale is the one of the check.
theorem passes_iff : w.passes cfg walletAddress now = some true ↔
    w.counted walletAddress (now - windowMs) < cfg.weeklyLimit := by
  rw [World.passes, checkWeeklyWithdrawalLimit, length_countedWithdrawals]
  split_ifs with hlt
  case pos => simp [hlt]
  case neg => cases (countedWithdrawals walletAddress (now - windowMs) w).head? <;> simp [hlt]

theorem mem_countedWithdrawals {withdrawal : WithdrawalRequest} :
    withdrawal ∈ countedWithdrawals walletAddress t w ↔ withdrawal ∈ w.withdrawals.values ∧
      withdrawal.walletAddress = walletAddress ∧ t ≤ withdrawal.createdAt ∧
        withdrawal.status.counts = true := by
  rw [countedWithdrawals, List.mem_insertionSort, List.mem_filter, decide_eq_true_eq]

-- The first withdrawal is the oldest.
theorem createdAt_head_le {oldest withdrawal : WithdrawalRequest}
    (hhead : (countedWithdrawals walletAddress t w).head? = some oldest)
    (hm : withdrawal ∈ countedWithdrawals walletAddress t w) : oldest.createdAt ≤ withdrawal.createdAt := by
  have hsorted : (countedWithdrawals walletAddress t w).Pairwise fun a b => a.createdAt ≤ b.createdAt :=
    List.pairwise_insertionSort (fun a b : WithdrawalRequest => a.createdAt ≤ b.createdAt) _
  obtain ⟨rest, hrest⟩ := List.head?_eq_some_iff.mp hhead
  rw [hrest] at hsorted hm
  cases List.mem_cons.mp hm with
  | inl heq => rw [heq]
  | inr hm => exact (List.pairwise_cons.mp hsorted).1 withdrawal hm

-- The same withdrawals count as long as the oldest of them does.
theorem countedWithdrawals_eq {start start' : ℤ} {oldest : WithdrawalRequest}
    (hhead : (countedWithdrawals walletAddress start w).head? = some oldest) (hle : start ≤ start')
    (hold : start' ≤ oldest.createdAt) :
    countedWithdrawals walletAddress start' w = countedWithdrawals walletAddress start w := by
  have hfilter : ∀ withdrawal ∈ w.withdrawals.values,
      decide (withdrawal.walletAddress = walletAddress ∧ start' ≤ withdrawal.createdAt ∧
        withdrawal.status.counts = true) =
      decide (withdrawal.walletAddress = walletAddress ∧ start ≤ withdrawal.createdAt ∧
        withdrawal.status.counts = true) := by
    intro withdrawal hm
    refine decide_eq_decide.mpr ⟨fun ⟨hwallet, hsince, hcounts⟩ => ?_, fun ⟨hwallet, hsince, hcounts⟩ => ?_⟩
    case refine_1 => exact ⟨hwallet, hle.trans hsince, hcounts⟩
    case refine_2 =>
      have hcounted := mem_countedWithdrawals.mpr ⟨hm, hwallet, hsince, hcounts⟩
      exact ⟨hwallet, hold.trans (createdAt_head_le hhead hcounted), hcounts⟩
  rw [countedWithdrawals, countedWithdrawals, List.filter_congr hfilter]

-- The answer stays the same until the time that is promised, and it is the same then too.
theorem check_of_le (h : checkWeeklyWithdrawalLimit cfg walletAddress now w = some check)
    (hnext : check.nextAvailableAt = some nextAvailableAt) (hnow : now ≤ t) (hle : t ≤ nextAvailableAt) :
    checkWeeklyWithdrawalLimit cfg walletAddress t w = some check ∧ check.ok = false := by
  rw [checkWeeklyWithdrawalLimit] at h
  split_ifs at h with hlt
  case pos =>
    cases h
    cases hnext
  case neg =>
    obtain ⟨oldest, hhead, rfl⟩ := Option.map_eq_some_iff.mp h
    cases hnext
    have heq : countedWithdrawals walletAddress (t - windowMs) w =
        countedWithdrawals walletAddress (now - windowMs) w :=
      countedWithdrawals_eq hhead (by omega) (by omega)
    refine ⟨?_, rfl⟩
    rw [checkWeeklyWithdrawalLimit, heq, if_neg hlt, hhead]
    rfl

theorem nextAvailableAt_isSome (hlimit : ¬w.counted walletAddress (now - windowMs) < cfg.weeklyLimit)
    (hpos : 0 < w.counted walletAddress (now - windowMs)) : ∃ check nextAvailableAt,
      checkWeeklyWithdrawalLimit cfg walletAddress now w = some check ∧
        check.nextAvailableAt = some nextAvailableAt ∧ now ≤ nextAvailableAt := by
  rw [← length_countedWithdrawals] at hlimit hpos
  obtain ⟨oldest, hhead⟩ : ∃ oldest,
      (countedWithdrawals walletAddress (now - windowMs) w).head? = some oldest := by
    cases hl : countedWithdrawals walletAddress (now - windowMs) w with
    | nil =>
      rw [hl] at hpos
      cases hpos
    | cons oldest rest => exact ⟨oldest, rfl⟩
  have hsince := (mem_countedWithdrawals.mp (List.mem_of_mem_head? hhead)).2.2.1
  rw [checkWeeklyWithdrawalLimit, if_neg hlimit, hhead]
  exact ⟨_, _, rfl, rfl, by omega⟩

namespace Sample

-- One withdrawal of a wallet, at the time 0.
def withdrawn : World where
  withdrawals := KVStore.empty.set "withdrawal" {
    walletAddress := "alice"
    phone         := "254700000000"
    amountMlcns   := 1000
    amountKes     := 1000
    createdAt     := 0
  }

end Sample

-- The promise is kept only where none is made: a check that rejects still rejects at the time promised.
theorem limit_promise_kept (cfg : Config) (walletAddress : String) (now : ℤ) (w : World) :
    PromiseKept cfg walletAddress now w ↔
      w.counted walletAddress (now - windowMs) < cfg.weeklyLimit ∨
        w.counted walletAddress (now - windowMs) = 0 := by
  constructor
  case mp =>
    intro h
    by_contra hn
    push Not at hn
    obtain ⟨check, nextAvailableAt, hcheck, hnext, hnow⟩ :=
      nextAvailableAt_isSome (not_lt.mpr hn.1) (Nat.pos_of_ne_zero hn.2)
    have hpasses := (h check nextAvailableAt hcheck hnext).2
    obtain ⟨hsame, hok⟩ := check_of_le hcheck hnext hnow le_rfl
    rw [World.passes, hsame, Option.map_some, hok] at hpasses
    cases hpasses
  case mpr =>
    intro h check nextAvailableAt hcheck hnext
    rw [checkWeeklyWithdrawalLimit, length_countedWithdrawals] at hcheck
    split_ifs at hcheck with hlt
    case pos =>
      cases hcheck
      cases hnext
    case neg =>
      have hzero := h.resolve_left hlt
      rw [← length_countedWithdrawals] at hzero
      rw [List.length_eq_zero_iff.mp hzero] at hcheck
      cases hcheck

-- The withdrawal of the time 0 still counts seven days later, when it was promised not to.
theorem promise_broken :
    ¬∀ cfg walletAddress now w, PromiseKept cfg walletAddress now w := by
  intro h
  have hpasses := (h { payout := { configured := true }, weeklyLimit := 1 } "alice" 0 Sample.withdrawn
    { ok := false, count := 1, limit := 1, nextAvailableAt := some windowMs } windowMs
    (by decide +kernel) rfl).2
  exact absurd hpasses (by decide +kernel)

end Cashout
