import MallChain.Mlcoin.Fees

-- How a distribution splits the fees between the stakers and the treasury.

namespace Mlcoin

open Fold Sdk State

abbrev Staker := String × StakingInfo

-- What a stake is sent in its turn.
def Keeper.payment (k : Keeper) (stakersShareAmount totalStaked : UInt64) (s : State)
    (staker : Staker) : UInt64 :=
  let stakerShare := stakersShareAmount * staker.2.stakedAmount / totalStaked
  match if stakerShare > 0 then k.stringToBytes staker.2.address else none with
  | none => 0
  | some stakerAddr =>
    match k.sendFees stakerAddr stakerShare s with
    | .ok (_, true) => stakerShare
    | _ => 0

def Keeper.moment (k : Keeper) (amount total : UInt64) (s : State) (staker : Staker) :
    List (Staker × UInt64) :=
  [(staker, k.payment amount total s staker)]

-- The payments to the stakers in a distribution, the last one first.
def Keeper.payments (k : Keeper) (s : State) : List (Staker × UInt64) :=
  match s.bank.mintCoins k.moduleAddr [⟨"mlcoin", s.fees.total.toNat⟩] with
  | .ok bank =>
    if s.fees.total / 2 > 0 ∧ s.totalStaked > 0 then
      Fold.trace (k.payStaker (s.fees.total / 2) s.totalStaked)
        (k.moment (s.fees.total / 2) s.totalStaked) s.activeStakers { s with bank }
    else []
  | .error _ => []

def sumPaid (payments : List (Staker × UInt64)) : ℕ :=
  (payments.map (·.2.toNat)).sum

-- What is paid for a stake
def paidFor (payments : List (Staker × UInt64)) (id : String) : ℕ :=
  sumPaid (payments.filter (·.1.1 = id))

-- What is paid to an account
def Keeper.paidTo (k : Keeper) (payments : List (Staker × UInt64)) (a : AccAddress) : ℕ :=
  sumPaid (payments.filter fun p => k.stringToBytes p.1.2.address = some a)

-- What the active stakes add up to
def State.stakeSum (s : State) : ℕ :=
  (s.activeStakers.map (·.2.stakedAmount.toNat)).sum

-- The part of the stakers' half of the fees that a stake earns
def State.exactShare (s : State) (info : StakingInfo) : ℕ :=
  s.feeCounters / 2 * info.stakedAmount.toNat / s.stakeSum

variable {k : Keeper} {ctx : Context} {s s' s₀ : State} {amount total : UInt64} {sent : Bool}
variable {staker : Staker} {stakers : List Staker} {payments : List (Staker × UInt64)}

@[simp]
theorem sumPaid_nil : sumPaid [] = 0 :=
  rfl

@[simp]
theorem sumPaid_cons {p : Staker × UInt64} : sumPaid (p :: payments) = p.2.toNat + sumPaid payments :=
  rfl

theorem paidFor_cons {p : Staker × UInt64} {id : String} : paidFor (p :: payments) id =
    (if p.1.1 = id then p.2.toNat else 0) + paidFor payments id := by
  by_cases h : p.1.1 = id <;> simp [paidFor, h]

theorem paidTo_cons {p : Staker × UInt64} {a : AccAddress} : k.paidTo (p :: payments) a =
    (if k.stringToBytes p.1.2.address = some a then p.2.toNat else 0) + k.paidTo payments a := by
  by_cases h : k.stringToBytes p.1.2.address = some a <;> simp [Keeper.paidTo, h]

-- The balances after coins of the module were sent.
def moved (k : Keeper) (recipient : AccAddress) (n : ℕ) (a : AccAddress) : ℤ :=
  (if a = recipient then (n : ℤ) else 0) - if a = k.moduleAddr then (n : ℤ) else 0

theorem of_sendFees_sent {recipient : AccAddress}
    (h : k.sendFees recipient amount s = .ok (s', true)) (a : AccAddress) :
    s'.bank.balances a "mlcoin" =
      s.bank.balances a "mlcoin" + moved k recipient amount.toNat a := by
  simp only [Keeper.sendFees] at h
  split at h
  case h_1 bank hb =>
    cases h
    rw [(Bank.of_sendCoinsFromModuleToAccount hb).balances a "mlcoin"]
    simp [Bank.held, moved]
  case h_2 => cases h
  case h_3 => cases h

theorem of_sendFees_unsent {recipient : AccAddress}
    (h : k.sendFees recipient amount s = .ok (s', false)) : s' = s := by
  simp only [Keeper.sendFees] at h
  split at h
  case h_1 => cases h
  case h_2 =>
    cases h
    rfl
  case h_3 => cases h

-- What the turn of a stake does.
structure Turn (k : Keeper) (staker : Staker) (payment : UInt64) (s s' : State) : Prop where
  balances : ∀ a, s'.bank.balances a "mlcoin" = s.bank.balances a "mlcoin" +
    (if k.stringToBytes staker.2.address = some a then (payment.toNat : ℤ) else 0) -
    if a = k.moduleAddr then (payment.toNat : ℤ) else 0
  records  : s'.stakingRecords = s.stakingRecords ∧ payment = 0 ∨
    s'.stakingRecords = s.stakingRecords.set staker.1
      { staker.2 with rewardsEarned := staker.2.rewardsEarned + payment }

theorem turn_refl : Turn k staker 0 s s where
  balances a := by simp
  records    := .inl ⟨rfl, rfl⟩

theorem turn_of_payStaker (h : k.payStaker amount total s staker = .ok s') :
    Turn k staker (k.payment amount total s staker) s s' := by
  simp only [Keeper.payStaker] at h
  simp only [Keeper.payment]
  cases haddr : (if amount * staker.2.stakedAmount / total > 0 then
      k.stringToBytes staker.2.address else none) with
  | none =>
    simp only [haddr] at h
    cases h
    exact turn_refl
  | some addr =>
    have hdecode : k.stringToBytes staker.2.address = some addr := by
      split_ifs at haddr
      exact haddr
    simp only [haddr, Result.bind_eq_ok, Result.pure_eq_ok, Prod.exists] at h ⊢
    obtain ⟨s₁, sent, hsend, rfl⟩ := h
    rw [hsend]
    cases sent with
    | false =>
      rw [of_sendFees_unsent hsend]
      exact turn_refl
    | true =>
      have hrecords : s₁.stakingRecords = s.stakingRecords := by
        obtain ⟨bank, _, rfl⟩ := of_sendFees hsend
        rfl
      refine ⟨fun a => ?_, .inr ?_⟩
      · simp only [if_true, of_sendFees_sent hsend a, moved, hdecode, Option.some.injEq,
          eq_comm (a := addr)]
        ring
      · simp only [if_true, hrecords]

-- What a part of a distribution did with the payments that it made.
structure Paid (k : Keeper) (payments : List (Staker × UInt64)) (s s' : State) : Prop where
  balances : ∀ a, s'.bank.balances a "mlcoin" = s.bank.balances a "mlcoin" +
    (k.paidTo payments a : ℤ) - if a = k.moduleAddr then (sumPaid payments : ℤ) else 0
  records  : ∀ id info, s.stakingRecords.get id = some info →
    ∃ info', s'.stakingRecords.get id = some info' ∧ info'.principal = info.principal ∧
      info'.rewardsEarned.toNat = (info.rewardsEarned.toNat + paidFor payments id) % 2 ^ 64

theorem Paid.refl (s : State) : Paid k [] s s where
  balances a        := by simp [Keeper.paidTo]
  records id info h := by
    refine ⟨info, h, rfl, ?_⟩
    rw [paidFor, List.filter_nil, sumPaid_nil, Nat.add_zero, Nat.mod_eq_of_lt info.rewardsEarned.toNat_lt]

theorem Paid.turn {payment : UInt64} (h : Paid k payments s₀ s) (ht : Turn k staker payment s s')
    (hget : s.stakingRecords.get staker.1 = some staker.2) :
    Paid k ((staker, payment) :: payments) s₀ s' where
  balances a := by
    rw [ht.balances, h.balances, paidTo_cons, sumPaid_cons]
    split_ifs <;> push_cast <;> ring
  records id info hid := by
    obtain ⟨info', hget', hprincipal, hearned⟩ := h.records id info hid
    rw [paidFor_cons]
    rcases ht.records with ⟨hsame, hzero⟩ | hset
    · refine ⟨info', hsame ▸ hget', hprincipal, ?_⟩
      simp [hzero, hearned]
    · by_cases hk : staker.1 = id
      case neg =>
        refine ⟨info', ?_, hprincipal, by simp [hk, hearned]⟩
        rw [hset, KVStore.get_set_ne (Ne.symm hk), hget']
      case pos =>
        subst hk
        cases hget.symm.trans hget'
        refine ⟨{ staker.2 with rewardsEarned := staker.2.rewardsEarned + payment }, ?_, hprincipal, ?_⟩
        · rw [hset, KVStore.get_set_self]
        · simp only [UInt64.toNat_add, hearned, if_true]
          omega

-- Those who are still to be paid have the stakes that were found before the loop.
structure Unpaid (k : Keeper) (s₀ : State) (stakers : List Staker) (s : State)
    (payments : List (Staker × UInt64)) : Prop where
  keys   : (stakers.map (·.1)).Nodup
  stakes : ∀ staker ∈ stakers, s.stakingRecords.get staker.1 = some staker.2
  paid   : Paid k payments s₀ s

-- A stake is looked up before the loop, which is right as each one has its turn once.
theorem Unpaid.pay (h : Unpaid k s₀ (staker :: stakers) s payments)
    (hstep : k.payStaker amount total s staker = .ok s') :
    Unpaid k s₀ stakers s' (k.moment amount total s staker ++ payments) := by
  obtain ⟨hnew, hkeys⟩ := List.nodup_cons.mp h.keys
  have hturn := turn_of_payStaker hstep
  have hlater : ∀ staker' ∈ stakers, s.stakingRecords.get staker'.1 = some staker'.2 :=
    fun staker' hmem => h.stakes staker' (List.mem_cons_of_mem _ hmem)
  refine ⟨hkeys, fun staker' hmem => ?_, h.paid.turn hturn (h.stakes staker (List.mem_cons_self ..))⟩
  have hne : staker'.1 ≠ staker.1 := fun he => hnew (List.mem_map.mpr ⟨staker', hmem, he⟩)
  rcases hturn.records with ⟨hsame, _⟩ | hset
  · rw [hsame]
    exact hlater staker' hmem
  · rw [hset, KVStore.get_set_ne hne]
    exact hlater staker' hmem

theorem paid_of_foldlM (hkeys : (stakers.map (·.1)).Nodup)
    (hget : ∀ staker ∈ stakers, s.stakingRecords.get staker.1 = some staker.2)
    (h : stakers.foldlM (k.payStaker amount total) s = .ok s') :
    Paid k (Fold.trace (k.payStaker amount total) (k.moment amount total) stakers s) s s' := by
  have hloop := Fold.trace_holds (I := Unpaid k s) (Q := fun _ => True)
    (fun hI hstep _ => Unpaid.pay hI hstep) ⟨hkeys, hget, .refl s⟩ h fun _ _ => trivial
  simpa using hloop.paid

theorem nodup_activeStakers : (s.activeStakers.map (·.1)).Nodup := by
  have hlt : s.activeStakers.Pairwise (·.1 < ·.1) :=
    s.stakingRecords.sorted.sublist List.filter_sublist
  exact List.pairwise_map.mpr (hlt.imp fun h => h.ne)

theorem get_of_mem_activeStakers (h : staker ∈ s.activeStakers) :
    s.stakingRecords.get staker.1 = some staker.2 :=
  KVStore.mem_entries_iff.mp (List.mem_of_mem_filter h)

theorem payments_of_mint {bank : Bank}
    (hmint : s.bank.mintCoins k.moduleAddr [⟨"mlcoin", s.fees.total.toNat⟩] = .ok bank) :
    k.payments s = if s.fees.total / 2 > 0 ∧ s.totalStaked > 0 then
      Fold.trace (k.payStaker (s.fees.total / 2) s.totalStaked)
        (k.moment (s.fees.total / 2) s.totalStaked) s.activeStakers { s with bank }
    else [] := by
  simp only [Keeper.payments, hmint]

theorem payments_of_total (h : s.fees.total = 0) : k.payments s = [] := by
  simp only [Keeper.payments, h]
  split
  case h_1 => exact if_neg fun hpos => absurd hpos.1 (by decide)
  case h_2 => rfl

theorem paid_of_payStakers {bank : Bank}
    (hmint : s.bank.mintCoins k.moduleAddr [⟨"mlcoin", s.fees.total.toNat⟩] = .ok bank)
    (h : k.payStakers (s.fees.total / 2) { s with bank } = .ok s') :
    Paid k (k.payments s) { s with bank } s' := by
  have h : (if s.fees.total / 2 > 0 ∧ s.totalStaked > 0 then
      s.activeStakers.foldlM (k.payStaker (s.fees.total / 2) s.totalStaked) { s with bank }
    else .ok { s with bank }) = .ok s' := h
  rw [payments_of_mint hmint]
  split_ifs at h with hpos
  · rw [if_pos hpos]
    exact paid_of_foldlM nodup_activeStakers (fun _ => get_of_mem_activeStakers) h
  · cases h
    rw [if_neg hpos]
    exact .refl _

-- The parts of a distribution.
structure Parts (k : Keeper) (ctx : Context) (bank : Bank) (s s₁ s₂ s' : State) : Prop where
  minted   : s.bank.mintCoins k.moduleAddr [⟨"mlcoin", s.fees.total.toNat⟩] = .ok bank
  stakers  : k.payStakers (s.fees.total / 2) { s with bank } = .ok s₁
  treasury : k.payTreasury (s.fees.total - s.fees.total / 2) s₁ = .ok s₂
  state    : s' = { s₂ with feesAccumulated := some { s.fees with
    transactionFees      := 0
    tradingFees          := 0
    conversionFees       := 0
    lastDistributionTime := ctx.blockTime
  } }

theorem parts_of_distributeFees (h : k.distributeFees ctx s = .ok s') :
    s.fees.total = 0 ∧ s' = s ∨
      s.fees.total ≠ 0 ∧ ∃ bank s₁ s₂, Parts k ctx bank s s₁ s₂ s' := by
  by_cases hz : s.fees.total = 0
  case pos =>
    simp only [Keeper.distributeFees, hz, if_true] at h
    cases h
    exact .inl ⟨hz, rfl⟩
  case neg =>
    simp only [Keeper.distributeFees, hz, if_false, Result.bind_eq_ok, Result.pure_eq_ok] at h
    obtain ⟨bank, hmint, s₁, hstakers, s₂, htreasury, rfl⟩ := h
    exact .inr ⟨hz, bank, s₁, s₂, hmint, hstakers, htreasury, rfl⟩

-- A distribution adds what it pays for a stake to what the stake has earned.
theorem records_of_distributeFees (h : k.distributeFees ctx s = .ok s') {id : String}
    {info : StakingInfo} (hid : s.stakingRecords.get id = some info) :
    ∃ info', s'.stakingRecords.get id = some info' ∧ info'.principal = info.principal ∧
      info'.rewardsEarned.toNat =
        (info.rewardsEarned.toNat + paidFor (k.payments s) id) % 2 ^ 64 := by
  rcases parts_of_distributeFees h with ⟨hz, rfl⟩ | ⟨_, bank, s₁, s₂, hp⟩
  · rw [payments_of_total hz]
    exact (Paid.refl (k := k) s').records id info hid
  · obtain ⟨info', hget, hprincipal, hearned⟩ :=
      (paid_of_payStakers hp.minted hp.stakers).records id info hid
    refine ⟨info', ?_, hprincipal, hearned⟩
    have htreasury := hp.treasury
    simp only [Keeper.payTreasury] at htreasury
    rw [hp.state]
    split_ifs at htreasury
    · simp only [Result.bind_eq_ok, Result.pure_eq_ok, Prod.exists] at htreasury
      obtain ⟨s₃, sent, hsend, rfl⟩ := htreasury
      obtain ⟨bank', _, rfl⟩ := of_sendFees hsend
      exact hget
    · cases htreasury
      exact hget

-- A payment goes through unless the whole distribution fails.
def Keeper.sends (k : Keeper) (recipient : AccAddress) (amount : UInt64) (s : State) : Bool :=
  match k.sendFees recipient amount s with
  | .ok (_, sent) => sent
  | .error _      => true

def Keeper.pays (k : Keeper) (amount total : UInt64) (s : State) (staker : Staker) : Bool :=
  match k.stringToBytes staker.2.address with
  | none      => true
  | some addr => k.sends addr (amount * staker.2.stakedAmount / total) s

structure Keeper.SendsSucceed (k : Keeper) (s : State) : Prop where
  stakers  : ∀ bank, s.bank.mintCoins k.moduleAddr [⟨"mlcoin", s.fees.total.toNat⟩] = .ok bank →
    Fold.Along (k.payStaker (s.fees.total / 2) s.totalStaked)
      (fun s' staker => k.pays (s.fees.total / 2) s.totalStaked s' staker = true)
      s.activeStakers { s with bank }
  treasury : ∀ bank, s.bank.mintCoins k.moduleAddr [⟨"mlcoin", s.fees.total.toNat⟩] = .ok bank →
    ∀ s₁, k.payStakers (s.fees.total / 2) { s with bank } = .ok s₁ →
      k.sends k.treasuryAddr (s.fees.total - s.fees.total / 2) s₁ = true

-- What the loop computes for a stake
def Keeper.share (k : Keeper) (amount total : UInt64) (staker : Staker) : UInt64 :=
  if k.stringToBytes staker.2.address = none then 0 else amount * staker.2.stakedAmount / total

theorem sent_of_sends {recipient : AccAddress} (hs : k.sends recipient amount s = true)
    (h : k.sendFees recipient amount s = .ok (s', sent)) : sent = true := by
  simpa [Keeper.sends, h] using hs

theorem payment_of_pays (hp : k.pays amount total s staker = true)
    (h : k.payStaker amount total s staker = .ok s') :
    k.payment amount total s staker = k.share amount total staker := by
  simp only [Keeper.payStaker] at h
  simp only [Keeper.payment, Keeper.share]
  by_cases hpos : amount * staker.2.stakedAmount / total > 0
  case neg =>
    have hzero : amount * staker.2.stakedAmount / total = 0 :=
      UInt64.le_zero_iff.mp (UInt64.not_lt.mp hpos)
    simp [hzero]
  case pos =>
    cases haddr : k.stringToBytes staker.2.address with
    | none => simp
    | some addr =>
      simp only [hpos, if_true, haddr, Result.bind_eq_ok, Prod.exists] at h
      obtain ⟨s₁, sent, hsend, _⟩ := h
      simp only [Keeper.pays, haddr] at hp
      simp [hpos, hsend, sent_of_sends hp hsend]

theorem trace_of_pays
    (hp : Fold.Along (k.payStaker amount total)
      (fun s staker => k.pays amount total s staker = true) stakers s)
    (h : stakers.foldlM (k.payStaker amount total) s = .ok s') :
    Fold.trace (k.payStaker amount total) (k.moment amount total) stakers s =
      (stakers.map fun staker => (staker, k.share amount total staker)).reverse := by
  induction stakers generalizing s with
  | nil => rfl
  | cons staker stakers ih =>
    obtain ⟨s₁, hturn, h⟩ := Fold.foldlM_cons_eq_ok.mp h
    rw [Fold.trace_cons hturn, ih (hp.2 s₁ hturn) h, List.map_cons, List.reverse_cons,
      Keeper.moment, payment_of_pays hp.1 hturn]

theorem sumPaid_perm {payments' : List (Staker × UInt64)} (h : payments.Perm payments') :
    sumPaid payments = sumPaid payments' :=
  (h.map _).sum_eq

theorem paidFor_eq_zero {id : String} (h : ∀ p ∈ payments, p.1.1 ≠ id) :
    paidFor payments id = 0 := by
  rw [paidFor, List.filter_eq_nil_iff.mpr fun p hp => by simpa using h p hp, sumPaid_nil]

-- Each stake has one payment.
theorem paidFor_map {f : Staker → UInt64} (hkeys : (stakers.map (·.1)).Nodup)
    (hmem : staker ∈ stakers) :
    paidFor (stakers.map fun staker => (staker, f staker)) staker.1 = (f staker).toNat := by
  induction stakers with
  | nil => simp at hmem
  | cons staker' stakers ih =>
    obtain ⟨hnew, hkeys⟩ := List.nodup_cons.mp hkeys
    rw [List.map_cons, paidFor_cons]
    rcases List.mem_cons.mp hmem with rfl | hmem
    · have hrest : paidFor (stakers.map fun staker => (staker, f staker)) staker.1 = 0 := by
        refine paidFor_eq_zero fun p hp he => hnew ?_
        obtain ⟨staker', hst, rfl⟩ := List.mem_map.mp hp
        exact List.mem_map.mpr ⟨staker', hst, he⟩
      rw [if_pos rfl, hrest, Nat.add_zero]
    · have hne : staker'.1 ≠ staker.1 := fun he => hnew (List.mem_map.mpr ⟨staker, hmem, he.symm⟩)
      rw [if_neg hne, Nat.zero_add, ih hkeys hmem]

-- The payments are the shares of the active stakes, or no share is there.
def Keeper.PaysShares (k : Keeper) (s : State) : Prop :=
  k.payments s = (s.activeStakers.map fun staker =>
      (staker, k.share (s.fees.total / 2) s.totalStaked staker)).reverse ∨
    k.payments s = [] ∧ ∀ staker, k.share (s.fees.total / 2) s.totalStaked staker = 0

theorem paysShares_of_sends (hs : k.SendsSucceed s) {bank : Bank}
    (hmint : s.bank.mintCoins k.moduleAddr [⟨"mlcoin", s.fees.total.toNat⟩] = .ok bank)
    (h : k.payStakers (s.fees.total / 2) { s with bank } = .ok s') : k.PaysShares s := by
  have h : (if s.fees.total / 2 > 0 ∧ s.totalStaked > 0 then
      s.activeStakers.foldlM (k.payStaker (s.fees.total / 2) s.totalStaked) { s with bank }
    else .ok { s with bank }) = .ok s' := h
  rw [Keeper.PaysShares, payments_of_mint hmint]
  split_ifs at h with hpos
  · rw [if_pos hpos]
    exact .inl (trace_of_pays (hs.stakers bank hmint) h)
  · rw [if_neg hpos]
    refine .inr ⟨rfl, fun staker => ?_⟩
    simp only [Keeper.share]
    split_ifs
    case pos => rfl
    case neg =>
      rcases not_and_or.mp hpos with hzero | hzero
      · rw [UInt64.le_zero_iff.mp (UInt64.not_lt.mp hzero)]
        simp
      · rw [UInt64.le_zero_iff.mp (UInt64.not_lt.mp hzero)]
        simp

theorem paysShares_of_total (h : s.fees.total = 0) : k.PaysShares s := by
  refine .inr ⟨payments_of_total h, fun staker => ?_⟩
  simp [Keeper.share, h]

theorem paidFor_payments (hp : k.PaysShares s) (hmem : staker ∈ s.activeStakers) :
    paidFor (k.payments s) staker.1 = (k.share (s.fees.total / 2) s.totalStaked staker).toNat := by
  rcases hp with hp | ⟨hp, hzero⟩
  · rw [hp, paidFor, sumPaid_perm ((List.reverse_perm _).filter _)]
    exact paidFor_map nodup_activeStakers hmem
  · rw [hp, hzero]
    rfl

theorem sumPaid_payments (hp : k.PaysShares s) : sumPaid (k.payments s) = (s.activeStakers.map fun staker =>
      (k.share (s.fees.total / 2) s.totalStaked staker).toNat).sum := by
  rcases hp with hp | ⟨hp, hzero⟩
  · rw [hp, sumPaid_perm (List.reverse_perm _), sumPaid, List.map_map]
    rfl
  · simp [hp, hzero]

-- Shares that are rounded down do not add up to more than the whole.
theorem sum_shares_le {α : Type} {f : α → ℕ} {half whole : ℕ} {l : List α} (h : (l.map f).sum = whole) :
    (l.map fun a => half * f a / whole).sum ≤ half := by
  have hsum : ∀ l : List α, (l.map fun a => half * f a / whole).sum * whole ≤ half * (l.map f).sum := by
    intro l
    induction l with
    | nil => simp
    | cons a l ih =>
      have hle := Nat.div_mul_le_self (half * f a) whole
      simp only [List.map_cons, List.sum_cons]
      nlinarith
  rcases Nat.eq_zero_or_pos whole with rfl | hpos
  · simp
  · exact Nat.le_of_mul_le_mul_right ((hsum l).trans_eq (by rw [h])) hpos

theorem toNat_totalStaked : s.totalStaked.toNat = s.stakeSum % 2 ^ 64 := by
  have hfold : ∀ (l : List Staker) (n : UInt64),
      (l.foldl (fun total staker => total + staker.2.stakedAmount) n).toNat =
        (n.toNat + (l.map (·.2.stakedAmount.toNat)).sum) % 2 ^ 64 := by
    intro l
    induction l with
    | nil => exact fun n => (Nat.mod_eq_of_lt n.toNat_lt).symm
    | cons staker l ih =>
      intro n
      rw [List.foldl_cons, ih, UInt64.toNat_add, List.map_cons, List.sum_cons]
      omega
  simpa [State.totalStaked, State.stakeSum] using hfold s.activeStakers 0

theorem toNat_total : s.fees.total.toNat = s.feeCounters % 2 ^ 64 := by
  rw [FeesAccumulated.total, UInt64.toNat_add, UInt64.toNat_add, feeCounters]
  omega

-- What a distribution is meant to do.
structure SplitExactly (k : Keeper) (s s' : State) : Prop where
  minted   : s'.bank.supply "mlcoin" = s.bank.supply "mlcoin" + s.feeCounters
  received : ∀ staker ∈ s.activeStakers,
    paidFor (k.payments s) staker.1 = s.exactShare staker.2
  bounded  : sumPaid (k.payments s) ≤ s.feeCounters / 2
  balances : ∀ a, s'.bank.balances a "mlcoin" = s.bank.balances a "mlcoin" +
    k.paidTo (k.payments s) a +
    (if a = k.treasuryAddr then ((s.feeCounters - s.feeCounters / 2 : ℕ) : ℤ) else 0) +
    if a = k.moduleAddr then
      (s.feeCounters : ℤ) - sumPaid (k.payments s) - (s.feeCounters - s.feeCounters / 2 : ℕ)
    else 0

-- The share of a stake is what 64 bits make of it.
def Keeper.ShareFits (k : Keeper) (s : State) (info : StakingInfo) : Prop :=
  if k.stringToBytes info.address = none then s.exactShare info = 0
  else if s.stakeSum < 2 ^ 64 then s.feeCounters / 2 * info.stakedAmount.toNat < 2 ^ 64
  else s.feeCounters / 2 * info.stakedAmount.toNat % 2 ^ 64 / (s.stakeSum % 2 ^ 64) =
    s.exactShare info

def Keeper.Fits (k : Keeper) (s : State) : Prop :=
  s.feeCounters < 2 ^ 64 ∧ ∀ staker ∈ s.activeStakers, k.ShareFits s staker.2

theorem stakedAmount_le (h : staker ∈ s.activeStakers) :
    staker.2.stakedAmount.toNat ≤ s.stakeSum :=
  List.le_sum_of_mem (List.mem_map_of_mem h)

-- A quotient by less than the modulus is changed when the product is reduced.
theorem mod_div_eq_iff {n d : ℕ} (hd : d < 2 ^ 64) (hpos : n ≠ 0 → d ≠ 0) :
    n % 2 ^ 64 / d = n / d ↔ n < 2 ^ 64 := by
  refine ⟨fun h => ?_, fun h => by rw [Nat.mod_eq_of_lt h]⟩
  by_contra hge
  have hdpos : 0 < d := Nat.pos_of_ne_zero (hpos (by omega))
  have hle : n % 2 ^ 64 + d ≤ n := by omega
  have hquot := Nat.div_le_div_right (c := d) hle
  rw [Nat.add_div_right _ hdpos, h] at hquot
  exact absurd hquot (Nat.not_succ_le_self _)

theorem share_eq_iff (hf : s.feeCounters < 2 ^ 64) (hmem : staker ∈ s.activeStakers) :
    (k.share (s.fees.total / 2) s.totalStaked staker).toNat = s.exactShare staker.2 ↔
      k.ShareFits s staker.2 := by
  have hhalf : (s.fees.total / 2).toNat = s.feeCounters / 2 := by
    rw [UInt64.toNat_div, toNat_total, Nat.mod_eq_of_lt hf]
    rfl
  rw [Keeper.share, Keeper.ShareFits]
  split_ifs with haddr hsum
  case pos => exact eq_comm
  case pos =>
    have hpos : s.feeCounters / 2 * staker.2.stakedAmount.toNat ≠ 0 → s.stakeSum ≠ 0 := by
      intro hne hzero
      have hle := stakedAmount_le hmem
      have hstake : staker.2.stakedAmount.toNat = 0 := by omega
      exact hne (by rw [hstake, Nat.mul_zero])
    rw [UInt64.toNat_div, UInt64.toNat_mul, hhalf, toNat_totalStaked, Nat.mod_eq_of_lt hsum,
      State.exactShare]
    exact mod_div_eq_iff hsum hpos
  case neg => rw [UInt64.toNat_div, UInt64.toNat_mul, hhalf, toNat_totalStaked]

theorem sum_exactShare_le : (s.activeStakers.map fun staker => s.exactShare staker.2).sum ≤
    s.feeCounters / 2 :=
  sum_shares_le rfl

theorem payTreasury_balances {s₁ : State} {share : UInt64} (hpos : share ≠ 0)
    (hsent : k.sends k.treasuryAddr share s = true)
    (h : k.payTreasury share s = .ok s₁) (a : AccAddress) :
    s₁.bank.balances a "mlcoin" =
      s.bank.balances a "mlcoin" + moved k k.treasuryAddr share.toNat a := by
  have hgt : share > 0 := UInt64.pos_iff_ne_zero.mpr hpos
  simp only [Keeper.payTreasury, hgt, if_true, Result.bind_eq_ok, Result.pure_eq_ok,
    Prod.exists] at h
  obtain ⟨s₂, sent, hsend, rfl⟩ := h
  cases sent_of_sends hsent hsend
  exact of_sendFees_sent hsend a

-- A distribution of fees that add up to nothing, and one that pays the shares.
structure Outcome (k : Keeper) (s s' : State) : Prop where
  minted   : s'.bank.supply "mlcoin" = s.bank.supply "mlcoin" + s.fees.total.toNat
  pays     : k.PaysShares s
  balances : ∀ a, s'.bank.balances a "mlcoin" = s.bank.balances a "mlcoin" +
    k.paidTo (k.payments s) a +
    (if a = k.treasuryAddr then ((s.fees.total - s.fees.total / 2).toNat : ℤ) else 0) +
    if a = k.moduleAddr then
      (s.fees.total.toNat : ℤ) - sumPaid (k.payments s) - (s.fees.total - s.fees.total / 2).toNat
    else 0

theorem outcome_of_distributeFees (hs : k.SendsSucceed s) (h : k.distributeFees ctx s = .ok s') :
    Outcome k s s' := by
  have hminted := (of_distributeFees h).minted
  rcases parts_of_distributeFees h with ⟨hz, rfl⟩ | ⟨hz, bank, s₁, s₂, hp⟩
  · refine ⟨hminted, paysShares_of_total hz, fun a => ?_⟩
    simp [payments_of_total hz, hz, Keeper.paidTo]
  · refine ⟨hminted, paysShares_of_sends hs hp.minted hp.stakers, fun a => ?_⟩
    have hrest : s.fees.total - s.fees.total / 2 ≠ 0 := by
      intro hzero
      have hlt : (s.fees.total / 2).toNat < s.fees.total.toNat := by
        rw [UInt64.toNat_div]
        exact Nat.div_lt_self (Nat.pos_of_ne_zero fun he => hz (UInt64.toNat_inj.mp he)) (by decide)
      have hsub := toNat_sub hlt.le
      rw [hzero] at hsub
      simp only [UInt64.toNat_zero] at hsub
      omega
    have hmint := (Bank.of_mintCoins hp.minted).balances a "mlcoin"
    have hstakers := (paid_of_payStakers hp.minted hp.stakers).balances a
    have htreasury := payTreasury_balances hrest (hs.treasury bank hp.minted s₁ hp.stakers)
      hp.treasury a
    have hstate : s'.bank = s₂.bank := by rw [hp.state]
    rw [hstate, htreasury, hstakers, hmint]
    simp only [moved, Bank.held, Coins.amountOf_cons, Coins.amountOf_nil, if_true, add_zero]
    split_ifs <;> ring

-- A distribution splits the fees exactly when nothing wraps around. Where the stakes add up to 2 ^ 64 or
-- more, the quotients may still happen to be right.
theorem splitExactly_iff (hs : k.SendsSucceed s) (h : k.distributeFees ctx s = .ok s') :
    SplitExactly k s s' ↔ k.Fits s := by
  have ho := outcome_of_distributeFees hs h
  have hshare : ∀ staker ∈ s.activeStakers, paidFor (k.payments s) staker.1 =
      (k.share (s.fees.total / 2) s.totalStaked staker).toNat :=
    fun staker hmem => paidFor_payments ho.pays hmem
  constructor
  · intro hsplit
    have htotal : s.feeCounters < 2 ^ 64 := by
      have hsupply := hsplit.minted.symm.trans ho.minted
      have hlt := s.fees.total.toNat_lt
      omega
    refine ⟨htotal, fun staker hmem => (share_eq_iff htotal hmem).mp ?_⟩
    rw [← hshare staker hmem, hsplit.received staker hmem]
  · rintro ⟨htotal, hfits⟩
    have htotal' : s.fees.total.toNat = s.feeCounters := by rw [toNat_total, Nat.mod_eq_of_lt htotal]
    have hexact : ∀ staker ∈ s.activeStakers,
        (k.share (s.fees.total / 2) s.totalStaked staker).toNat = s.exactShare staker.2 :=
      fun staker hmem => (share_eq_iff htotal hmem).mpr (hfits staker hmem)
    have htreasury : (s.fees.total - s.fees.total / 2).toNat = s.feeCounters - s.feeCounters / 2 := by
      have hhalf : (s.fees.total / 2).toNat = s.feeCounters / 2 := by
        rw [UInt64.toNat_div, htotal']
        rfl
      have hsub := toNat_sub (a := s.fees.total) (b := s.fees.total / 2) (by omega)
      omega
    refine ⟨by rw [ho.minted, htotal'], fun staker hmem => ?_, ?_, fun a => ?_⟩
    · rw [hshare staker hmem, hexact staker hmem]
    · rw [sumPaid_payments ho.pays, List.map_congr_left hexact]
      exact sum_exactShare_le
    · rw [ho.balances a, htreasury, htotal']

namespace Sample

def stakeOf (address : String) (amount : UInt64) : StakingInfo where
  address      := address
  stakedAmount := amount
  stakeDate    := 0
  isActive     := true
  unlockHeight := 0

def stakes (amount : UInt64) : State where
  feesAccumulated := some { transactionFees := 200 }
  stakingRecords  := (KVStore.empty.set "stake-0-owner" (stakeOf "owner" amount)).set "stake-1-friend"
    (stakeOf "friend" amount)

end Sample

-- Two stakers of 10 ^ 18 each are paid 3 of the 100 that they should share.
theorem shares_wrap : ¬ ∀ (k : Keeper) (ctx : Context) (s s' : State), k.SendsSucceed s →
    k.distributeFees ctx s = .ok s' → SplitExactly k s s' := by
  intro h
  have hsends : Sample.keeper.SendsSucceed (Sample.stakes 1000000000000000000) :=
    ⟨by decide +kernel, by decide +kernel⟩
  obtain ⟨s', hs⟩ := Result.isOk_iff.mp (by decide +kernel :
    (Sample.keeper.distributeFees Sample.block (Sample.stakes 1000000000000000000)).isOk = true)
  have hreceived := (h _ _ _ _ hsends hs).received
    ("stake-0-owner", Sample.stakeOf "owner" 1000000000000000000) (by decide +kernel)
  revert hreceived
  decide +kernel

theorem sample_splitExactly :
    ∃ s', Sample.keeper.distributeFees Sample.block (Sample.stakes 1000) = .ok s' ∧
      (SplitExactly Sample.keeper (Sample.stakes 1000) s' ↔
        Sample.keeper.Fits (Sample.stakes 1000)) := by
  have hsends : Sample.keeper.SendsSucceed (Sample.stakes 1000) :=
    ⟨by decide +kernel, by decide +kernel⟩
  obtain ⟨s', hs⟩ := Result.isOk_iff.mp (by decide +kernel :
    (Sample.keeper.distributeFees Sample.block (Sample.stakes 1000)).isOk = true)
  exact ⟨s', hs, splitExactly_iff hsends hs⟩

end Mlcoin
