import MallChain.Mines.Routes

namespace Mines

open Interleaving

-- The requests of one user that move its stake, and everything else that happens to its balance.
inductive StakeRequest
  | stake (amount : ℚ) (commits : Bool)
  | unstake (amount : ℚ) (now : ℤ) (attempts : Attempts)
  | adjust (amount : ℚ)

def StakeRequest.handler (user : String) : StakeRequest → Handler Unit
  | stake amount commits        => Mines.stake user amount commits
  | unstake amount now attempts => Mines.unstake user amount now attempts
  | adjust amount               => Mines.adjust user amount

namespace World

def balance (user : String) (w : World) : ℚ :=
  (w.users.get user).elim 0 (·.mlptsBalance)

def staked (user : String) (w : World) : ℚ :=
  (w.reviewers.get user).elim 0 (·.stakedAmount)

-- The other credits and debits of a user.
def adjusted (user : String) (w : World) : ℚ :=
  (w.events.map fun
    | .adjusted user' amount => if user' = user then amount else 0
    | _                      => 0).sum

end World

variable {user : String} {total amount : ℚ} {w : World}

structure Conserved (user : String) (total : ℚ) (w : World) : Prop where
  known    : ∃ u, w.users.get user = some u
  sum      : w.balance user + w.staked user = total + w.adjusted user
  balance  : 0 ≤ w.balance user
  staked   : 0 ≤ w.staked user

-- No sum is rounded, a withdrawal finds the stake that it has read, and its callback is not run again.
def stakeGuard : Label → World → Prop
  | .staking user amount, w =>
    Binary64.AddExact (w.balance user) (-amount) ∧ Binary64.AddExact (w.staked user) amount
  | .unstaking user read amount retries, w =>
    w.staked user = read ∧ retries = 0 ∧ Binary64.AddExact read (-amount) ∧
      Binary64.AddExact (w.balance user) amount
  | .adjusting user amount, w => Binary64.AddExact (w.balance user) amount
  | _, _ => True

def stakeContract (user : String) (total : ℚ) : Contract Label World Unit where
  invariant w _ := Conserved user total w
  grows _ _     := True
  guard         := stakeGuard
  refl _        := trivial
  trans _ _     := trivial

theorem balance_incBalance {u : User} (h : w.users.get user = some u)
    (he : Binary64.AddExact (w.balance user) amount) :
    (w.incBalance user amount).balance user = w.balance user + amount := by
  rw [Binary64.AddExact] at he
  rw [← he]
  simp only [World.incBalance, World.updateUser, World.balance, h, KVStore.get_set_self, Option.elim]

theorem incBalance_frame : (w.incBalance user amount).reviewers = w.reviewers ∧
    (w.incBalance user amount).events = w.events := by
  rw [World.incBalance, World.updateUser]
  split <;> exact ⟨rfl, rfl⟩

theorem incBalance_known {u : User} (h : w.users.get user = some u) :
    ∃ u', (w.incBalance user amount).users.get user = some u' := by
  simp only [World.incBalance, World.updateUser, h, KVStore.get_set_self]
  exact ⟨_, rfl⟩

theorem Conserved.stake (h : Conserved user total w)
    (hg : stakeGuard (.staking user amount) w) (ha : 0 < amount) :
    Conserved user total (addStake user amount w) := by
  obtain ⟨u, hu⟩ := h.known
  obtain ⟨hb, hs⟩ := hg
  rw [addStake, hu]
  dsimp only
  split_ifs with hle
  case neg => exact h
  case pos =>
    have hsum := h.sum
    have hbalance := balance_incBalance hu hb
    have hstaked : w.staked user = ((w.reviewers.get user).getD {}).stakedAmount := by
      rw [World.staked]
      cases w.reviewers.get user <;> rfl
    have hle : amount ≤ w.balance user := by simpa [World.balance, hu] using hle
    rw [Binary64.AddExact, hstaked] at hs
    refine ⟨incBalance_known hu, ?_, ?_, ?_⟩
    case refine_1 =>
      change (w.incBalance user (-amount)).balance user + _ = total + World.adjusted user _
      simp only [World.staked, World.adjusted, KVStore.get_set_self, Option.elim, hs, hbalance,
        incBalance_frame.2]
      simp only [World.adjusted] at hsum
      linarith
    case refine_2 =>
      change 0 ≤ (w.incBalance user (-amount)).balance user
      linarith
    case refine_3 =>
      simp only [World.staked, KVStore.get_set_self, Option.elim, hs]
      linarith [h.staked]

theorem Conserved.unstake {d : StakeDoc} {read : ℚ} (h : Conserved user total w)
    (hg : stakeGuard (.unstaking user read amount 0) w) (hd : d.stakedAmount = Binary64.sub read amount)
    (ha : 0 < amount) (hle : amount ≤ read) : Conserved user total (removeStake user amount d w) := by
  obtain ⟨u, hu⟩ := h.known
  obtain ⟨hr, _, hs, hb⟩ := hg
  have hsum := h.sum
  cases hrev : w.reviewers.get user with
  | none =>
    rw [World.staked, hrev] at hr
    simp only [Option.elim] at hr
    linarith
  | some reviewer =>
    rw [removeStake, World.updateReviewer, hrev]
    dsimp only
    have hd : d.stakedAmount = read - amount := by
      rw [hd, Binary64.sub_eq_add, hs, sub_eq_add_neg]
    have hbalance := balance_incBalance (w := { w with reviewers := w.reviewers.set user { reviewer with
      stakedAmount := d.stakedAmount
      stakeStatus  := if d.statusMarked then d.stakeStatus else reviewer.stakeStatus } }) hu hb
    refine ⟨incBalance_known hu, ?_, ?_, ?_⟩
    case refine_1 =>
      rw [hbalance]
      simp only [World.staked, World.adjusted, incBalance_frame, KVStore.get_set_self, Option.elim, hd]
      simp only [World.balance, World.adjusted] at hsum ⊢
      linarith
    case refine_2 =>
      rw [hbalance]
      have hz := h.balance
      simp only [World.balance] at hz ⊢
      linarith
    case refine_3 =>
      simp only [World.staked, incBalance_frame.1, KVStore.get_set_self, Option.elim, hd]
      linarith

theorem Conserved.adjust (h : Conserved user total w)
    (hg : stakeGuard (.adjusting user amount) w) :
    Conserved user total (match w.users.get user with
      | none   => w
      | some u =>
        if u.mlptsBalance + amount ≥ 0 then
          (w.incBalance user amount).record (.adjusted user amount)
        else w) := by
  obtain ⟨u, hu⟩ := h.known
  rw [hu]
  dsimp only
  split_ifs with hle
  case neg => exact h
  case pos =>
    have hsum := h.sum
    have hbalance := balance_incBalance hu hg
    refine ⟨incBalance_known hu, ?_, ?_, ?_⟩
    case refine_1 =>
      change (w.incBalance user amount).balance user + _ = total + World.adjusted user _
      rw [hbalance]
      simp only [World.staked, World.adjusted, World.record, incBalance_frame, List.map_cons, if_true,
        List.sum_cons]
      simp only [World.staked, World.adjusted] at hsum
      linarith
    case refine_2 =>
      change 0 ≤ (w.incBalance user amount).balance user
      rw [hbalance]
      simpa [World.balance, hu] using hle
    case refine_3 =>
      have hz := h.staked
      simpa only [World.staked, World.record, incBalance_frame.1] using hz

theorem stake_handles {commits : Bool} :
    (stakeContract user total).Handles (stake user amount commits) w () := by
  rw [stake]
  split_ifs with ha hc
  case pos => exact Contract.Handles.done
  case neg => exact Contract.Handles.done
  case pos =>
    apply Contract.Handles.write
    intro w' _ hg _ h
    exact ⟨h.stake hg (not_le.mp ha), trivial⟩

theorem unstake_handles {now : ℤ} {attempts : Attempts} :
    (stakeContract user total).Handles (unstake user amount now attempts) w () := by
  rw [unstake]
  apply Contract.Safe.read
  intro w₁ _ _
  cases w₁.reviewers.get user with
  | none => exact Contract.Handles.done
  | some reviewer =>
    dsimp only
    generalize (if amount = 0 then reviewer.stakedAmount else amount) = amount
    by_cases hz : reviewer.stakedAmount ≤ 0
    case pos =>
      rw [if_pos hz]
      exact Contract.Handles.done
    case neg =>
      rw [if_neg hz]
      apply Contract.Safe.read
      intro w₂ _ _
      split_ifs with hp ha hc
      case pos => exact Contract.Handles.done
      case pos => exact Contract.Handles.done
      case neg => exact Contract.Handles.done
      case pos =>
        apply Contract.Handles.write
        intro w' _ hg _ h
        obtain ⟨hpos, hle⟩ := not_or.mp ha
        have hretries : attempts.retried = [] := List.length_eq_zero_iff.mp hg.2.1
        rw [hretries] at hg ⊢
        exact ⟨h.unstake hg rfl (not_le.mp hpos) (not_lt.mp hle), trivial⟩

theorem adjust_handles : (stakeContract user total).Handles (adjust user amount) w () := by
  apply Contract.Handles.write
  intro w' _ hg _ h
  exact ⟨h.adjust hg, trivial⟩

-- The state of a user and its stake before the requests.
structure HoldsStake (user : String) (total : ℚ) (w : World) : Prop where
  known   : ∃ u, w.users.get user = some u
  sum     : w.balance user + w.staked user = total
  balance : 0 ≤ w.balance user
  staked  : 0 ≤ w.staked user
  events  : w.events = []

def stakeSystem (user : String) (total : ℚ) :
    TransitionSystem (Pool Label World) (Action StakeRequest) :=
  system (HoldsStake user total) (StakeRequest.handler user)

instance : (label : Label) → (w : World) → Decidable (stakeGuard label w)
  | .staking _ _, _       => inferInstanceAs (Decidable (_ ∧ _))
  | .unstaking _ _ _ _, _ => inferInstanceAs (Decidable (_ ∧ _))
  | .adjusting _ _, _     => inferInstanceAs (Decidable (_ = _))
  | .read, _ | .write, _ | .inserting _ _ _, _ | .updating _ _, _
  | .deciding _ _, _ | .settling _ _ _, _ | .rewarding _ _, _
  | .charging _ _, _ | .saveVote _ _, _ | .failing, _ => .isTrue trivial

namespace Sample

def staker : World where
  users     := KVStore.empty.set "alice" { mlptsBalance := 0 }
  reviewers := KVStore.empty.set "alice" { stakedAmount := 100, stakeStatus := .active }

theorem staker_holdsStake : HoldsStake "alice" 100 staker where
  known   := ⟨_, rfl⟩
  sum     := by decide +kernel
  balance := by decide +kernel
  staked  := by decide +kernel
  events  := rfl

-- A withdrawal, and a stake after it.
def stakedInTurn : List (Action StakeRequest) :=
  [.start (.unstake 100 0 {}), .run 0, .run 0, .run 0, .start (.stake 60 true), .run 1]

-- Two withdrawals that both read the stake before the first one is saved.
def overlapping : List (Action StakeRequest) :=
  [.start (.unstake 100 0 {}), .start (.unstake 100 0 {}), .run 0, .run 1, .run 0, .run 1, .run 0, .run 1]

def finish (actions : List (Action StakeRequest)) : Pool Label World :=
  Pool.execs (StakeRequest.handler "alice") { store := staker, running := [] } actions

end Sample

-- Stake and balance change by nothing but the other credits and debits, and are never negative.
theorem stake_conserved (user : String) (total : ℚ) (p : Pool Label World)
    (h : (stakeSystem user total).Run (fun p a => p.Meets stakeGuard a) p) :
    p.store.balance user + p.store.staked user = total + p.store.adjusted user ∧
      0 ≤ p.store.balance user ∧ 0 ≤ p.store.staked user := by
  have hinv : (stakeSystem user total).Invariant
      (fun p a => p.Meets (stakeContract user total).guard a)
      fun p => ∃ owned, (stakeContract user total).Holds p owned :=
    Contract.invariant_of_handles ?init ?handles
  case init =>
    intro w h
    refine ⟨h.known, ?_, h.balance, h.staked⟩
    rw [h.sum, World.adjusted, h.events]
    simp
  case handles =>
    intro request w
    cases request with
    | stake amount commits        => exact stake_handles
    | unstake amount now attempts => exact unstake_handles
    | adjust amount               => exact adjust_handles
  obtain ⟨owned, hp⟩ := hinv.holds h
  exact ⟨hp.invariant.sum, hp.invariant.balance, hp.invariant.staked⟩

theorem sample_stake_conserved :
    (Sample.finish Sample.stakedInTurn).store.balance "alice" +
        (Sample.finish Sample.stakedInTurn).store.staked "alice" =
        100 + (Sample.finish Sample.stakedInTurn).store.adjusted "alice" ∧
      0 ≤ (Sample.finish Sample.stakedInTurn).store.balance "alice" ∧
      0 ≤ (Sample.finish Sample.stakedInTurn).store.staked "alice" :=
  stake_conserved "alice" 100 _ (run_from Sample.staker_holdsStake (by decide +kernel))

-- The stake of 100 is paid out twice.
theorem overlapping_unstakes_create :
    ¬∀ (user : String) (total : ℚ) (p : Pool Label World), (stakeSystem user total).Reachable p →
      p.store.balance user + p.store.staked user = total + p.store.adjusted user ∧
        0 ≤ p.store.balance user ∧ 0 ≤ p.store.staked user := by
  intro h
  have hp := h "alice" 100 (Sample.finish Sample.overlapping) (reachable_from Sample.staker_holdsStake)
  have hn : (Sample.finish Sample.overlapping).store.balance "alice" +
      (Sample.finish Sample.overlapping).store.staked "alice" ≠
        100 + (Sample.finish Sample.overlapping).store.adjusted "alice" := by
    decide +kernel
  exact hn hp.1

end Mines
