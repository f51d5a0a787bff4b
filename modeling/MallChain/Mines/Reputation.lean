import MallChain.Mines.Stakes
import MallChain.Mines.System

namespace Mines

open Backend

-- A score: an integer within 0 and 100.
def Score (x : ℚ) : Prop :=
  ∃ n : ℤ, x = n ∧ 0 ≤ n ∧ n ≤ 100

-- A reviewer as the routes leave it.
structure MinesReviewer.Sound (r : MinesReviewer) : Prop where
  minimum  : r.minRequiredStake = 50
  approved : r.tasksApproved ≤ r.tasksVoted
  score    : Score r.miningReputation

-- No more votes than assignments, as far as assignments are counted at all.
def MinesReviewer.Counted (r : MinesReviewer) : Prop :=
  r.tasksVoted ≤ r.tasksAssigned ∨ r.tasksAssigned = 0

instance (r : MinesReviewer) : Decidable r.Counted :=
  inferInstanceAs (Decidable (_ ∨ _))

section Score

variable {x y z : ℚ}

theorem Score.nonneg (h : Score x) : 0 ≤ x := by
  obtain ⟨n, rfl, h₀, -⟩ := h
  exact_mod_cast h₀

theorem Score.le (h : Score x) : x ≤ 100 := by
  obtain ⟨n, rfl, -, h₁⟩ := h
  exact_mod_cast h₁

-- Half a point on either side is rounded off.
theorem score_mathRound (h₀ : -1 / 2 ≤ x) (h₁ : x < 100 + 1 / 2) : Score (mathRound x) := by
  refine ⟨_, rfl, Int.floor_nonneg.mpr (by linarith), ?_⟩
  have hlt : ⌊x + 1 / 2⌋ < 101 := Int.floor_lt.mpr (by push_cast; linarith)
  rw [mathRound]
  omega

-- Up to 128, an operation is off by no more than this.
def slack : ℚ :=
  2 ^ (7 - 53 : ℤ)

theorem slack_nonneg : 0 ≤ slack := by
  norm_num [slack]

theorem slack_le : slack ≤ 1 / 1000 := by
  norm_num [slack]

theorem round_slack (h₀ : -128 ≤ x) (h₁ : x ≤ 128) :
    x - slack ≤ Binary64.round x ∧ Binary64.round x ≤ x + slack := by
  have hx : |x| ≤ 2 ^ (7 : ℤ) := abs_le.mpr ⟨by norm_num; exact h₀, by norm_num; exact h₁⟩
  have herror := abs_le.mp (Binary64.round_error_le (by norm_num) hx)
  rw [slack]
  constructor <;> linarith [herror.1, herror.2]

-- A share of a hundred.
theorem score_rate {part whole : ℚ} (hpart : 0 ≤ part) (hle : part ≤ whole) :
    Score (mathRound (Binary64.mul (Binary64.div part whole) 100)) := by
  have hslack := slack_le
  have hshare₀ : 0 ≤ part / whole := div_nonneg hpart (hpart.trans hle)
  have hshare₁ : part / whole ≤ 1 := div_le_one_of_le₀ hle (hpart.trans hle)
  obtain ⟨hdiv₀, hdiv₁⟩ := round_slack (x := part / whole) (by linarith) (by linarith)
  obtain ⟨hmul₀, hmul₁⟩ := round_slack (x := Binary64.round (part / whole) * 100) (by linarith) (by linarith)
  rw [Binary64.mul, Binary64.div]
  exact score_mathRound (by linarith) (by linarith)

-- A part of a score that is weighted.
theorem weighted_mem (weight : ℚ) (hx₀ : 0 ≤ x) (hx₁ : x ≤ 100) (hw₀ : 1 / 10 ≤ weight)
    (hw₁ : weight ≤ 1 / 2) :
    -slack ≤ Binary64.mul x (Binary64.round weight) ∧
      Binary64.mul x (Binary64.round weight) ≤ 100 * weight + 101 * slack := by
  have hslack := slack_le
  obtain ⟨hround₀, hround₁⟩ := round_slack (x := weight) (by linarith) (by linarith)
  have hround : 0 ≤ Binary64.round weight := by linarith
  have hproduct : x * Binary64.round weight ≤ 100 * (weight + slack) := by
    gcongr
  have hproduct₀ : 0 ≤ x * Binary64.round weight := mul_nonneg hx₀ hround
  obtain ⟨hmul₀, hmul₁⟩ := round_slack (x := x * Binary64.round weight) (by linarith) (by linarith)
  rw [Binary64.mul]
  constructor <;> linarith

-- The three parts of a score weigh 2/5, 3/10 and 3/10.
theorem score_sum (hx₀ : 0 ≤ x) (hx₁ : x ≤ 100) (hy₀ : 0 ≤ y) (hy₁ : y ≤ 100) (hz₀ : 0 ≤ z)
    (hz₁ : z ≤ 100) : Score (mathRound (Binary64.add
      (Binary64.add (Binary64.mul x (Binary64.round (2 / 5))) (Binary64.mul y (Binary64.round (3 / 10))))
      (Binary64.mul z (Binary64.round (3 / 10))))) := by
  have hslack := slack_le
  have hslack₀ := slack_nonneg
  obtain ⟨hx₀, hx₁⟩ := weighted_mem (2 / 5) hx₀ hx₁ (by norm_num) (by norm_num)
  obtain ⟨hy₀, hy₁⟩ := weighted_mem (3 / 10) hy₀ hy₁ (by norm_num) (by norm_num)
  obtain ⟨hz₀, hz₁⟩ := weighted_mem (3 / 10) hz₀ hz₁ (by norm_num) (by norm_num)
  generalize Binary64.mul x _ = a at *
  generalize Binary64.mul y _ = b at *
  generalize Binary64.mul z _ = c at *
  obtain ⟨hab₀, hab₁⟩ := round_slack (x := a + b) (by linarith) (by linarith)
  obtain ⟨habc₀, habc₁⟩ := round_slack (x := Binary64.round (a + b) + c) (by linarith) (by linarith)
  rw [Binary64.add, Binary64.add]
  exact score_mathRound (by linarith) (by linarith)

end Score

section Reviewer

variable {reviewer : MinesReviewer} {miningReputation : ℚ}

-- The formula stays within the score when the reviewer has not voted more often than was asked for.
theorem computeReputationStats_score (hc : reviewer.Counted)
    (ha : reviewer.tasksApproved ≤ reviewer.tasksVoted)
    (h : computeReputationStats reviewer = some miningReputation) : Score miningReputation := by
  rw [computeReputationStats] at h
  by_cases hvoted : reviewer.tasksVoted > 0
  case neg =>
    rw [if_neg hvoted] at h
    cases h
  case pos =>
    rw [if_pos hvoted] at h
    have happroval : Score (mathRound (Binary64.mul
        (Binary64.div reviewer.tasksApproved reviewer.tasksVoted) 100)) :=
      score_rate (by positivity) (by exact_mod_cast ha)
    have hresponse : Score (mathRound (Binary64.mul (Binary64.div reviewer.tasksVoted
        (if reviewer.tasksAssigned = 0 then (reviewer.tasksVoted : ℚ) else reviewer.tasksAssigned)) 100)) := by
      refine score_rate (by positivity) ?_
      by_cases hz : reviewer.tasksAssigned = 0
      case pos => rw [if_pos hz]
      case neg =>
        rw [if_neg hz]
        exact_mod_cast hc.resolve_right hz
    have hvolume : (0 : ℚ) ≤ reviewer.tasksVoted * 5 := by positivity
    have hfar := abs_nonneg ((mathRound (Binary64.mul
      (Binary64.div reviewer.tasksApproved reviewer.tasksVoted) 100) : ℚ) - 60)
    have hnear := abs_le.mpr (show -(100 : ℚ) ≤ (mathRound (Binary64.mul
      (Binary64.div reviewer.tasksApproved reviewer.tasksVoted) 100) : ℚ) - 60 ∧ _ ≤ (100 : ℚ) from
        ⟨by linarith [happroval.nonneg], by linarith [happroval.le]⟩)
    cases h
    exact score_sum hresponse.nonneg hresponse.le (by linarith) (by linarith)
      (le_min hvolume (by norm_num)) (min_le_right ..)

theorem sound_default : ({} : MinesReviewer).Sound where
  minimum  := rfl
  approved := le_rfl
  score    := ⟨50, rfl, by norm_num, by norm_num⟩

-- A deduction, unless it finds nothing to deduct from.
theorem penalize_miningReputation (h : Score reviewer.miningReputation)
    (hz : reviewer.miningReputation ≠ 0) :
    (penalize reviewer).miningReputation = max 0 (reviewer.miningReputation - missedVotePenalty) := by
  obtain ⟨n, hn, h₀, h₁⟩ := h
  have hexact : Binary64.sub (n : ℚ) missedVotePenalty = n - missedVotePenalty := by
    rw [Binary64.sub, missedVotePenalty]
    exact_mod_cast Binary64.round_intCast (n := n - 5) (abs_lt.mpr ⟨by omega, by omega⟩)
  rw [penalize]
  simp only [if_neg hz]
  rw [hn, hexact]

theorem Score.penalize (h : Score reviewer.miningReputation) :
    Score (Mines.penalize reviewer).miningReputation := by
  by_cases hz : reviewer.miningReputation = 0
  case pos =>
    have hexact : Binary64.sub 50 missedVotePenalty = 45 := by
      rw [Binary64.sub, missedVotePenalty]
      have h45 : ((50 : ℚ) - 5) = ((45 : ℤ) : ℚ) := by norm_num
      rw [h45, Binary64.round_intCast (by norm_num)]
      norm_num
    refine ⟨45, ?_, by norm_num, by norm_num⟩
    rw [Mines.penalize]
    simp only [if_pos hz, hexact]
    norm_num
  case neg =>
    rw [penalize_miningReputation h hz]
    obtain ⟨n, hn, h₀, h₁⟩ := h
    refine ⟨max 0 (n - 5), ?_, by omega, by omega⟩
    rw [hn, missedVotePenalty]
    push_cast
    rfl

theorem MinesReviewer.Sound.penalize (h : reviewer.Sound) : (Mines.penalize reviewer).Sound where
  minimum  := h.minimum
  approved := h.approved
  score    := h.score.penalize

-- What a settlement does to one assigned reviewer.
def settled (cfg : Config) (votes : Votes) (approved : Bool) (reviewerId : String)
    (reviewer : MinesReviewer) : MinesReviewer :=
  match votes.get reviewerId with
  | none      => penalize reviewer
  | some cast =>
    if decide (cast = "yes") = approved then { reviewer with
      totalEarnings    := Binary64.add reviewer.totalEarnings cfg.voteReward
      missedVoteStreak := 0
    }
    else { reviewer with missedVoteStreak := 0 }

variable {cfg : Config} {votes : Votes} {approved : Bool} {id reviewerId : String} {w : World}
  {ids : List String}

theorem get_updateReviewer {f : MinesReviewer → MinesReviewer} :
    (w.updateReviewer reviewerId f).reviewers.get id =
      if id = reviewerId then (w.reviewers.get id).map f else w.reviewers.get id := by
  rw [World.updateReviewer]
  by_cases heq : id = reviewerId
  case pos =>
    subst heq
    cases hget : w.reviewers.get id <;> simp [hget]
  case neg => cases w.reviewers.get reviewerId <;> simp [heq, KVStore.get_set]

theorem get_settleReviewer : (settleReviewer cfg votes approved w reviewerId).reviewers.get id =
    if id = reviewerId then (w.reviewers.get id).map (settled cfg votes approved reviewerId)
    else w.reviewers.get id := by
  cases hcast : votes.get reviewerId with
  | none =>
    have hsettled : settled cfg votes approved reviewerId = penalize := by
      funext reviewer
      rw [settled, hcast]
    rw [settleReviewer, hcast, hsettled]
    exact get_updateReviewer
  | some cast =>
    by_cases hmatched : decide (cast = "yes") = approved
    case pos =>
      have hsettled : settled cfg votes approved reviewerId = fun reviewer => { reviewer with
          totalEarnings    := Binary64.add reviewer.totalEarnings cfg.voteReward
          missedVoteStreak := 0 } := by
        funext reviewer
        simp only [settled, hcast, if_pos hmatched]
      simp only [settleReviewer, hcast, if_pos hmatched, hsettled]
      cases hget : w.reviewers.get reviewerId with
      | none =>
        split_ifs with heq
        case pos => rw [heq, hget, Option.map_none]
        case neg => rfl
      | some _ => exact (congrArg (KVStore.get · id) incBalance_frame.1).trans get_updateReviewer
    case neg =>
      have hsettled : settled cfg votes approved reviewerId = fun reviewer => { reviewer with
          missedVoteStreak := 0 } := by
        funext reviewer
        simp only [settled, hcast, if_neg hmatched]
      simp only [settleReviewer, hcast, if_neg hmatched, hsettled]
      exact get_updateReviewer

-- The reviewers are settled one after another, one who is listed twice is settled twice.
theorem get_settleReviewers : (ids.foldl (settleReviewer cfg votes approved) w).reviewers.get id =
    (w.reviewers.get id).map (settled cfg votes approved id)^[ids.count id] := by
  induction ids generalizing w with
  | nil => simp
  | cons reviewerId ids ih =>
    rw [List.foldl_cons, ih, get_settleReviewer]
    by_cases heq : id = reviewerId
    case pos =>
      rw [if_pos heq, Option.map_map, heq, List.count_cons_self, Function.iterate_succ]
    case neg => rw [if_neg heq, List.count_cons_of_ne (Ne.symm heq)]

theorem MinesReviewer.Sound.settled (h : reviewer.Sound) :
    (Mines.settled cfg votes approved id reviewer).Sound := by
  rw [Mines.settled]
  split
  case h_1 => exact h.penalize
  case h_2 => split_ifs <;> exact ⟨h.minimum, h.approved, h.score⟩

theorem settled_stakeStatus (h : (settled cfg votes approved id reviewer).stakeStatus = .active) :
    reviewer.stakeStatus = .active := by
  rw [settled] at h
  split at h
  case h_1 =>
    simp only [penalize] at h
    split_ifs at h
    exact h
  case h_2 => split_ifs at h <;> exact h

theorem settled_miningReputation (h : (votes.get id).isSome = true) :
    (settled cfg votes approved id reviewer).miningReputation = reviewer.miningReputation := by
  obtain ⟨cast, hcast⟩ := Option.isSome_iff_exists.mp h
  simp only [settled, hcast]
  split_ifs <;> rfl

-- As long as each deduction finds something, all of them together are one.
theorem iterate_penalize {n : ℕ} (h : Score reviewer.miningReputation)
    (hn : missedVotePenalty * ((n : ℚ) - 1) < reviewer.miningReputation) :
    Score (penalize^[n] reviewer).miningReputation ∧ (penalize^[n] reviewer).miningReputation =
      max 0 (reviewer.miningReputation - missedVotePenalty * n) := by
  induction n with
  | zero =>
    refine ⟨h, ?_⟩
    rw [Function.iterate_zero_apply, Nat.cast_zero, mul_zero, sub_zero, max_eq_right h.nonneg]
  | succ n ih =>
    rw [missedVotePenalty] at *
    push_cast at hn
    obtain ⟨hscore, hreputation⟩ := ih (by linarith)
    have hleft : (penalize^[n] reviewer).miningReputation = reviewer.miningReputation - 5 * n := by
      rw [hreputation, max_eq_right (by linarith)]
    have hz : (penalize^[n] reviewer).miningReputation ≠ 0 := by
      rw [hleft]
      exact (by linarith : (0 : ℚ) < _).ne'
    rw [Function.iterate_succ_apply', penalize_miningReputation hscore hz, hleft, missedVotePenalty]
    refine ⟨?_, ?_⟩
    case refine_1 =>
      rw [← hleft]
      have hs := hscore.penalize
      rwa [penalize_miningReputation hscore hz] at hs
    case refine_2 =>
      push_cast
      ring_nf

-- No penalty finds a reputation of nothing.
def Affordable (votes : Votes) (ids : List String) (w : World) : Prop :=
  ∀ id ∈ ids, votes.get id = none → ∀ reviewer, w.reviewers.get id = some reviewer →
    missedVotePenalty * ((ids.count id : ℚ) - 1) < reviewer.miningReputation

instance decidableAffordable (votes : Votes) (ids : List String) (w : World) :
    Decidable (Affordable votes ids w) :=
  decidable_of_iff (∀ id ∈ ids, votes.get id = none → (w.reviewers.get id).all fun reviewer =>
    missedVotePenalty * ((ids.count id : ℚ) - 1) < reviewer.miningReputation) (by simp [Affordable, Option.all_eq_true])

theorem iterate_settled_le {n : ℕ} (h : Score reviewer.miningReputation)
    (hn : votes.get id = none → missedVotePenalty * ((n : ℚ) - 1) < reviewer.miningReputation) :
    ((settled cfg votes approved id)^[n] reviewer).miningReputation ≤ reviewer.miningReputation := by
  cases hcast : votes.get id with
  | none =>
    have hsettled : settled cfg votes approved id = penalize := by
      funext reviewer
      rw [settled, hcast]
    have hpenalty : (0 : ℚ) ≤ missedVotePenalty * n := mul_nonneg (by norm_num [missedVotePenalty]) n.cast_nonneg
    rw [hsettled, (iterate_penalize h (hn hcast)).2]
    exact max_le h.nonneg (by linarith)
  | some cast =>
    have hsome : (votes.get id).isSome = true := by rw [hcast, Option.isSome_some]
    have hsame : ((settled cfg votes approved id)^[n] reviewer).miningReputation =
        reviewer.miningReputation := by
      induction n with
      | zero => rfl
      | succ n ih =>
        rw [Function.iterate_succ_apply', settled_miningReputation hsome]
        exact ih fun hnone => absurd hnone (by simp [hcast])
    exact hsame.le

-- A settlement whose penalties can be paid raises nobody's reputation.
theorem Affordable.settled_le (h : Affordable votes ids w) (hs : reviewer.Sound)
    (hget : w.reviewers.get id = some reviewer) :
    ((settled cfg votes approved id)^[ids.count id] reviewer).miningReputation ≤
      reviewer.miningReputation := by
  by_cases hm : id ∈ ids
  case pos => exact iterate_settled_le hs.score fun hcast => h id hm hcast reviewer hget
  case neg =>
    rw [List.count_eq_zero_of_not_mem hm]
    exact le_rfl

end Reviewer

end Mines
