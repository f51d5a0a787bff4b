import MallChain.Mines.System

namespace Mines

open Interleaving

namespace World

-- The rewards that were paid for a campaign.
def paid (id : String) (w : World) : ℚ :=
  (w.events.map fun
    | .rewarded _ campaign amount => if campaign = some id then amount else 0
    | _                           => 0).sum

def charged (id : String) (w : World) : ℚ :=
  (w.events.map fun
    | .charged campaign amount => if campaign = id then amount else 0
    | _                        => 0).sum

-- The rewards that were paid and are not yet taken off the budget.
def outstanding (id : String) (w : World) : ℚ :=
  w.paid id - w.charged id

end World

-- The budget covers a reward together with those that are still to be taken off.
def covers (campaign : Option String) (reward : ℚ) (w : World) : Bool :=
  campaign.all fun id =>
    (w.campaigns.get id).any fun c => reward + w.outstanding id ≤ c.budgetRemaining

def chargeable (campaign : Option String) (amount : ℚ) (w : World) : Bool :=
  campaign.all fun id => (w.campaigns.get id).any fun c =>
    amount ≤ c.budgetRemaining ∧ Binary64.AddExact c.budgetRemaining (-amount)

def budgetGuard : Label → World → Prop
  | .settling _ task reward, w => task.current.status = "auto_approved" →
    covers task.current.campaignId reward w ∧ chargeable task.current.campaignId reward w
  | .rewarding campaign reward, w => covers campaign reward w
  | .charging campaign amount, w  => chargeable (some campaign) amount w
  | _, _ => True

structure Budgeted (w : World) : Prop where
  unopened : ∀ {id}, w.campaigns.get id = none → w.paid id = 0 ∧ w.charged id = 0
  funded   : ∀ {id budget}, .funded id budget ∈ w.events → ∃ c, w.campaigns.get id = some c ∧
    c.budgetRemaining = budget - w.charged id ∧ 0 ≤ c.budgetRemaining ∧ w.paid id ≤ budget

variable {w w' : World} {id : String} {amount : ℚ} {campaign : Option String} {e : Event}

theorem covers_some : covers (some id) amount w = true ↔
    ∃ c, w.campaigns.get id = some c ∧ amount + w.outstanding id ≤ c.budgetRemaining := by
  simp [covers, Option.any_eq_true]

theorem chargeable_some : chargeable (some id) amount w = true ↔
    ∃ c, w.campaigns.get id = some c ∧ amount ≤ c.budgetRemaining ∧
      Binary64.AddExact c.budgetRemaining (-amount) := by
  simp [chargeable, Option.any_eq_true]

theorem Budgeted.congr (h : Budgeted w) (hc : w'.campaigns = w.campaigns)
    (he : w'.events = w.events) : Budgeted w' := by
  have hp : ∀ id, w'.paid id = w.paid id := by
    intro id
    rw [World.paid, he, World.paid]
  have hd : ∀ id, w'.charged id = w.charged id := by
    intro id
    rw [World.charged, he, World.charged]
  refine ⟨?_, ?_⟩
  case refine_1 =>
    intro id hn
    rw [hp, hd]
    exact h.unopened (hc ▸ hn)
  case refine_2 =>
    intro id budget hf
    rw [hp, hd, hc]
    exact h.funded (he ▸ hf)

-- An event that moves no budget.
def Event.isMoney : Event → Bool
  | .funded _ _ | .rewarded _ _ _ | .charged _ _ => true
  | _ => false

theorem Budgeted.record (h : Budgeted w) (he : e.isMoney = false) : Budgeted (w.record e) := by
  have hp : ∀ id, (w.record e).paid id = w.paid id := by
    intro id
    cases e <;> simp_all [World.paid, World.record, Event.isMoney]
  have hd : ∀ id, (w.record e).charged id = w.charged id := by
    intro id
    cases e <;> simp_all [World.charged, World.record, Event.isMoney]
  refine ⟨?_, ?_⟩
  case refine_1 =>
    intro id hn
    rw [hp, hd]
    exact h.unopened hn
  case refine_2 =>
    intro id budget hf
    rw [hp, hd]
    refine h.funded ((List.mem_cons.mp hf).resolve_left ?_)
    intro heq
    subst heq
    cases he

theorem Budgeted.reward {submission : String} (h : Budgeted w) (hg : covers campaign amount w = true)
    (hc : w'.campaigns = w.campaigns) (he : w'.events = .rewarded submission campaign amount :: w.events) :
    Budgeted w' := by
  have hd : ∀ id, w'.charged id = w.charged id := by
    intro id
    simp [World.charged, he]
  have hp : ∀ id, w'.paid id = w.paid id + if campaign = some id then amount else 0 := by
    intro id
    simp [World.paid, he, add_comm]
  refine ⟨?_, ?_⟩
  case refine_1 =>
    intro id hn
    rw [hc] at hn
    have hne : campaign ≠ some id := by
      intro heq
      subst heq
      obtain ⟨c, hs, _⟩ := covers_some.mp hg
      rw [hn] at hs
      cases hs
    rw [hp, hd, if_neg hne, add_zero]
    exact h.unopened hn
  case refine_2 =>
    intro id budget hf
    rw [he] at hf
    obtain ⟨c, hs, hb, hz, hle⟩ := h.funded ((List.mem_cons.mp hf).resolve_left (by simp))
    rw [hp, hd, hc]
    refine ⟨c, hs, hb, hz, ?_⟩
    split_ifs with heq
    case neg => rwa [add_zero]
    case pos =>
      subst heq
      obtain ⟨c', hs', hle'⟩ := covers_some.mp hg
      cases hs.symm.trans hs'
      rw [World.outstanding] at hle'
      linarith

theorem Budgeted.charge (h : Budgeted w) (hg : chargeable (some id) amount w = true) :
    Budgeted (w.chargeCampaign id amount) := by
  obtain ⟨c, hs, hle, hex⟩ := chargeable_some.mp hg
  rw [Binary64.AddExact] at hex
  have hcampaigns : (w.chargeCampaign id amount).campaigns = w.campaigns.set id { c with
      completionsCount := c.completionsCount + 1
      budgetRemaining  := c.budgetRemaining + -amount } := by
    rw [← hex]
    simp only [World.chargeCampaign, World.record, World.updateCampaign, hs]
  have hevents : (w.chargeCampaign id amount).events = .charged id amount :: w.events := by
    simp only [World.chargeCampaign, World.record, World.updateCampaign, hs]
  have hp : ∀ id', (w.chargeCampaign id amount).paid id' = w.paid id' := by
    intro id'
    simp [World.paid, hevents]
  have hd : ∀ id', (w.chargeCampaign id amount).charged id' =
      w.charged id' + if id = id' then amount else 0 := by
    intro id'
    simp [World.charged, hevents, add_comm]
  refine ⟨?_, ?_⟩
  case refine_1 =>
    intro id' hn
    rw [hcampaigns, KVStore.get_set] at hn
    split_ifs at hn with heq
    rw [hp, hd, if_neg (Ne.symm heq), add_zero]
    exact h.unopened hn
  case refine_2 =>
    intro id' budget hf
    rw [hevents] at hf
    obtain ⟨c', hs', hb, hz, hle'⟩ := h.funded ((List.mem_cons.mp hf).resolve_left (by simp))
    rw [hp, hd, hcampaigns, KVStore.get_set]
    by_cases heq : id' = id
    case pos =>
      subst heq
      cases hs.symm.trans hs'
      rw [if_pos rfl, if_pos rfl]
      exact ⟨_, rfl, by dsimp only; linarith, by dsimp only; linarith, hle'⟩
    case neg =>
      rw [if_neg heq, if_neg (Ne.symm heq), add_zero]
      exact ⟨c', hs', hb, hz, hle'⟩

theorem Budgeted.fund {userId platform : String} {ratePerTask budget : ℚ} (h : Budgeted w)
    (hb : 0 < budget) : Budgeted (fundCampaign userId id platform ratePerTask budget w) := by
  rw [fundCampaign]
  split
  case h_2 => exact h
  case h_1 user hu hn =>
    split_ifs with hle
    case neg => exact h
    case pos =>
      obtain ⟨hp, hd⟩ := h.unopened hn
      generalize hw' : World.record _ _ = w'
      have hcampaigns : w'.campaigns = w.campaigns.set id {
          creatorId       := userId
          platform        := platform
          ratePerTask     := ratePerTask
          budgetRemaining := budget } := by
        rw [← hw']
        rfl
      have hevents : w'.events = .funded id budget :: w.events := by
        rw [← hw']
        simp only [World.record, World.addTransaction, World.incBalance, World.updateUser, hu]
      have hpaid : ∀ id', w'.paid id' = w.paid id' := by
        intro id'
        simp [World.paid, hevents]
      have hcharged : ∀ id', w'.charged id' = w.charged id' := by
        intro id'
        simp [World.charged, hevents]
      refine ⟨?_, ?_⟩
      case refine_1 =>
        intro id' hn'
        rw [hcampaigns, KVStore.get_set] at hn'
        split_ifs at hn' with heq
        rw [hpaid, hcharged]
        exact h.unopened hn'
      case refine_2 =>
        intro id' budget' hf
        rw [hevents] at hf
        rw [hpaid, hcharged, hcampaigns]
        cases List.mem_cons.mp hf with
        | inl heq =>
          cases heq
          rw [KVStore.get_set_self, hp, hd]
          exact ⟨_, rfl, by simp, hb.le, hb.le⟩
        | inr hf =>
          obtain ⟨c, hs, hrest⟩ := h.funded hf
          have hne : id' ≠ id := by
            intro heq
            subst heq
            rw [hn] at hs
            cases hs
          rw [KVStore.get_set_ne hne]
          exact ⟨c, hs, hrest⟩

variable {cfg : Config}

theorem Budgeted.settle {task : Doc} {approved : Bool} (h : Budgeted w)
    (ha : task.current.status = if approved then "auto_approved" else "rejected")
    (hg : budgetGuard (.settling id task amount) w) :
    Budgeted (commitSettlement cfg id task approved amount w) := by
  obtain ⟨submissions, hs⟩ := updateSubmission_eq id task.save w
  cases approved with
  | false =>
    obtain ⟨users, reviewers, hw⟩ := commitSettlement_rejected cfg id task amount w
    rw [hw, hs]
    exact h.congr rfl rfl
  | true =>
    obtain ⟨hcover, hcharge⟩ := hg ha
    obtain ⟨w₁, w₂, users, reviewers, hw₁, hw₂, hw⟩ :=
      commitSettlement_approved cfg id task amount w
    have h₁ : Budgeted w₁ ∧ w₁.campaigns = w.campaigns := by
      rw [hw₁, hs]
      split_ifs
      case neg => exact ⟨h.congr rfl rfl, rfl⟩
      case pos =>
        obtain ⟨users, transactions, hr⟩ := reward_eq id task.current.rewardCurrency task.current amount
          { w with submissions }
        rw [hr]
        exact ⟨h.reward hcover rfl rfl, rfl⟩
    have h₂ : Budgeted w₂ := by
      rw [hw₂]
      cases hid : task.current.campaignId with
      | none            => exact h₁.1
      | some campaignId =>
        apply h₁.1.charge
        rw [chargeable, h₁.2, ← hid]
        exact hcharge
    rw [hw]
    exact h₂.congr rfl rfl

def budgetContract : Contract Label World Unit where
  invariant w _ := Budgeted w
  grows _ _     := True
  guard         := budgetGuard
  refl _        := trivial
  trans _ _     := trivial

theorem Budgeted.review {label : Label} {update : World → World} (h : Budgeted w)
    (he : ReviewEffect cfg label update) (hg : budgetGuard label w) : Budgeted (update w) := by
  cases he with
  | silent => exact h
  | reviewers hw =>
    obtain ⟨reviewers, hw⟩ := hw w
    rw [hw]
    exact h.congr rfl rfl
  | @saveVote id task =>
    obtain ⟨submissions, hw⟩ := updateSubmission_eq id task.save w
    dsimp only
    rw [hw]
    exact h.congr rfl rfl
  | settle ha   => exact h.settle ha hg
  | acknowledge => exact h.record rfl

theorem Budgeted.effect {label : Label} {update : World → World} (h : Budgeted w)
    (he : Effect cfg label update) (hg : budgetGuard label w) : Budgeted (update w) := by
  cases he with
  | review he => exact h.review he hg
  | submissions hw =>
    obtain ⟨submissions, hw⟩ := hw w
    rw [hw]
    exact h.congr rfl rfl
  | fund hb => exact h.fund hb
  | decide hw =>
    obtain ⟨submissions, hw | hw⟩ := hw w
    case inl =>
      rw [hw]
      exact h.congr rfl rfl
    case inr =>
      have h' : Budgeted { w with submissions } := h.congr rfl rfl
      rw [hw]
      exact h'.record rfl
  | reward =>
    obtain ⟨users, transactions, hw⟩ := reward_eq _ _ _ _ w
    rw [hw]
    exact h.reward hg rfl rfl
  | panelReward => exact h.reward hg rfl rfl
  | charge      => exact h.charge hg
  | stake =>
    obtain ⟨users, reviewers, hw⟩ := addStake_eq _ _ w
    rw [hw]
    exact h.congr rfl rfl
  | unstake =>
    obtain ⟨users, reviewers, hw⟩ := removeStake_eq _ _ _ w
    rw [hw]
    exact h.congr rfl rfl
  | @adjust user amount =>
    obtain ⟨users, hw⟩ := incBalance_eq user amount w
    have h' : Budgeted { w with users } := h.congr rfl rfl
    dsimp only
    split
    case h_1 => exact h
    case h_2 =>
      split_ifs
      case neg => exact h
      case pos =>
        rw [hw]
        exact h'.record rfl

def budgetSystem (cfg : Config) : TransitionSystem (Pool Label World) (Action Request) :=
  system (fun w => w.events = [] ∧ w.campaigns = .empty) (Request.handler cfg)

instance : (label : Label) → (w : World) → Decidable (budgetGuard label w)
  | .settling _ _ _, _  => inferInstanceAs (Decidable (_ → _))
  | .rewarding _ _, _   => inferInstanceAs (Decidable (_ = true))
  | .charging _ _, _    => inferInstanceAs (Decidable (_ = true))
  | .read, _ | .write, _ | .inserting _ _ _, _ | .updating _ _, _
  | .deciding _ _, _ | .saveVote _ _, _ | .failing, _ | .staking _ _, _
  | .unstaking _ _ _ _, _ | .adjusting _ _, _ => .isTrue trivial

namespace Sample

def creator : World where
  users := KVStore.empty.set "carol" { mlptsBalance := 100 }

-- Two submissions of two users to a campaign of some budget, and the approval of both.
def twoApprovals (budget : ℚ) : List (Action Request) :=
  inTurn 5 [.campaignsCreate "carol" "campaign" "youtube" "like" 1 budget,
    .submit "alice" "first" { named := [.campaignId (some "campaign")] } 0 [],
    .submit "bob" "second" { named := [.campaignId (some "campaign")] } 0 [],
    .approve "first" 0 true, .approve "second" 0 true]

def approved (budget : ℚ) : Pool Label World :=
  Pool.execs (Request.handler config) { store := creator, running := [] } (twoApprovals budget)

end Sample

end Mines
