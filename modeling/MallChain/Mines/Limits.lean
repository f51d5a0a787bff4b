import MallChain.Mines.System

namespace Mines

open Interleaving

inductive SubmissionRequest
  | submit (userId id : String) (body : SubmissionBody) (now : ℤ) (shuffled : List String)
  | update (userId id : String) (body : SubmissionBody)

def SubmissionRequest.handler (cfg : Config) : SubmissionRequest → Handler Unit
  | .submit userId id body now shuffled => Mines.submit cfg userId id body now shuffled
  | .update userId id body              => Mines.update userId id body

def dayMs : ℤ := 24 * 60 * 60 * 1000

-- A submission of a user that was not rejected.
def TaskSubmission.counts (user : String) (s : TaskSubmission) : Bool :=
  s.minerId = user ∧ s.status ≠ "rejected"

-- A submission of a user to a campaign that was not rejected.
def TaskSubmission.completes (user campaign : String) (s : TaskSubmission) : Bool :=
  s.counts user ∧ s.campaignId = some campaign

def Campaign.maxPerUser (c : Campaign) : ℕ :=
  if c.maxCompletionsPerUser = 0 then 1 else c.maxCompletionsPerUser

namespace World

variable (w : World)

def completions (user campaign : String) : ℕ :=
  (w.submissions.values.filter (·.completes user campaign)).length

-- What a submission is worth on a platform.
def rateOn (platform : String) (s : TaskSubmission) : ℚ :=
  match s.campaignId.bind w.campaigns.get with
  | some c => if c.platform = platform then c.ratePerTask else 0
  | none   => 0

-- What the submissions of a user on a platform that were created in some time are worth.
def committed (user platform : String) (first last : ℤ) : ℚ :=
  w.submissions.sum fun _ s =>
    if s.counts user ∧ first ≤ s.createdAt ∧ s.createdAt ≤ last then w.rateOn platform s else 0

end World

structure Limited (cfg : Config) (user : String) (w : World) : Prop where
  completions : ∀ {campaign c}, w.campaigns.get campaign = some c →
    w.completions user campaign ≤ c.maxPerUser
  cooldown    : ∀ {campaign c id id' s s'}, w.campaigns.get campaign = some c → id ≠ id' →
    w.submissions.get id = some s → w.submissions.get id' = some s' →
    s.completes user campaign = true → s'.completes user campaign = true →
    c.cooldownSeconds * 1000 ≤ |s.createdAt - s'.createdAt|
  daily       : ∀ platform first, w.committed user platform first (first + dayMs) ≤
    cfg.dailyCapMlpts platform

-- The rate of a campaign is never negative.
def Priced (w : World) : Prop :=
  ∀ campaign c, w.campaigns.get campaign = some c → 0 ≤ c.ratePerTask

-- The checks hold of the store when a submission is inserted, also the one of the daily cap, and it is
-- dated with the time of the request. An update leaves the fields that the checks read.
def limitGuard (cfg : Config) : Label → World → Prop
  | .inserting _ row now, w =>
    checkCampaignAbuseLimits cfg row.minerId row.campaignId now w = true ∧ row.createdAt = now ∧
      ((row.campaignId.bind w.campaigns.get).all fun c =>
        w.committed row.minerId c.platform (now - dayMs) (now + dayMs) + c.ratePerTask ≤
          cfg.dailyCapMlpts c.platform) = true
  | .updating id update, w => ∀ s, w.submissions.get id = some s →
    (update s).minerId = s.minerId ∧ (update s).campaignId = s.campaignId ∧
      (update s).status = s.status ∧ (update s).createdAt = s.createdAt
  | _, _ => True

-- What the steps of these requests do to the submissions.
inductive SubmissionEffect : Label → (World → World) → Prop
  | silent {label : Label} : SubmissionEffect label id
  | reviewers {update : World → World} : (∀ w, ∃ reviewers, update w = { w with reviewers }) →
    SubmissionEffect .write update
  | insert {id : String} {row : TaskSubmission} {now : ℤ} :
    SubmissionEffect (.inserting id row now) (insertSubmission id row)
  | update {id : String} {f : TaskSubmission → TaskSubmission} :
    SubmissionEffect (.updating id f) (·.updateSubmission id f)
  | assign {id : String} {task : Doc} : task.current.status = task.loaded.status →
    SubmissionEffect .write (·.updateSubmission id task.save)

variable {cfg : Config} {user campaign platform : String} {w w' : World} {id : String}
  {row : TaskSubmission} {now : ℤ}

theorem submit_submissionSteps {userId : String} {body : SubmissionBody} {shuffled : List String} :
    (submit cfg userId id body now shuffled).Steps SubmissionEffect := by
  refine .bind (.read .silent) fun admitted => ?_
  refine .ite (fun _ => trivial) fun _ => ?_
  refine .bind (.act .insert) fun isNew => ?_
  refine .ite (fun _ => ?_) fun _ => trivial
  refine .bind (.read .silent) fun pool => ?_
  refine .ite (fun _ => trivial) fun _ => ?_
  refine .bind (.write (.assign rfl)) fun _ => ?_
  exact .write (.reviewers (countAssigned_eq _))

theorem update_submissionSteps {userId : String} {body : SubmissionBody} :
    (Mines.update userId id body).Steps SubmissionEffect := by
  refine .bind (.read .silent) fun stored => ?_
  split
  case h_2 => trivial
  case h_1 stored => exact .ite (fun _ => trivial) fun _ => .write .update

theorem World.completions_eq : (w.completions user campaign : ℤ) =
    w.submissions.sum fun _ s => if s.completes user campaign = true then 1 else 0 :=
  KVStore.length_filter_values

section Update

-- Submissions that differ in nothing that the limits are about.
def SameLimits (s s' : TaskSubmission) : Prop :=
  s'.minerId = s.minerId ∧ s'.campaignId = s.campaignId ∧ s'.status = s.status ∧
    s'.createdAt = s.createdAt

theorem SameLimits.completes {s s' : TaskSubmission} (h : SameLimits s s') :
    s'.completes user campaign = s.completes user campaign := by
  obtain ⟨hminer, hcampaign, hstatus, _⟩ := h
  rw [TaskSubmission.completes, TaskSubmission.completes, TaskSubmission.counts, TaskSubmission.counts,
    hminer, hcampaign, hstatus]

theorem Limited.congr (h : Limited cfg user w) (hc : w'.campaigns = w.campaigns)
    (hs : w'.submissions = w.submissions) : Limited cfg user w' := by
  constructor
  case completions =>
    rw [hc]
    intro campaign c hget
    rw [World.completions, hs]
    exact h.completions hget
  case cooldown =>
    rw [hc, hs]
    exact h.cooldown
  case daily =>
    intro platform first
    rw [World.committed, hs]
    simp only [World.rateOn, hc]
    exact h.daily platform first

theorem Limited.updateSubmission {f : TaskSubmission → TaskSubmission} (h : Limited cfg user w)
    (hf : ∀ s, w.submissions.get id = some s → SameLimits s (f s)) :
    Limited cfg user (w.updateSubmission id f) := by
  rw [World.updateSubmission]
  cases hget : w.submissions.get id with
  | none   => exact h
  | some s =>
    have hsame := hf s hget
    constructor
    case completions =>
      intro campaign c hc
      have hle := h.completions hc
      rw [← Int.ofNat_le, World.completions_eq] at hle ⊢
      rw [KVStore.sum_set_old hget, hsame.completes]
      simpa using hle
    case cooldown =>
      -- Both are as they were before in what is compared.
      have hback : ∀ {id' s'}, (w.submissions.set id (f s)).get id' = some s' →
          ∃ s₀, w.submissions.get id' = some s₀ ∧ SameLimits s₀ s' := by
        intro id' s' hs'
        rw [KVStore.get_set] at hs'
        split_ifs at hs' with heq
        case pos =>
          cases hs'
          subst heq
          exact ⟨s, hget, hsame⟩
        case neg => exact ⟨s', hs', rfl, rfl, rfl, rfl⟩
      intro campaign c id₁ id₂ s₁ s₂ hc hne hs₁ hs₂ hcompletes₁ hcompletes₂
      obtain ⟨t₁, ht₁, hsame₁⟩ := hback hs₁
      obtain ⟨t₂, ht₂, hsame₂⟩ := hback hs₂
      rw [hsame₁.completes] at hcompletes₁
      rw [hsame₂.completes] at hcompletes₂
      rw [hsame₁.2.2.2, hsame₂.2.2.2]
      exact h.cooldown hc hne ht₁ ht₂ hcompletes₁ hcompletes₂
    case daily =>
      intro platform first
      obtain ⟨hminer, hcampaign, hstatus, hcreated⟩ := hsame
      have hle := h.daily platform first
      rw [World.committed] at hle ⊢
      rw [KVStore.sum_set_old hget]
      simpa [World.rateOn, TaskSubmission.counts, hminer, hcampaign, hstatus, hcreated] using hle

end Update

section Insert

variable {c : Campaign}

theorem TaskSubmission.completes_eq_true {s : TaskSubmission} :
    s.completes user campaign = true ↔ s.counts user = true ∧ s.campaignId = some campaign := by
  rw [completes, decide_eq_true_eq]

-- What the check has found of the store.
theorem checked (h : checkCampaignAbuseLimits cfg user (some campaign) now w = true)
    (hc : w.campaigns.get campaign = some c) :
    w.completions user campaign < c.maxPerUser ∧
      ∀ id s, w.submissions.get id = some s → s.completes user campaign = true →
        c.cooldownSeconds * 1000 ≤ |now - s.createdAt| := by
  rw [checkCampaignAbuseLimits] at h
  simp only [hc] at h
  obtain ⟨_, _, hcount, hcooldown, _⟩ := of_decide_eq_true h
  have hfilter : (w.submissions.values.filter fun s =>
      s.minerId = user ∧ s.campaignId = some campaign ∧ s.status ≠ "rejected") =
      w.submissions.values.filter (·.completes user campaign) := by
    apply List.filter_congr
    intro s _
    simp only [TaskSubmission.completes, TaskSubmission.counts, decide_eq_true_eq, decide_eq_decide]
    tauto
  rw [hfilter] at hcount hcooldown
  refine ⟨hcount, ?_⟩
  intro id s hs hcompletes
  by_cases hpos : c.cooldownSeconds * 1000 > 0
  case pos =>
    have hmem : s ∈ w.submissions.values.filter (·.completes user campaign) :=
      List.mem_filter.mpr ⟨KVStore.mem_values_iff.mpr ⟨id, hs⟩, hcompletes⟩
    exact (hcooldown hpos s hmem).le.trans (le_abs_self _)
  case neg => exact (not_lt.mp hpos).trans (abs_nonneg _)

theorem rateOn_nonneg (hp : Priced w) {s : TaskSubmission} : 0 ≤ w.rateOn platform s := by
  rw [World.rateOn]
  split
  case h_1 c hc =>
    split_ifs
    case pos =>
      obtain ⟨campaign, _, hget⟩ := Option.bind_eq_some_iff.mp hc
      exact hp campaign c hget
    case neg => exact le_refl 0
  case h_2 => exact le_refl 0

-- A longer time has not less in it.
theorem committed_mono {first last first' last' : ℤ} (hp : Priced w) (hfirst : first' ≤ first)
    (hlast : last ≤ last') :
    w.committed user platform first last ≤ w.committed user platform first' last' := by
  apply KVStore.sum_le
  intro id s _
  by_cases h : s.counts user = true ∧ first ≤ s.createdAt ∧ s.createdAt ≤ last
  case pos =>
    obtain ⟨hcounts, hge, hle⟩ := h
    rw [if_pos ⟨hcounts, hge, hle⟩, if_pos ⟨hcounts, hfirst.trans hge, hle.trans hlast⟩]
  case neg =>
    rw [if_neg h]
    split_ifs
    case pos => exact rateOn_nonneg hp
    case neg => exact le_refl 0

theorem Limited.insert (h : Limited cfg user w) (hp : Priced w)
    (hg : limitGuard cfg (.inserting id row now) w) :
    Limited cfg user (insertSubmission id row w) := by
  obtain ⟨hcheck, hcreated, hdaily⟩ := hg
  rw [insertSubmission]
  split_ifs with hnew
  case neg => exact h
  case pos =>
    have hget : w.submissions.get id = none := Option.isNone_iff_eq_none.mp hnew
    constructor
    case completions =>
      intro campaign c hc
      have hle := h.completions hc
      rw [← Int.ofNat_le, World.completions_eq, KVStore.sum_set_new hget, ← World.completions_eq]
      split_ifs with hcompletes
      case neg => simpa using hle
      case pos =>
        obtain ⟨hcounts, hcampaign⟩ := TaskSubmission.completes_eq_true.mp hcompletes
        obtain ⟨hminer, _⟩ := of_decide_eq_true hcounts
        rw [hminer, hcampaign] at hcheck
        have hlt := (checked hcheck hc).1
        omega
    case cooldown =>
      intro campaign c id₁ id₂ s₁ s₂ hc hne hs₁ hs₂ hcompletes₁ hcompletes₂
      -- The one that is new was held against all others.
      have hrow : ∀ {id' s'}, w.submissions.get id' = some s' → row.completes user campaign = true →
          s'.completes user campaign = true →
          c.cooldownSeconds * 1000 ≤ |row.createdAt - s'.createdAt| := by
        intro id' s' hs' hr hcompletes'
        obtain ⟨hcounts, hcampaign⟩ := TaskSubmission.completes_eq_true.mp hr
        obtain ⟨hminer, _⟩ := of_decide_eq_true hcounts
        rw [hminer, hcampaign] at hcheck
        rw [hcreated]
        exact (checked hcheck hc).2 id' s' hs' hcompletes'
      dsimp only at hs₁ hs₂
      rw [KVStore.get_set] at hs₁ hs₂
      split_ifs at hs₁ hs₂ with h₁ h₂ h₂
      case pos => exact absurd (h₁.trans h₂.symm) hne
      case neg =>
        cases hs₁
        exact hrow hs₂ hcompletes₁ hcompletes₂
      case pos =>
        cases hs₂
        rw [abs_sub_comm]
        exact hrow hs₁ hcompletes₂ hcompletes₁
      case neg => exact h.cooldown hc hne hs₁ hs₂ hcompletes₁ hcompletes₂
    case daily =>
      intro platform first
      have hle := h.daily platform first
      have hsum : World.committed { w with submissions := w.submissions.set id row } user platform
          first (first + dayMs) = w.committed user platform first (first + dayMs) +
            if row.counts user ∧ first ≤ row.createdAt ∧ row.createdAt ≤ first + dayMs then
              w.rateOn platform row else 0 := by
        rw [World.committed, KVStore.sum_set_new hget]
        rfl
      rw [hsum]
      split_ifs with hrow
      case neg => rwa [add_zero]
      case pos =>
        obtain ⟨hcounts, hge, hlt⟩ := hrow
        obtain ⟨hminer, _⟩ := of_decide_eq_true hcounts
        rw [hcreated] at hge hlt
        rw [World.rateOn]
        cases hc : row.campaignId.bind w.campaigns.get with
        | none   => rwa [add_zero]
        | some c =>
          dsimp only
          split_ifs with hplatform
          case neg => rwa [add_zero]
          case pos =>
            rw [hc, Option.all_some, decide_eq_true_eq, hminer, hplatform] at hdaily
            have hmono : w.committed user platform first (first + dayMs) ≤
                w.committed user platform (now - dayMs) (now + dayMs) :=
              committed_mono hp (by omega) (by omega)
            linarith only [hmono, hdaily]

end Insert

theorem SubmissionEffect.priced {label : Label} {update : World → World} (h : Priced w)
    (he : SubmissionEffect label update) : Priced (update w) := by
  cases he with
  | silent => exact h
  | reviewers hu =>
    obtain ⟨reviewers, hw⟩ := hu w
    rw [hw]
    exact h
  | insert =>
    rw [insertSubmission]
    split_ifs
    case pos => exact h
    case neg => exact h
  | update =>
    obtain ⟨submissions, hw⟩ := updateSubmission_eq _ _ w
    dsimp only
    rw [hw]
    exact h
  | assign _ =>
    obtain ⟨submissions, hw⟩ := updateSubmission_eq _ _ w
    dsimp only
    rw [hw]
    exact h

theorem SubmissionEffect.limited {label : Label} {update : World → World} (h : Limited cfg user w)
    (hp : Priced w) (he : SubmissionEffect label update) (hg : limitGuard cfg label w) :
    Limited cfg user (update w) := by
  cases he with
  | silent => exact h
  | reviewers hu =>
    obtain ⟨reviewers, hw⟩ := hu w
    rw [hw]
    exact h.congr rfl rfl
  | insert => exact h.insert hp hg
  | update =>
    apply h.updateSubmission
    intro s hs
    exact hg s hs
  | assign hstatus =>
    apply h.updateSubmission
    intro s _
    exact ⟨rfl, rfl, if_pos hstatus, rfl⟩

def limitContract (cfg : Config) (user : String) : Contract Label World Unit where
  invariant w _ := Limited cfg user w ∧ Priced w
  grows _ _     := True
  guard         := limitGuard cfg
  refl _        := trivial
  trans _ _     := trivial

def submissionSystem (cfg : Config) (user : String) :
    TransitionSystem (Pool Label World) (Action SubmissionRequest) :=
  system (fun w => Limited cfg user w ∧ Priced w) (SubmissionRequest.handler cfg)

instance : (label : Label) → (w : World) → Decidable (limitGuard cfg label w)
  | .inserting _ _ _, _   => inferInstanceAs (Decidable (_ ∧ _ ∧ _))
  | .updating id update, w => decidable_of_iff
    ((w.submissions.get id).all fun s =>
      (update s).minerId = s.minerId ∧ (update s).campaignId = s.campaignId ∧
        (update s).status = s.status ∧ (update s).createdAt = s.createdAt) (by
      rw [limitGuard]
      cases w.submissions.get id <;> simp)
  | .read, _ | .write, _ | .deciding _ _, _ | .settling _ _ _, _ | .rewarding _ _, _
  | .charging _ _, _ | .saveVote _ _, _ | .failing, _ | .staking _ _, _ | .unstaking _ _ _ _, _
  | .adjusting _ _, _ => .isTrue trivial

namespace Sample

def tiktok : Campaign where
  creatorId       := "carol"
  platform        := "tiktok"
  ratePerTask     := 1
  budgetRemaining := 100

def campaigned : World where
  campaigns := KVStore.empty.set "campaign" tiktok

theorem campaigned_priced : Priced campaigned := by
  intro campaign c hc
  rw [campaigned, KVStore.get_set] at hc
  split_ifs at hc
  case pos =>
    cases hc
    decide
  case neg => cases hc

theorem campaigned_limited : Limited config "alice" campaigned where
  completions _         := Nat.zero_le _
  cooldown _ _ hs       := by cases hs
  daily platform first  := by
    rw [World.committed, campaigned, KVStore.sum_empty, config]
    norm_num

def submission (id : String) : SubmissionRequest :=
  .submit "alice" id { named := [.campaignId (some "campaign")] } 0 []

def submitted (actions : List (Action SubmissionRequest)) : Pool Label World :=
  Pool.execs (SubmissionRequest.handler config) { store := campaigned, running := [] } actions

def overlappingSubmissions : List (Action SubmissionRequest) :=
  [.start (submission "task"), .start (submission "task2"), .run 0, .run 1, .run 0, .run 1]

end Sample

end Mines
