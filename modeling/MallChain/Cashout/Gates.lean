import MallChain.Cashout.System

namespace Cashout

open Interleaving

-- A withdrawal of a wallet in seven days that is not failed or refunded.
def WithdrawalRequest.countsIn (walletAddress : String) (first : ℤ) (withdrawal : WithdrawalRequest) : Bool :=
  withdrawal.walletAddress = walletAddress ∧ first ≤ withdrawal.createdAt ∧
    withdrawal.createdAt ≤ first + windowMs ∧ withdrawal.status.counts

namespace World

variable (w : World)

def created (walletAddress : String) (first : ℤ) : ℕ :=
  (w.withdrawals.values.filter (·.countsIn walletAddress first)).length

-- The limit of the wallet of a withdrawal is not reached when it was created.
def HasRoom (cfg : Config) (withdrawal : WithdrawalRequest) : Prop :=
  w.counted withdrawal.walletAddress (withdrawal.createdAt - windowMs) < cfg.weeklyLimit

-- Whether a withdrawal was created with a review.
def isUsed (reviewId : String) : Bool :=
  w.withdrawals.values.any (·.amlReviewId = some reviewId)

end World

structure Gated (cfg : Config) (w : World) : Prop where
  weekly : ∀ walletAddress first, w.created walletAddress first ≤ cfg.weeklyLimit
  single : ∀ {reviewId id id' withdrawal withdrawal'}, w.withdrawals.get id = some withdrawal →
    w.withdrawals.get id' = some withdrawal' → withdrawal.amlReviewId = some reviewId →
    withdrawal'.amlReviewId = some reviewId → id = id'

-- The limit leaves room, and the review is not used, when a withdrawal is created. There is room too if
-- one that is failed or refunded gets another status.
def gateGuard (cfg : Config) : Label → World → Prop
  | .creating _ withdrawal, w =>
    w.HasRoom cfg withdrawal ∧ withdrawal.amlReviewId.all (fun reviewId => !w.isUsed reviewId) = true
  | .savingWithdrawal _ withdrawalId d, w => ∀ stored, w.withdrawals.get withdrawalId = some stored →
    stored.status.counts = false → (saveWithdrawalOn d stored).status.counts = true → w.HasRoom cfg stored
  | _, _ => True

variable {cfg : Config} {w w' : World} {walletAddress id : String} {first : ℤ}
  {withdrawal stored : WithdrawalRequest}

theorem World.created_eq : (w.created walletAddress first : ℤ) =
    w.withdrawals.sum fun _ withdrawal => if withdrawal.countsIn walletAddress first = true then 1 else 0 :=
  KVStore.length_filter_values

-- What is counted when a withdrawal is created is not less than in any seven days with it.
theorem World.created_lt (h : withdrawal.countsIn walletAddress first = true) (hr : w.HasRoom cfg withdrawal) :
    w.created walletAddress first < cfg.weeklyLimit := by
  rw [WithdrawalRequest.countsIn, decide_eq_true_eq] at h
  obtain ⟨hwallet, _, hle, _⟩ := h
  rw [HasRoom, hwallet] at hr
  refine lt_of_le_of_lt (List.Sublist.length_le (List.monotone_filter_right _ ?_)) hr
  intro other hother
  rw [WithdrawalRequest.countsIn, decide_eq_true_eq] at hother
  obtain ⟨hwallet', hge, _, hcounts⟩ := hother
  rw [decide_eq_true_eq]
  exact ⟨hwallet', by omega, hcounts⟩

theorem Gated.congr (h : Gated cfg w) (hw : w'.withdrawals = w.withdrawals) : Gated cfg w' where
  weekly walletAddress first := by
    rw [World.created, hw]
    exact h.weekly walletAddress first
  single := by
    rw [hw]
    exact h.single

-- A withdrawal is stored that was counted before or for which there is room, with a review of its own.
theorem Gated.set (h : Gated cfg w) (hw : w'.withdrawals = w.withdrawals.set id withdrawal)
    (hroom : ∀ walletAddress first, withdrawal.countsIn walletAddress first = true →
      (w.withdrawals.get id).any (·.countsIn walletAddress first) = false → w.HasRoom cfg withdrawal)
    (hsingle : ∀ id' withdrawal', id' ≠ id → w.withdrawals.get id' = some withdrawal' →
      withdrawal'.amlReviewId = withdrawal.amlReviewId → withdrawal.amlReviewId = none) :
    Gated cfg w' where
  weekly walletAddress first := by
    have hle := h.weekly walletAddress first
    have hset : (w'.created walletAddress first : ℤ) = w.created walletAddress first -
        KVStore.part (fun _ withdrawal => if withdrawal.countsIn walletAddress first = true then 1 else 0)
          id (w.withdrawals.get id) +
        if withdrawal.countsIn walletAddress first = true then 1 else 0 := by
      rw [World.created_eq, World.created_eq, hw, KVStore.sum_set]
    have hpart : ∀ o : Option WithdrawalRequest, KVStore.part (fun _ (withdrawal : WithdrawalRequest) =>
        if withdrawal.countsIn walletAddress first = true then (1 : ℤ) else 0) id o =
          if o.any (·.countsIn walletAddress first) = true then 1 else 0 := by
      intro o
      cases o <;> rfl
    rw [hpart] at hset
    split_ifs at hset with hold hnew hnew
    case pos => omega
    case neg => omega
    case pos =>
      have hlt := World.created_lt hnew
        (hroom walletAddress first hnew (Bool.eq_false_of_not_eq_true hold))
      omega
    case neg => omega
  single := by
    intro reviewId id₁ id₂ withdrawal₁ withdrawal₂ h₁ h₂ hr₁ hr₂
    rw [hw, KVStore.get_set] at h₁ h₂
    split_ifs at h₁ h₂ with heq₁ heq₂ heq₂
    case pos => rw [heq₁, heq₂]
    case neg =>
      cases h₁
      have hnone := hsingle id₂ withdrawal₂ heq₂ h₂ (hr₂.trans hr₁.symm)
      rw [hnone] at hr₁
      cases hr₁
    case pos =>
      cases h₂
      have hnone := hsingle id₁ withdrawal₁ heq₁ h₁ (hr₁.trans hr₂.symm)
      rw [hnone] at hr₂
      cases hr₂
    case neg => exact h.single h₁ h₂ hr₁ hr₂

theorem Gated.create (h : Gated cfg w) (hg : gateGuard cfg (.creating id withdrawal) w) :
    Gated cfg (insertWithdrawal id withdrawal w) := by
  rw [insertWithdrawal]
  split
  case h_1 => exact h
  case h_2 =>
    refine h.set rfl (fun _ _ _ _ => hg.1) ?_
    intro id' withdrawal' _ hget heq
    cases hr : withdrawal.amlReviewId with
    | none => rfl
    | some reviewId =>
      have hunused := hg.2
      rw [hr, Option.all_some, Bool.not_eq_true', World.isUsed, List.any_eq_false] at hunused
      have hn := hunused withdrawal' (KVStore.mem_values_iff.mpr ⟨id', hget⟩)
      rw [decide_eq_true_eq] at hn
      exact absurd (heq.trans hr) hn

theorem Gated.save {saver : Saver} {d : Document WithdrawalRequest} (h : Gated cfg w)
    (hg : gateGuard cfg (.savingWithdrawal saver id d) w)
    (hw : w'.withdrawals = (w.updateWithdrawal id (saveWithdrawalOn d)).withdrawals) : Gated cfg w' := by
  rw [World.updateWithdrawal] at hw
  cases hget : w.withdrawals.get id with
  | none =>
    rw [hget] at hw
    exact h.congr hw
  | some stored =>
    have hset : w'.withdrawals = w.withdrawals.set id (saveWithdrawalOn d stored) := by
      rw [hget] at hw
      dsimp only at hw
      split_ifs at hw
      case pos => exact hw
      case neg => exact hw
    refine h.set hset ?_ ?_
    case refine_1 =>
      intro walletAddress first hnew hold
      rw [hget, Option.any_some] at hold
      rw [WithdrawalRequest.countsIn, decide_eq_true_eq] at hnew
      obtain ⟨hwallet, hge, hle, hcounts⟩ := hnew
      have huncounted : stored.status.counts = false := by
        rw [WithdrawalRequest.countsIn, decide_eq_false_iff_not] at hold
        apply Bool.eq_false_of_not_eq_true
        intro hs
        exact hold ⟨hwallet, hge, hle, hs⟩
      exact hg stored hget huncounted hcounts
    case refine_2 =>
      intro id' withdrawal' hne hget' heq
      cases hr : (saveWithdrawalOn d stored).amlReviewId with
      | none => rfl
      | some reviewId => exact absurd (h.single hget' hget (heq.trans hr) hr) hne

theorem CallbackEffect.gated {payoutRef : String} {resultCode : ℤ} {label : Label} {update : World → World}
    (he : CallbackEffect payoutRef resultCode label update) (h : Gated cfg w) (hg : gateGuard cfg label w) :
    Gated cfg (update w) := by
  cases he with
  | silent => exact h
  | acknowledge => exact h.congr rfl
  | savePayout d =>
    refine h.congr ?_
    dsimp only [World.updatePayout]
    split <;> rfl
  | saveSale d =>
    refine h.congr ?_
    dsimp only [World.updateSale]
    split <;> rfl
  | save d => exact h.save hg rfl

theorem Effect.gated {D : String → Prop} {label : Label} {update : World → World} (he : Effect D label update)
    (h : Gated cfg w) (hg : gateGuard cfg label w) : Gated cfg (update w) := by
  cases he with
  | silent => exact h
  | accept _ _ hu =>
    obtain ⟨accepted, hw⟩ := (hu w).only
    exact h.congr (by rw [hw])
  | consume =>
    refine h.congr ?_
    dsimp only [World.updateReview]
    split <;> rfl
  | deliver => exact h.congr rfl
  | createSale req =>
    refine h.congr ?_
    rw [insertSale]
    split <;> rfl
  | saveSale d =>
    refine h.congr ?_
    dsimp only [World.updateSale]
    split <;> rfl
  | create req phone estimatedKes reviewId => exact h.create hg
  | save d => exact h.save hg rfl
  | createPayout =>
    refine h.congr ?_
    rw [insertPayout]
    split <;> rfl
  | pay _ =>
    refine h.congr ?_
    dsimp only
    split_ifs <;> rfl
  | find _ =>
    refine h.congr ?_
    rw [found]
    split_ifs <;> rfl
  | decided _ => exact h.congr rfl
  | saveDecision d _ => exact h.save hg rfl
  | saveResolve d _ => exact h.save hg rfl

def gateContract (cfg : Config) : Contract Label World Unit where
  invariant w _ := Gated cfg w
  grows _ _     := True
  guard         := gateGuard cfg
  refl _        := trivial
  trans _ _     := trivial

def gateSystem (cfg : Config) : TransitionSystem (Pool Label World) (Action Request) :=
  system (Gated cfg) (Request.handler cfg)

instance : (label : Label) → (w : World) → Decidable (gateGuard cfg label w)
  | .creating _ _, _ => inferInstanceAs (Decidable (_ < _ ∧ _ = _))
  | .savingWithdrawal _ id d, w =>
    match h : w.withdrawals.get id with
    | none        => .isTrue (by simp [gateGuard, h])
    | some stored => decidable_of_iff (stored.status.counts = false →
      (saveWithdrawalOn d stored).status.counts = true →
        w.counted stored.walletAddress (stored.createdAt - windowMs) < cfg.weeklyLimit)
      (by simp [gateGuard, h, World.HasRoom])
  | .read, _ | .write, _ | .creatingSale _ _, _ | .savingSale _ _ _, _ | .creatingPayout _ _, _
  | .savingPayout _ _, _ | .paying _ _, _ | .delivering _ _, _ | .failing, _ | .deciding _, _ => .isTrue trivial

namespace Sample

def limited : Config where
  payout      := { configured := true }
  weeklyLimit := 1

def selling (saleId : String) (hex : saleId.length = 24) : SellRequest where
  saleId        := saleId
  hex           := hex
  sellerAddress := "alice"
  amount        := 1000
  txBytes       := saleId
  phone         := some "254700000000"
  sellPriceKes  := some 1
  checkedAt     := 0
  createdAt     := 0
  queuedAt      := 0
  liquidity     := true
  settlement    := {
    broadcast := .ok (some saleId)
    payout    := { sellPriceKes := 1, provider := fun _ => .accepted (some saleId) }
  }

def firstSale : Request :=
  .sell (selling "aaaaaaaaaaaaaaaaaaaaaaaa" rfl)

def secondSale : Request :=
  .sell (selling "bbbbbbbbbbbbbbbbbbbbbbbb" rfl)

def executed (actions : List (Action Request)) : Pool Label World :=
  Pool.execs (Request.handler limited) { store := {}, running := [] } actions

-- Both requests are counted before one of them creates its withdrawal.
def bothCounted : List (Action Request) :=
  [.start firstSale, .start secondSale, .run 0, .run 1, .run 0, .run 0, .run 1, .run 1]

theorem empty_gated {cfg : Config} : Gated cfg {} where
  weekly _ _ := Nat.zero_le _
  single     := by simp

end Sample

end Cashout
