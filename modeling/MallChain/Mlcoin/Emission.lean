import MallChain.Mlcoin.System

namespace Mlcoin

open Sdk

-- What is seen of a step: its day, the emission month and the daily limit that are in force, and
-- the amount that it mints.
structure MintEvent where
  day    : ℤ
  month  : UInt64
  limit  : UInt64
  amount : ℕ
  deriving DecidableEq

def utcDay (time : ℤ) : ℤ :=
  time / 86400

-- The amount that a step mints to a wallet, before the burn.
def mintedAmount (a : Action) (p' : Chain) : ℕ :=
  match a with
  | .call (.buyMallcoin _ mlcn) => mlcn.toNat
  | .call (.mintToWallet _ amount) => amount.toNat
  | .call (.unstake _ id) =>
    ((p'.state.stakingRecords.get id).elim 0 fun info => info.rewardsEarned).toNat
  | _ => 0

def mintEvent (p : Chain) (a : Action) (p' : Chain) : Option MintEvent :=
  p.state.emissionState.map fun e =>
    ⟨utcDay p.ctx.blockTime, e.currentMonth, e.dailyLimit, mintedAmount a p'⟩

section History

variable (history : List MintEvent)

def mintedOn (day : ℤ) : ℕ :=
  ((history.filter (·.day = day)).map (·.amount)).sum

def mintedIn (month : UInt64) : ℕ :=
  ((history.filter (·.month = month)).map (·.amount)).sum

-- The largest limit that was in force during a day.
def limitOn (day : ℤ) : ℕ :=
  ((history.filter (·.day = day)).map (·.limit.toNat)).foldr max 0

end History

-- What a call asks to mint.
def requested (p : Chain) : Action → Option UInt64
  | .call (.buyMallcoin _ mlcn) => some mlcn
  | .call (.mintToWallet _ amount) => some amount
  | .call (.unstake _ id) => (p.state.stakingRecords.get id).map (p.state.rewardOf p.ctx ·)
  | _ => none

-- What the mint looks at: the amount alone.
def EmissionState.Mints (e : EmissionState) (amount : UInt64) : Prop :=
  amount.toNat ≤ e.dailyLimit.toNat ∧ e.circulating.toNat + amount.toNat ≤ e.totalSupply.toNat

-- The mints that keep the caps: with what was minted before on that day, and in that month.
def WithinCaps (q : Chain × List (Option MintEvent)) (a : Action) : Prop :=
  ∀ e amount, q.1.state.emissionState = some e → requested q.1 a = some amount → e.Mints amount →
    mintedOn q.2.reduceOption (utcDay q.1.ctx.blockTime) + amount.toNat ≤
      max (limitOn q.2.reduceOption (utcDay q.1.ctx.blockTime)) e.dailyLimit.toNat ∧
    e.emittedTotal.toNat + amount.toNat ≤ (getMonthlyEmission e.currentMonth).toNat

-- The months of a chain are counted from its first tick on.
def FirstMonth (p : Chain) : Prop :=
  p.Founded ∧ ∀ e, p.state.emissionState = some e → e.currentMonth.toNat ≤ 1

variable {k : Keeper} {ctx : Context} {s s' : State} {amount : UInt64}
variable {history : List MintEvent} {event : MintEvent}

theorem mintedOn_cons {day : ℤ} : mintedOn (event :: history) day =
    (if event.day = day then event.amount else 0) + mintedOn history day := by
  by_cases h : event.day = day <;> simp [mintedOn, h]

theorem mintedIn_cons {month : UInt64} : mintedIn (event :: history) month =
    (if event.month = month then event.amount else 0) + mintedIn history month := by
  by_cases h : event.month = month <;> simp [mintedIn, h]

theorem limitOn_cons {day : ℤ} : limitOn (event :: history) day =
    if event.day = day then max event.limit.toNat (limitOn history day)
    else limitOn history day := by
  by_cases h : event.day = day <;> simp [limitOn, h]

theorem mintedIn_eq_zero {month : UInt64} (h : ∀ event ∈ history, event.month ≠ month) :
    mintedIn history month = 0 := by
  rw [mintedIn, List.filter_eq_nil_iff.mpr fun event he => by simpa using h event he]
  rfl

-- The months of a time, as the schedule counts them.
def monthCount (time : ℤ) : ℤ :=
  Calendar.year time * 12 + Calendar.month time

theorem monthCount_eq {time : ℤ} : monthCount time = Calendar.months (Calendar.day time) + 3 := by
  have h : 12 * Calendar.year time + Calendar.month time = _ := Calendar.year_month
  rw [monthCount]
  omega

theorem monthCount_mono {time time' : ℤ} (h : time ≤ time') : monthCount time ≤ monthCount time' := by
  rw [monthCount_eq, monthCount_eq]
  have hm := Calendar.months_mono (Calendar.day_mono h)
  omega

-- 64-bit times are not far enough apart for the months between them to wrap around.
theorem monthCount_sub_lt {time time' : ℤ} (h : -2 ^ 63 ≤ time) (h' : time' < 2 ^ 63) :
    monthCount time' - monthCount time < 2 ^ 63 := by
  have hb := Calendar.months_bounds (n := Calendar.day time)
  have hb' := Calendar.months_bounds (n := Calendar.day time')
  rw [monthCount_eq, monthCount_eq]
  unfold Calendar.era Calendar.day at hb hb'
  unfold Calendar.day
  omega

theorem toNat_months {time time' : ℤ} (h₀ : -2 ^ 63 ≤ time) (h : time ≤ time') (h' : time' < 2 ^ 63) :
    ((Keeper.absoluteMonth time' - Keeper.absoluteMonth time + 1).toNat : ℤ) =
      monthCount time' - monthCount time + 1 := by
  have hm := monthCount_mono h
  have hlt := monthCount_sub_lt h₀ h'
  have ht : ∀ x : ℤ, ((UInt64.ofInt x).toNat : ℤ) = x % 2 ^ 64 := by
    intro x
    have hx : (x % 2 ^ 64).toNat < 2 ^ 64 := by omega
    rw [UInt64.ofInt, UInt64.toNat_ofNat_of_lt' hx]
    omega
  have h₁ := ht (monthCount time)
  have h₂ := ht (monthCount time')
  rw [UInt64.toNat_add, UInt64.toNat_sub, Keeper.absoluteMonth, Keeper.absoluteMonth]
  simp only [monthCount] at *
  simp only [UInt64.toNat_one]
  omega

-- The month and what was emitted in it.
def EmissionState.inMonth (e : EmissionState) : UInt64 × UInt64 :=
  (e.currentMonth, e.emittedTotal)

theorem inMonth_reduced {e : EmissionState} : (e.reduced amount).inMonth = e.inMonth := by
  rw [EmissionState.reduced]
  split_ifs <;> rfl

-- What a call does to the emission: it mints nothing, or an amount that was asked for.
structure Emitted (p p' : Chain) (a : Action) : Prop where
  anchor : p'.state.emissionMonthAnchor = p.state.emissionMonthAnchor
  mints  : mintedAmount a p' = 0 ∧ p'.state.emissionState.map EmissionState.inMonth =
      p.state.emissionState.map EmissionState.inMonth ∨
    ∃ e amount, p.state.emissionState = some e ∧ requested p a = some amount ∧ e.Mints amount ∧
      mintedAmount a p' = amount.toNat ∧ p'.state.emissionState = some (e.minted amount)

theorem Called.emitted {c : Call} {p' : Chain} (h : Called ctx s p'.state c) :
    Emitted ⟨ctx, s⟩ p' (.call c) := by
  cases h with
  | framed plain h =>
    refine ⟨(congrArg State.emissionMonthAnchor h).trans rfl, .inl ⟨?_, ?_⟩⟩
    · cases c <;> first | rfl | exact plain.elim
    · rw [(congrArg State.emissionState h).trans rfl]
  | @bought _ mlcn e _ _ _ h =>
    exact ⟨(congrArg State.emissionMonthAnchor h.state).trans rfl, .inr ⟨e, mlcn, h.emission, rfl,
      ⟨h.limit, h.supply⟩, rfl, (congrArg State.emissionState h.state).trans rfl⟩⟩
  | @sold _ mlcn w r h =>
    refine ⟨(congrArg State.emissionMonthAnchor h.state).trans rfl, .inl ⟨rfl, ?_⟩⟩
    have he : p'.state.emissionState = s.emissionState.map (·.reduced mlcn) :=
      congrArg State.emissionState h.state
    rw [he, Option.map_map]
    exact congrArg (Option.map · _) (funext fun _ => inMonth_reduced)
  | staked h =>
    refine ⟨(congrArg State.emissionMonthAnchor h.state).trans rfl, .inl ⟨rfl, ?_⟩⟩
    rw [(congrArg State.emissionState h.state).trans rfl]
  | @unstaked creator id info rewards s₁ h =>
    have hr : p'.state.stakingRecords.get id =
        some { info with isActive := false, rewardsEarned := rewards } :=
      (congrArg (fun s => s.stakingRecords.get id) h.state).trans KVStore.get_set_self
    have hm : mintedAmount (.call (.unstake creator id)) p' = rewards.toNat := by
      simp only [mintedAmount, hr, Option.elim]
    have he : p'.state.emissionState = s₁.emissionState :=
      (congrArg State.emissionState h.state).trans rfl
    refine ⟨(congrArg State.emissionMonthAnchor h.framed).trans rfl, ?_⟩
    rcases h.reward with ⟨hs, hz⟩ | ⟨hrewards, e, hmint⟩
    · refine .inl ⟨by rw [hm, hz]; rfl, ?_⟩
      rw [he, hs]
      rfl
    · refine .inr ⟨e, rewards, hmint.emission, ?_, ⟨hmint.limit, hmint.supply⟩, hm,
        he.trans ((congrArg State.emissionState hmint.state).trans rfl)⟩
      simp only [requested, h.record, Option.map_some, hrewards]
  | @minted _ amount e h =>
    exact ⟨(congrArg State.emissionMonthAnchor h.state).trans rfl, .inr ⟨e, amount, h.emission, rfl,
      ⟨h.limit, h.supply⟩, rfl, (congrArg State.emissionState h.state).trans rfl⟩⟩

-- The months only go up, and the emission state has counted what was minted in the latest one.
structure Emitting (p : Chain) (history : List MintEvent) : Prop where
  time       : -2 ^ 63 ≤ p.ctx.blockTime
  unanchored : p.state.emissionMonthAnchor = none →
    ∀ e, p.state.emissionState = some e → e.currentMonth.toNat ≤ 1
  anchored   : ∀ anchor, p.state.emissionMonthAnchor = some anchor →
    ∃ time, -2 ^ 63 ≤ time ∧ time ≤ p.ctx.blockTime ∧ anchor = Keeper.absoluteMonth time ∧
      ∀ e, p.state.emissionState = some e →
        (e.currentMonth.toNat : ℤ) ≤ monthCount p.ctx.blockTime - monthCount time + 1
  months     : ∀ event ∈ history,
    ∃ e, p.state.emissionState = some e ∧ event.month.toNat ≤ e.currentMonth.toNat
  emitted    : ∀ e, p.state.emissionState = some e →
    mintedIn history e.currentMonth ≤ e.emittedTotal.toNat

structure Capped (history : List MintEvent) : Prop where
  day   : ∀ day, mintedOn history day ≤ limitOn history day
  month : ∀ month, mintedIn history month ≤ (getMonthlyEmission month).toNat

-- A step that only moves the clock, or the emission within its month.
theorem Emitting.same {p p' : Chain} (h : Emitting p history)
    (htime : p.ctx.blockTime ≤ p'.ctx.blockTime)
    (hanchor : p'.state.emissionMonthAnchor = p.state.emissionMonthAnchor)
    (he : p'.state.emissionState.map EmissionState.inMonth =
      p.state.emissionState.map EmissionState.inMonth) : Emitting p' history := by
  have hback : ∀ e', p'.state.emissionState = some e' → ∃ e, p.state.emissionState = some e ∧
      e'.currentMonth = e.currentMonth ∧ e'.emittedTotal = e.emittedTotal := by
    intro e' he'
    rw [he', Option.map_some, eq_comm, Option.map_eq_some_iff] at he
    obtain ⟨e, he, hm⟩ := he
    exact ⟨e, he, (Prod.mk.inj hm).1.symm, (Prod.mk.inj hm).2.symm⟩
  have hmono := monthCount_mono htime
  refine ⟨h.time.trans htime, ?unanchored, ?anchored, ?months, ?emitted⟩
  case unanchored =>
    intro hnone e' he'
    obtain ⟨e, he, hm, _⟩ := hback e' he'
    rw [hm]
    exact h.unanchored (hanchor ▸ hnone) e he
  case anchored =>
    intro anchor ha
    obtain ⟨time, h₀, hle, ha, hm⟩ := h.anchored anchor (hanchor ▸ ha)
    refine ⟨time, h₀, hle.trans htime, ha, fun e' he' => ?_⟩
    obtain ⟨e, he, hc, _⟩ := hback e' he'
    have hm := hm e he
    rw [hc]
    omega
  case months =>
    intro event hevent
    obtain ⟨e, hs, hle⟩ := h.months event hevent
    rw [hs, Option.map_some, Option.map_eq_some_iff] at he
    obtain ⟨e', he', hm⟩ := he
    exact ⟨e', he', (Prod.mk.inj hm).1 ▸ hle⟩
  case emitted =>
    intro e' he'
    obtain ⟨e, he, hm, ht⟩ := hback e' he'
    rw [hm, ht]
    exact h.emitted e he

-- What is seen of a step in the month that is running.
theorem Emitting.seen {p : Chain} {e : EmissionState} (h : Emitting p history)
    (he : p.state.emissionState = some e) (hmonth : event.month = e.currentMonth)
    (hz : event.amount = 0) : Emitting p (event :: history) := by
  refine ⟨h.time, h.unanchored, h.anchored, fun event' hevent => ?_, fun e' he' => ?_⟩
  · rcases List.mem_cons.mp hevent with rfl | hevent
    · exact ⟨e, he, by rw [hmonth]⟩
    · exact h.months event' hevent
  · rw [mintedIn_cons, hz, ite_self, zero_add]
    exact h.emitted e' he'

theorem Emitting.mint {p p' : Chain} {e : EmissionState} (h : Emitting p history)
    (htime : p'.ctx = p.ctx) (hanchor : p'.state.emissionMonthAnchor = p.state.emissionMonthAnchor)
    (he : p.state.emissionState = some e) (he' : p'.state.emissionState = some (e.minted amount))
    (hmonth : event.month = e.currentMonth) (hamount : event.amount = amount.toNat)
    (hfits : e.emittedTotal.toNat + amount.toNat < 2 ^ 64) : Emitting p' (event :: history) := by
  have hc : (e.minted amount).currentMonth = e.currentMonth := rfl
  refine ⟨by rw [htime]; exact h.time, ?unanchored, ?anchored, ?months, ?emitted⟩
  case unanchored =>
    intro hnone e₁ he₁
    cases he'.symm.trans he₁
    exact h.unanchored (hanchor ▸ hnone) e he
  case anchored =>
    intro anchor ha
    obtain ⟨time, h₀, hle, ha, hm⟩ := h.anchored anchor (hanchor ▸ ha)
    rw [htime]
    refine ⟨time, h₀, hle, ha, fun e₁ he₁ => ?_⟩
    cases he'.symm.trans he₁
    exact hm e he
  case months =>
    intro event' hevent
    rcases List.mem_cons.mp hevent with rfl | hevent
    · exact ⟨_, he', by rw [hmonth, hc]⟩
    · obtain ⟨e₁, he₁, hle⟩ := h.months event' hevent
      cases he.symm.trans he₁
      exact ⟨_, he', hle⟩
  case emitted =>
    intro e₁ he₁
    cases he'.symm.trans he₁
    have hm := h.emitted e he
    have ha := toNat_add (a := e.emittedTotal) (b := amount)
    rw [dropped_eq_zero_iff.mpr hfits] at ha
    rw [mintedIn_cons, hmonth, if_pos hc.symm, hamount, hc]
    simp only [EmissionState.minted]
    omega

-- A tick goes on to a later month, in which nothing was minted, or stays in its month.
theorem Emitting.scheduled {p p' : Chain} {e : EmissionState} (h : Emitting p history)
    (ht : p.ctx.blockTime ≤ p'.ctx.blockTime) (hlt : p'.ctx.blockTime < 2 ^ 63)
    (hs : Scheduled p.ctx e p.state p'.state) : Emitting p' history := by
  obtain ⟨time, h₀, hle, ha, hm⟩ : ∃ time, -2 ^ 63 ≤ time ∧ time ≤ p.ctx.blockTime ∧
      Keeper.monthAnchor p.ctx.blockTime p.state = Keeper.absoluteMonth time ∧
      (e.currentMonth.toNat : ℤ) ≤ monthCount p.ctx.blockTime - monthCount time + 1 := by
    cases hanchor : p.state.emissionMonthAnchor with
    | none =>
      have hone := h.unanchored hanchor e hs.emission
      refine ⟨p.ctx.blockTime, h.time, le_refl _, ?_, by omega⟩
      rw [Keeper.monthAnchor, hanchor, Option.getD_none]
    | some anchor =>
      obtain ⟨time, h₀, hle, ha, hm⟩ := h.anchored anchor hanchor
      refine ⟨time, h₀, hle, ?_, hm e hs.emission⟩
      rw [Keeper.monthAnchor, hanchor, Option.getD_some, ha]
  have hmonth := toNat_months h₀ hle (ht.trans_lt hlt)
  rw [← ha, ← Keeper.monthsSinceGenesis] at hmonth
  have he' := hs.scheduled
  generalize Keeper.monthsSinceGenesis p.ctx.blockTime p.state = month at hmonth he'
  have hc : (e.scheduled p.ctx.blockTime month).currentMonth = month := by
    simp only [EmissionState.scheduled]
    split_ifs with hne
    · rfl
    · exact not_not.mp hne
  have hmono := monthCount_mono ht
  refine ⟨h.time.trans ht, ?unanchored, ?anchored, ?months, ?emitted⟩
  case unanchored =>
    intro hnone
    rw [hs.anchor] at hnone
    cases hnone
  case anchored =>
    intro anchor hanchor
    cases hs.anchor.symm.trans hanchor
    refine ⟨time, h₀, hle.trans ht, ha, fun e₁ he₁ => ?_⟩
    cases he'.symm.trans he₁
    rw [hc]
    omega
  case months =>
    intro event hevent
    obtain ⟨e₁, he₁, hle⟩ := h.months event hevent
    cases hs.emission.symm.trans he₁
    refine ⟨_, he', ?_⟩
    rw [hc]
    omega
  case emitted =>
    intro e₁ he₁
    cases he'.symm.trans he₁
    rw [hc]
    by_cases hne : e.currentMonth = month
    case pos =>
      have hm := h.emitted e hs.emission
      simp only [EmissionState.scheduled, hne, ne_eq, not_true, if_false]
      rwa [hne] at hm
    case neg =>
      have hz : mintedIn history month = 0 := by
        refine mintedIn_eq_zero fun event hevent heq => ?_
        obtain ⟨e₁, he₁, hle⟩ := h.months event hevent
        cases hs.emission.symm.trans he₁
        rw [heq] at hle
        have : e.currentMonth.toNat ≠ month.toNat := fun hn => hne (UInt64.toNat_inj.mp hn)
        omega
      rw [hz]
      exact Nat.zero_le _

-- A step that mints nothing keeps the caps, whatever is seen of it.
theorem Capped.seen (h : Capped history) (hz : event.amount = 0) : Capped (event :: history) where
  day day := by
    have hd := h.day day
    rw [mintedOn_cons, limitOn_cons, hz]
    split_ifs <;> omega
  month month := by
    rw [mintedIn_cons, hz, ite_self, zero_add]
    exact h.month month

theorem Capped.mint (h : Capped history)
    (hday : mintedOn history event.day + event.amount ≤
      max (limitOn history event.day) event.limit.toNat)
    (hmonth : mintedIn history event.month + event.amount ≤
      (getMonthlyEmission event.month).toNat) : Capped (event :: history) where
  day day := by
    rw [mintedOn_cons, limitOn_cons]
    split_ifs with heq
    · subst heq
      omega
    · rw [zero_add]
      exact h.day day
  month month := by
    rw [mintedIn_cons]
    split_ifs with heq
    · subst heq
      omega
    · rw [zero_add]
      exact h.month month

theorem reduceOption_cons {ε : Type} {event : Option ε} {history : List (Option ε)} :
    (event :: history).reduceOption = event.toList ++ history.reduceOption := by
  cases event <;> rfl

theorem Emitted.capped {p p' : Chain} {a : Action} {history : List (Option MintEvent)}
    (h : Emitted p p' a) (hctx : p'.ctx = p.ctx) (hg : WithinCaps (p, history) a)
    (he : Emitting p history.reduceOption) (hc : Capped history.reduceOption) :
    Emitting p' (mintEvent p a p' :: history).reduceOption ∧
      Capped (mintEvent p a p' :: history).reduceOption := by
  rw [reduceOption_cons]
  rcases h.mints with ⟨hz, hsame⟩ | ⟨e, amount, hs, hr, hm, hamount, hs'⟩
  · cases hs : p.state.emissionState with
    | none =>
      simp only [mintEvent, hs, Option.map_none, Option.toList_none, List.nil_append]
      exact ⟨he.same (by rw [hctx]) h.anchor hsame, hc⟩
    | some e =>
      simp only [mintEvent, hs, Option.map_some, Option.toList_some, List.singleton_append]
      exact ⟨(he.seen hs rfl hz).same (by rw [hctx]) h.anchor hsame, hc.seen hz⟩
  · obtain ⟨hday, hmonth⟩ := hg e amount hs hr hm
    have hlt := (getMonthlyEmission e.currentMonth).toNat_lt
    have hemitted := he.emitted e hs
    simp only [mintEvent, hs, Option.map_some, Option.toList_some, List.singleton_append]
    dsimp only at hday hmonth
    refine ⟨he.mint hctx h.anchor hs hs' rfl hamount (by omega), hc.mint ?_ ?_⟩
    · dsimp only
      omega
    · dsimp only
      omega

theorem Stepped.capped {p p' : Chain} {a : Action} {history : List (Option MintEvent)}
    (h : Stepped p p' a) (hl : Allowed p a) (hg : WithinCaps (p, history) a)
    (he : Emitting p history.reduceOption) (hc : Capped history.reduceOption) :
    Emitting p' (mintEvent p a p' :: history).reduceOption ∧
      Capped (mintEvent p a p' :: history).reduceOption := by
  cases h with
  | called h block => exact h.emitted.capped block hg he hc
  | @ended ctx h block =>
    obtain ⟨hle, hlt⟩ := hl
    rw [← block] at hle hlt
    have hseen : Emitting p (mintEvent p (.endBlock ctx) p' :: history).reduceOption ∧
        Capped (mintEvent p (.endBlock ctx) p' :: history).reduceOption := by
      rw [reduceOption_cons]
      cases hs : p.state.emissionState with
      | none =>
        simp only [mintEvent, hs, Option.map_none, Option.toList_none, List.nil_append]
        exact ⟨he, hc⟩
      | some e =>
        simp only [mintEvent, hs, Option.map_some, Option.toList_some, List.singleton_append]
        exact ⟨he.seen hs rfl rfl, hc.seen rfl⟩
    refine ⟨?_, hseen.2⟩
    rcases h.schedule with ⟨hs, ha⟩ | ⟨e, hs⟩
    · exact hseen.1.same hle ha (by rw [hs])
    · exact hseen.1.scheduled hle hlt hs
  | @rest bank h =>
    have hemitted : Emitted p p' (.rest bank) := by
      subst h
      exact ⟨rfl, .inl ⟨rfl, rfl⟩⟩
    exact hemitted.capped (by rw [h]) hg he hc

namespace Sample

def emissionBlock : Chain where
  ctx   := block
  state := initGenesis {
    emissionState := some { totalSupply := 670000000, circulating := 160000000, dailyLimit := 100000 }
  } .empty

theorem emissionBlock_first : FirstMonth emissionBlock := by
  refine ⟨⟨_, ⟨_, rfl⟩, by decide⟩, fun e he => ?_⟩
  cases he
  decide

end Sample

end Mlcoin
