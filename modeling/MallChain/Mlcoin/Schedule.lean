import MallChain.Lib.Halving
import MallChain.Mlcoin.Emission

namespace Mlcoin

open Sdk

-- A block in which the schedule is updated, with its time in seconds.
structure Tick where
  time   : Int64
  height : UInt64 := 0
  deriving DecidableEq

def Tick.ctx (t : Tick) : Context where
  blockTime   := t.time.toInt
  blockHeight := t.height

def Keeper.tick (s : State) (t : Tick) : Result State :=
  updateEmissionSchedule t.ctx s

-- The schedule at a time after its first tick: the months are counted from that tick on, and the
-- days of a month share what the month has.
structure OnSchedule (first last : ℤ) (e : EmissionState) : Prop where
  month : (e.currentMonth.toNat : ℤ) = 1 + (monthCount last - monthCount first)
  limit : e.dailyLimit.toNat * (daysInMonth (Calendar.month last) (Calendar.year last)).toNat ≤
    (getMonthlyEmission e.currentMonth).toNat

variable {s s' : State} {e : EmissionState} {first last t : Tick} {ticks : List Tick}
variable {m m' : UInt64}

theorem getMonthlyEmission_toNat (m : UInt64) :
    (getMonthlyEmission m).toNat = Halving.rate phaseOneMonthly 36 (m.toNat - 1) := by
  have hmonth : (if m = 0 then 1 else m).toNat = m.toNat - 1 + 1 := by
    split_ifs with hz
    · rw [hz]
      rfl
    · have hpos : m.toNat ≠ 0 := fun h => hz (UInt64.toNat_inj.mp h)
      omega
  simp only [getMonthlyEmission]
  generalize (if m = 0 then 1 else m) = n at hmonth
  have hle : (1 : UInt64) ≤ n := by
    rw [UInt64.le_iff_toNat_le, hmonth, UInt64.toNat_one]
    omega
  have hphase : ((n - 1) / phaseMonths).toNat = (m.toNat - 1) / 36 := by
    rw [UInt64.toNat_div, UInt64.toNat_sub_of_le _ _ hle, hmonth]
    rfl
  rw [Halving.rate, ← hphase]
  split_ifs with hlt
  · refine UInt64.toNat_ofNat_of_lt' ?_
    exact (Nat.shiftRight_le phaseOneMonthly _).trans_lt (by decide)
  · have hge : 64 ≤ ((n - 1) / phaseMonths).toNat := by
      rw [UInt64.lt_iff_toNat_lt] at hlt
      simpa using hlt
    have hle : phaseOneMonthly >>> _ ≤ phaseOneMonthly >>> 64 := Halving.shiftRight_antitone hge
    exact (Nat.le_zero.mp hle).symm

theorem getMonthlyEmission_antitone (h : m ≤ m') : getMonthlyEmission m' ≤ getMonthlyEmission m := by
  rw [UInt64.le_iff_toNat_le, getMonthlyEmission_toNat, getMonthlyEmission_toNat]
  rw [UInt64.le_iff_toNat_le] at h
  exact Halving.rate_antitone (by omega)

theorem getMonthlyEmission_halves (hm : 0 < m) (h : m.toNat + 36 < 2 ^ 64) :
    getMonthlyEmission (m + phaseMonths) = getMonthlyEmission m / 2 := by
  rw [UInt64.lt_iff_toNat_lt, UInt64.toNat_zero] at hm
  have hadd : (m + phaseMonths).toNat - 1 = m.toNat - 1 + 36 := by
    rw [UInt64.toNat_add]
    simp only [phaseMonths, UInt64.toNat_ofNat]
    omega
  rw [← UInt64.toNat_inj, UInt64.toNat_div, getMonthlyEmission_toNat, getMonthlyEmission_toNat,
    hadd, Halving.rate_add_period (by decide)]
  rfl

theorem sum_getMonthlyEmission_lt (n : UInt64) :
    ∑ i ∈ Finset.range n.toNat, (getMonthlyEmission (.ofNat (i + 1))).toNat < 216000000 := by
  have hsum : ∑ i ∈ Finset.range n.toNat, (getMonthlyEmission (.ofNat (i + 1))).toNat =
      ∑ i ∈ Finset.range n.toNat, Halving.rate phaseOneMonthly 36 i := by
    refine Finset.sum_congr rfl fun i hi => ?_
    have hlt : i + 1 < UInt64.size := by
      have hn := n.toNat_lt
      have hi := Finset.mem_range.mp hi
      simp only [UInt64.size]
      omega
    rw [getMonthlyEmission_toNat, UInt64.toNat_ofNat_of_lt' hlt, Nat.add_sub_cancel]
  rw [hsum]
  exact Halving.sum_rate_lt (by decide) (by decide) n.toNat

-- Whatever the month was before, it is the one of the tick then.
theorem scheduled_currentMonth {time : ℤ} : (e.scheduled time m).currentMonth = m := by
  simp only [EmissionState.scheduled]
  split_ifs with hne
  · rfl
  · exact not_not.mp hne

-- The daily limit is rounded down.
theorem scheduled_limit {time : ℤ} : (e.scheduled time m).dailyLimit.toNat *
    (daysInMonth (Calendar.month time) (Calendar.year time)).toNat ≤ (getMonthlyEmission m).toNat := by
  rw [EmissionState.scheduled]
  dsimp only
  rw [UInt64.toNat_div]
  exact Nat.div_mul_le_self _ _

-- A tick after the first one.
theorem tick_ok (hs : s.emissionState = some e)
    (ha : s.emissionMonthAnchor.getD (Keeper.absoluteMonth t.time.toInt) =
      Keeper.absoluteMonth first.time.toInt) (hle : first.time ≤ t.time) :
    ∃ s' e', Keeper.tick s t = .ok s' ∧ s'.emissionState = some e' ∧
      s'.emissionMonthAnchor = some (Keeper.absoluteMonth first.time.toInt) ∧
      OnSchedule first.time.toInt t.time.toInt e' := by
  have hmonths := toNat_months first.time.minValue_le_toInt (Int64.le_iff_toInt_le.mp hle)
    t.time.toInt_lt
  have hanchor : Keeper.monthAnchor t.time.toInt s = Keeper.absoluteMonth first.time.toInt := ha
  have hok : Keeper.tick s t = .ok { s with
      emissionMonthAnchor := some (Keeper.monthAnchor t.time.toInt s)
      emissionState       := some (e.scheduled t.time.toInt (Keeper.monthsSinceGenesis t.time.toInt s))
    } := by
    rw [Keeper.tick, Keeper.updateEmissionSchedule, hs]
    rfl
  refine ⟨_, _, hok, rfl, congrArg some hanchor, ?month, ?limit⟩
  case month =>
    rw [scheduled_currentMonth, Keeper.monthsSinceGenesis, hanchor]
    omega
  case limit =>
    rw [scheduled_currentMonth]
    exact scheduled_limit

-- The ticks that come after the first one.
theorem ticks_ok (hs : s.emissionState = some e)
    (ha : s.emissionMonthAnchor = some (Keeper.absoluteMonth first.time.toInt))
    (he : OnSchedule first.time.toInt last.time.toInt e) (hfirst : first.time ≤ last.time)
    (h : (last :: ticks).Pairwise (·.time ≤ ·.time)) :
    ∃ s' e', ticks.foldlM Keeper.tick s = .ok s' ∧ s'.emissionState = some e' ∧
      OnSchedule first.time.toInt ((last :: ticks).getLast (List.cons_ne_nil _ _)).time.toInt e' := by
  induction ticks generalizing s e last with
  | nil => exact ⟨s, e, rfl, hs, he⟩
  | cons t ticks ih =>
    obtain ⟨hlast, ht⟩ := List.pairwise_cons.mp h
    have hle : first.time ≤ t.time := Int64.le_trans hfirst (hlast t List.mem_cons_self)
    obtain ⟨s₁, e₁, hok, hs₁, ha₁, he₁⟩ := tick_ok (t := t) hs (by rw [ha, Option.getD_some]) hle
    obtain ⟨s', e', hrun, hs', he'⟩ := ih hs₁ ha₁ he₁ hle ht
    refine ⟨s', e', ?_, hs', ?_⟩
    · rw [List.foldlM_cons, hok]
      exact hrun
    · rw [List.getLast_cons (List.cons_ne_nil _ _)]
      exact he'

-- Every sequence of ticks follows the calendar from the first tick on, and all months together emit
-- less than 216 million.
theorem emission_follows_schedule :
    (∀ (s : State) (e : EmissionState) (first : Tick) (ticks : List Tick),
      s.emissionState = some e → s.emissionMonthAnchor = none →
      (first :: ticks).Pairwise (·.time ≤ ·.time) →
      ∃ s' e', (first :: ticks).foldlM Keeper.tick s = .ok s' ∧ s'.emissionState = some e' ∧
        OnSchedule first.time.toInt
          ((first :: ticks).getLast (List.cons_ne_nil _ _)).time.toInt e') ∧
    (∀ m m' : UInt64, m ≤ m' → getMonthlyEmission m' ≤ getMonthlyEmission m) ∧
    (∀ m : UInt64, 0 < m → m.toNat + 36 < 2 ^ 64 →
      getMonthlyEmission (m + phaseMonths) = getMonthlyEmission m / 2) ∧
    ∀ n : UInt64,
      ∑ i ∈ Finset.range n.toNat, (getMonthlyEmission (.ofNat (i + 1))).toNat < 216000000 := by
  refine ⟨fun s e first ticks hs ha h => ?_, fun _ _ => getMonthlyEmission_antitone,
    fun _ => getMonthlyEmission_halves, sum_getMonthlyEmission_lt⟩
  have hanchor : s.emissionMonthAnchor.getD (Keeper.absoluteMonth first.time.toInt) =
      Keeper.absoluteMonth first.time.toInt := by
    rw [ha, Option.getD_none]
  obtain ⟨s₁, e₁, hok, hs₁, ha₁, he₁⟩ := tick_ok hs hanchor (Int64.le_refl _)
  obtain ⟨s', e', hrun, hs', he'⟩ := ticks_ok hs₁ ha₁ he₁ (Int64.le_refl _) h
  refine ⟨s', e', ?_, hs', he'⟩
  rw [List.foldlM_cons, hok]
  exact hrun

-- Three years after the first tick the second phase starts.
theorem sample_emission_follows_schedule : ∃ s' e',
    [Tick.mk 1768435200 12000, Tick.mk 1798675200 24000, Tick.mk 1863129600 36000].foldlM Keeper.tick
      Sample.emissionBlock.state = .ok s' ∧
    s'.emissionState = some e' ∧ OnSchedule 1768435200 1863129600 e' ∧ e'.currentMonth.toNat = 37 := by
  obtain ⟨s', e', hok, hs, he⟩ := emission_follows_schedule.1 Sample.emissionBlock.state _
    (.mk 1768435200 12000) [.mk 1798675200 24000, .mk 1863129600 36000] rfl rfl (by decide)
  refine ⟨s', e', hok, hs, he, ?_⟩
  have hm : (e'.currentMonth.toNat : ℤ) = 1 + (monthCount 1863129600 - monthCount 1768435200) := he.month
  have hcount : monthCount 1863129600 - monthCount 1768435200 = 36 := by decide +kernel
  omega

end Mlcoin
