import MallChain.Trade.Convert

namespace Trade

section Dates

-- The fields of a time in milliseconds, in UTC. The months are counted from 0.

def getUTCDate (time : ℤ) : ℤ := Calendar.dayOfMonth (time / 1000)

def getUTCMonth (time : ℤ) : ℤ := Calendar.month (time / 1000) - 1

def getUTCFullYear (time : ℤ) : ℤ := Calendar.year (time / 1000)

-- `Date.UTC` for a year from 100 on
def dateUTC (year month date : ℤ) : ℤ := 1000 * Calendar.utc year month date

end Dates

structure ConversionStatus where
  canConvert              : Bool
  reason                  : Option String
  nextAllowedConversionAt : Option ℤ
  windowRule              : String
  allowAnyDay             : Bool
  deriving DecidableEq, Repr

def buildConversionStatus (hasBadge : Bool) (lastConversionAt : Option ℤ) (now : ℤ) (allowAnyDay : Bool) :
    ConversionStatus :=
  let day   := getUTCDate now
  let month := getUTCMonth now
  let year  := getUTCFullYear now
  let windowRule :=
    if hasBadge then "Badge holders may convert on the 15th of each month."
    else "Non-badge holders may convert only on December 27th each year."
  let (canConvert, reason, nextAllowed) :=
    if allowAnyDay then
      (true, some "Developer override is enabled; conversion may proceed any day.", none)
    else if hasBadge then
      (decide (day = 15), none, some (if day > 15 then dateUTC year (month + 1) 15 else dateUTC year month 15))
    else
      (decide (month = 11 ∧ day = 27), none,
        some (if month > 11 ∨ month = 11 ∧ day > 27 then dateUTC (year + 1) 11 27 else dateUTC year 11 27))
  let (canConvert, reason) :=
    match lastConversionAt with
    | none      => (canConvert, reason)
    | some last =>
      if hasBadge then
        if getUTCFullYear last = year ∧ getUTCMonth last = month then
          (false, some "This wallet already converted Mallpoints this month.")
        else (canConvert, reason)
      else
        if getUTCFullYear last = year then
          (false, some "This wallet already converted Mallpoints this year.")
        else (canConvert, reason)
  let reason :=
    if ¬allowAnyDay ∧ reason = none ∧ ¬canConvert then
      some (if hasBadge then "Conversion is only available on the 15th for badge holders."
        else "Conversion is only available on December 27th for non-badge holders.")
    else reason
  { canConvert, reason, nextAllowedConversionAt := nextAllowed, windowRule, allowAnyDay }

-- The day is one on which such a wallet may convert.
def Window (hasBadge : Bool) (time : ℤ) : Prop :=
  if hasBadge then getUTCDate time = 15 else getUTCMonth time = 11 ∧ getUTCDate time = 27

-- The month of a badge holder, the year of the others
def SamePeriod (hasBadge : Bool) (time time' : ℤ) : Prop :=
  getUTCFullYear time = getUTCFullYear time' ∧ (hasBadge = true → getUTCMonth time = getUTCMonth time')

-- The attempts of a wallet that are allowed. Each of them is the last conversion for those that follow.
def conversions : Option ℤ → List (Bool × ℤ) → List (Bool × ℤ)
  | _, [] => []
  | last, (hasBadge, now) :: attempts =>
    if (buildConversionStatus hasBadge last now false).canConvert then
      (hasBadge, now) :: conversions (some now) attempts
    else conversions last attempts

-- No two of the attempts of a wallet that are allowed are in one month of a badge holder, or in one year.
def OnePerPeriod : Prop :=
  ∀ lastConversionAt attempts, attempts.Pairwise (fun a b => a.2 ≤ b.2) →
    (conversions lastConversionAt attempts).Pairwise fun a b => ¬SamePeriod b.1 a.2 b.2

-- The time that a refusal names
def nextWindow (hasBadge : Bool) (now : ℤ) : ℤ :=
  if hasBadge then
    if getUTCDate now > 15 then dateUTC (getUTCFullYear now) (getUTCMonth now + 1) 15
    else dateUTC (getUTCFullYear now) (getUTCMonth now) 15
  else if getUTCMonth now = 11 ∧ getUTCDate now > 27 then dateUTC (getUTCFullYear now + 1) 11 27
  else dateUTC (getUTCFullYear now) 11 27

-- A refusal is one until the time that it names, which is in the future, and at that time there is none.
def PromiseKept (hasBadge : Bool) (lastConversionAt : Option ℤ) (now : ℤ) : Prop :=
  ∀ next, (buildConversionStatus hasBadge lastConversionAt now false).canConvert = false →
    (buildConversionStatus hasBadge lastConversionAt now false).nextAllowedConversionAt = some next →
      now < next ∧ (buildConversionStatus hasBadge lastConversionAt next false).canConvert = true ∧
        ∀ t, now ≤ t → t < next → (buildConversionStatus hasBadge lastConversionAt t false).canConvert = false

def monthNumber (time : ℤ) : ℤ := 12 * getUTCFullYear time + getUTCMonth time

-- The last conversion is in this month, or in this year, until the 15th or until December 27, and after that
-- in the next one.
def ConvertedInNext (hasBadge : Bool) (lastConversionAt : Option ℤ) (now : ℤ) : Prop :=
  ∃ last ∈ lastConversionAt,
    if hasBadge then monthNumber last = if getUTCDate now > 15 then monthNumber now + 1 else monthNumber now
    else getUTCFullYear last =
      if getUTCMonth now = 11 ∧ getUTCDate now > 27 then getUTCFullYear now + 1 else getUTCFullYear now

variable {hasBadge allowAnyDay : Bool} {lastConversionAt : Option ℤ} {now t t' last : ℤ}

section Status

theorem canConvert_iff : (buildConversionStatus hasBadge lastConversionAt now allowAnyDay).canConvert = true ↔
    (allowAnyDay = true ∨ Window hasBadge now) ∧ ∀ last ∈ lastConversionAt, ¬SamePeriod hasBadge last now := by
  cases lastConversionAt with
  | none => cases hasBadge <;> cases allowAnyDay <;> simp [buildConversionStatus, Window]
  | some last =>
    by_cases hsame : SamePeriod hasBadge last now
    case pos =>
      simp only [Option.mem_def, Option.some.injEq, forall_eq', hsame, not_true_eq_false, and_false, iff_false]
      cases hasBadge <;> simp [SamePeriod] at hsame <;> simp [buildConversionStatus, hsame]
    case neg =>
      simp only [Option.mem_def, Option.some.injEq, forall_eq', hsame, not_false_eq_true, and_true]
      cases hasBadge <;> cases allowAnyDay <;> simp [SamePeriod, -not_and] at hsame <;>
        simp [buildConversionStatus, Window, hsame]

-- What the route for conversions looks at
theorem canConvert_eq : (buildConversionStatus hasBadge lastConversionAt now allowAnyDay).canConvert =
    canConvert hasBadge allowAnyDay lastConversionAt now := by
  have hmonth : Calendar.month (now / 1000) - 1 = 11 ↔ Calendar.month (now / 1000) = 12 := by omega
  rw [Bool.eq_iff_iff, canConvert_iff]
  cases hasBadge <;> cases lastConversionAt <;>
    simp [canConvert, Window, SamePeriod, getUTCDate, getUTCMonth, getUTCFullYear, hmonth]
  exact fun _ => imp_iff_not_or

end Status

section Windows

theorem month_bounds : 0 ≤ getUTCMonth t ∧ getUTCMonth t ≤ 11 := by
  have h := Calendar.month_bounds (t / 1000)
  unfold getUTCMonth
  omega

theorem nextAllowed_eq : (buildConversionStatus hasBadge lastConversionAt now false).nextAllowedConversionAt =
    some (nextWindow hasBadge now) := by
  cases hasBadge with
  | true => rfl
  | false =>
    have hbounds := month_bounds (t := now)
    have hpast : getUTCMonth now > 11 ∨ getUTCMonth now = 11 ∧ getUTCDate now > 27 ↔
        getUTCMonth now = 11 ∧ getUTCDate now > 27 := by omega
    simp [buildConversionStatus, nextWindow, hpast]

theorem monthNumber_eq : monthNumber t = Calendar.months (Calendar.day (t / 1000)) + 2 := by
  have h : 12 * Calendar.year (t / 1000) + Calendar.month (t / 1000) = _ := Calendar.year_month
  unfold monthNumber getUTCMonth getUTCFullYear
  omega

theorem monthNumber_mono (h : t ≤ t') : monthNumber t ≤ monthNumber t' := by
  have hmono := Calendar.months_mono (Calendar.day_mono (Int.ediv_le_ediv (by decide : (0 : ℤ) < 1000) h))
  rw [monthNumber_eq, monthNumber_eq]
  omega

theorem getUTCDate_mono (h : t ≤ t') (hm : monthNumber t = monthNumber t') : getUTCDate t ≤ getUTCDate t' := by
  rw [monthNumber_eq, monthNumber_eq] at hm
  exact Calendar.dayOfMonth_mono (Int.ediv_le_ediv (by decide) h) (by omega)

theorem samePeriod_iff : SamePeriod hasBadge t t' ↔
    if hasBadge then monthNumber t = monthNumber t' else getUTCFullYear t = getUTCFullYear t' := by
  have h := month_bounds (t := t)
  have h' := month_bounds (t := t')
  cases hasBadge with
  | false => simp [SamePeriod]
  | true =>
    simp only [SamePeriod, monthNumber, forall_const, if_true]
    omega

theorem lt_dateUTC {year month date : ℤ} (hd : 1 ≤ date) (hd' : date ≤ 28) : t < dateUTC year month date ↔
    monthNumber t < 12 * year + month ∨ monthNumber t = 12 * year + month ∧ getUTCDate t < date := by
  have hlt := Calendar.lt_utc (t / 1000) year month hd hd'
  rw [monthNumber_eq, dateUTC, getUTCDate]
  omega

theorem monthNumber_dateUTC (year month : ℤ) {date : ℤ} (hd : 1 ≤ date) (hd' : date ≤ 28) :
    monthNumber (dateUTC year month date) = 12 * year + month := by
  have hm := Calendar.months_utc year month hd hd'
  have hdiv : dateUTC year month date / 1000 = Calendar.utc year month date := by
    unfold dateUTC
    omega
  rw [monthNumber_eq, hdiv]
  omega

theorem getUTCDate_dateUTC {year month date : ℤ} (hd : 1 ≤ date) (hd' : date ≤ 28) :
    getUTCDate (dateUTC year month date) = date := by
  have hdiv : dateUTC year month date / 1000 = Calendar.utc year month date := by
    unfold dateUTC
    omega
  rw [getUTCDate, hdiv, Calendar.dayOfMonth_utc year month hd hd']

-- Where the next window is: in the month, or in December of the year, that is counted from now.
theorem nextWindow_eq (hasBadge : Bool) (now : ℤ) : ∃ year month date, nextWindow hasBadge now = dateUTC year month date ∧
    1 ≤ date ∧ date ≤ 28 ∧
    if hasBadge then date = 15 ∧ 12 * year + month = monthNumber now + if getUTCDate now > 15 then 1 else 0
    else date = 27 ∧ month = 11 ∧
      year = getUTCFullYear now + if getUTCMonth now = 11 ∧ getUTCDate now > 27 then 1 else 0 := by
  cases hasBadge with
  | true =>
    by_cases hday : getUTCDate now > 15
    case pos =>
      exact ⟨_, _, 15, if_pos hday, by decide, by decide, rfl, by rw [if_pos hday, monthNumber]; ring⟩
    case neg =>
      exact ⟨_, _, 15, if_neg hday, by decide, by decide, rfl, by rw [if_neg hday, monthNumber]; ring⟩
  | false =>
    by_cases hday : getUTCMonth now = 11 ∧ getUTCDate now > 27
    case pos => exact ⟨_, 11, 27, if_pos hday, by decide, by decide, rfl, rfl, by rw [if_pos hday]⟩
    case neg => exact ⟨_, 11, 27, if_neg hday, by decide, by decide, rfl, rfl, by rw [if_neg hday, add_zero]⟩

theorem window_iff : Window hasBadge t ↔
    if hasBadge then getUTCDate t = 15 else monthNumber t = 12 * getUTCFullYear t + 11 ∧ getUTCDate t = 27 := by
  cases hasBadge with
  | true => rfl
  | false =>
    simp only [Window, monthNumber, Bool.false_eq_true, if_false]
    omega

-- A wallet may convert in the next window.
theorem window_nextWindow : Window hasBadge (nextWindow hasBadge now) := by
  obtain ⟨year, month, date, heq, hd, hd', hnext⟩ := nextWindow_eq hasBadge now
  rw [heq, Window, getUTCDate_dateUTC hd hd']
  cases hasBadge with
  | true => exact hnext.1
  | false =>
    have hnumber := monthNumber_dateUTC year month hd hd'
    have hbounds := month_bounds (t := dateUTC year month date)
    obtain ⟨hdate, rfl, _⟩ := hnext
    refine ⟨?_, hdate⟩
    rw [monthNumber] at hnumber
    omega

-- There is no window before it.
theorem not_window_of_lt (hnow : now ≤ t) (h : t < nextWindow hasBadge now) : ¬Window hasBadge t := by
  obtain ⟨year, month, date, heq, hd, hd', hnext⟩ := nextWindow_eq hasBadge now
  rw [heq, lt_dateUTC hd hd'] at h
  have hmono := monthNumber_mono hnow
  have hsame := getUTCDate_mono hnow
  have hbounds := month_bounds (t := now)
  have hbounds' := month_bounds (t := t)
  cases hasBadge with
  | true =>
    simp only [Window, if_true]
    obtain ⟨rfl, hnumber⟩ := hnext
    split_ifs at hnumber <;> omega
  | false =>
    simp only [Window, Bool.false_eq_true, if_false]
    obtain ⟨rfl, rfl, hyear⟩ := hnext
    unfold monthNumber at *
    split_ifs at hyear <;> omega

-- The next window is in the future, unless there is one now, in which case it is in the same month.
theorem lt_nextWindow (hasBadge : Bool) (now : ℤ) : now < nextWindow hasBadge now ∨ Window hasBadge now := by
  obtain ⟨year, month, date, heq, hd, hd', hnext⟩ := nextWindow_eq hasBadge now
  have hbounds := month_bounds (t := now)
  rw [heq, lt_dateUTC hd hd']
  cases hasBadge with
  | true =>
    simp only [Window, if_true]
    obtain ⟨rfl, hnumber⟩ := hnext
    split_ifs at hnumber <;> omega
  | false =>
    simp only [Window, Bool.false_eq_true, if_false]
    obtain ⟨rfl, rfl, hyear⟩ := hnext
    unfold monthNumber at *
    split_ifs at hyear <;> omega

theorem convertedInNext_iff : ConvertedInNext hasBadge lastConversionAt now ↔
    ∃ last ∈ lastConversionAt, SamePeriod hasBadge last (nextWindow hasBadge now) := by
  obtain ⟨year, month, date, heq, hd, hd', hnext⟩ := nextWindow_eq hasBadge now
  have hnumber := monthNumber_dateUTC year month hd hd'
  have hbounds := month_bounds (t := dateUTC year month date)
  simp only [ConvertedInNext, samePeriod_iff, heq]
  cases hasBadge with
  | true =>
    simp only [if_true, hnumber, hnext.2]
    split_ifs <;> simp
  | false =>
    obtain ⟨_, rfl, hyear⟩ := hnext
    have hfull : getUTCFullYear (dateUTC year 11 date) = year := by
      unfold monthNumber at hnumber
      omega
    simp only [Bool.false_eq_true, if_false, hfull]
    rw [hyear]
    split_ifs <;> simp

end Windows

section Promises

theorem refused_iff : (buildConversionStatus hasBadge lastConversionAt now false).canConvert = false ↔
    ¬(Window hasBadge now ∧ ∀ last ∈ lastConversionAt, ¬SamePeriod hasBadge last now) := by
  rw [← Bool.not_eq_true, canConvert_iff]
  simp

-- In a window the month, or the year, of the next window is that of now.
theorem samePeriod_nextWindow (h : Window hasBadge now) :
    SamePeriod hasBadge last (nextWindow hasBadge now) ↔ SamePeriod hasBadge last now := by
  have hin : ∀ last, ConvertedInNext hasBadge (some last) now ↔ SamePeriod hasBadge last now := by
    intro last
    rw [samePeriod_iff]
    cases hasBadge with
    | true =>
      have hday : getUTCDate now = 15 := h
      simp [ConvertedInNext, hday]
    | false =>
      have hday : getUTCMonth now = 11 ∧ getUTCDate now = 27 := h
      simp [ConvertedInNext, hday]
  rw [← hin last, convertedInNext_iff]
  simp

theorem promiseKept_iff : PromiseKept hasBadge lastConversionAt now ↔
    ¬ConvertedInNext hasBadge lastConversionAt now := by
  rw [convertedInNext_iff, PromiseKept, nextAllowed_eq]
  constructor
  case mp =>
    rintro hkept ⟨last, hlast, hsame⟩
    have hrefused : (buildConversionStatus hasBadge lastConversionAt now false).canConvert = false :=
      refused_iff.mpr fun ⟨hwindow, hnot⟩ => hnot last hlast ((samePeriod_nextWindow hwindow).mp hsame)
    obtain ⟨_, hallowed, _⟩ := hkept _ hrefused rfl
    exact (canConvert_iff.mp hallowed).2 last hlast hsame
  case mpr =>
    rintro hnot _ hrefused ⟨⟩
    refine ⟨?_, ?_, fun t hnow ht => ?_⟩
    case refine_1 =>
      rcases lt_nextWindow hasBadge now with hlt | hwindow
      · exact hlt
      · refine absurd ⟨hwindow, fun last hlast hsame => hnot ⟨last, hlast, ?_⟩⟩ (refused_iff.mp hrefused)
        exact (samePeriod_nextWindow hwindow).mpr hsame
    case refine_2 =>
      exact canConvert_iff.mpr ⟨.inr window_nextWindow, fun last hlast hsame => hnot ⟨last, hlast, hsame⟩⟩
    case refine_3 => exact refused_iff.mpr fun ⟨hwindow, _⟩ => not_window_of_lt hnow ht hwindow

end Promises

section Runs

variable {attempts : List (Bool × ℤ)} {a : Bool × ℤ}

theorem getUTCFullYear_mono (h : t ≤ t') : getUTCFullYear t ≤ getUTCFullYear t' := by
  have hmono := monthNumber_mono h
  have hbounds := month_bounds (t := t)
  have hbounds' := month_bounds (t := t')
  unfold monthNumber at hmono
  omega

-- What lies between two times of a period is in it.
theorem SamePeriod.between (h : SamePeriod hasBadge t now) (ht : t ≤ t') (ht' : t' ≤ now) :
    SamePeriod hasBadge t' now := by
  have hyear := getUTCFullYear_mono ht
  have hyear' := getUTCFullYear_mono ht'
  have hmonth := monthNumber_mono ht
  have hmonth' := monthNumber_mono ht'
  rw [samePeriod_iff] at h ⊢
  split_ifs at h ⊢ <;> omega

theorem mem_of_mem_conversions (h : a ∈ conversions lastConversionAt attempts) : a ∈ attempts := by
  induction attempts generalizing lastConversionAt with
  | nil => cases h
  | cons attempt attempts ih =>
    rw [conversions] at h
    split_ifs at h
    case pos =>
      rcases List.mem_cons.mp h with rfl | h
      · exact List.mem_cons_self
      · exact List.mem_cons_of_mem _ (ih h)
    case neg => exact List.mem_cons_of_mem _ (ih h)

-- After a conversion none is allowed in its period, even when others follow.
theorem not_samePeriod_of_mem (hsorted : attempts.Pairwise fun a b => a.2 ≤ b.2) (ht : ∀ a ∈ attempts, t ≤ a.2)
    (h : a ∈ conversions (some t) attempts) : ¬SamePeriod a.1 t a.2 := by
  induction attempts generalizing t with
  | nil => cases h
  | cons attempt attempts ih =>
    obtain ⟨hfirst, hsorted⟩ := List.pairwise_cons.mp hsorted
    rw [conversions] at h
    split_ifs at h with hallowed
    case pos =>
      rcases List.mem_cons.mp h with rfl | h
      · exact (canConvert_iff.mp hallowed).2 t rfl
      · intro hsame
        have hlater : attempt.2 ≤ a.2 := hfirst a (mem_of_mem_conversions h)
        exact ih hsorted hfirst h (hsame.between (ht attempt List.mem_cons_self) hlater)
    case neg => exact ih hsorted (fun a ha => ht a (List.mem_cons_of_mem _ ha)) h

theorem onePerPeriod : OnePerPeriod := by
  intro lastConversionAt attempts hsorted
  induction attempts generalizing lastConversionAt with
  | nil => exact .nil
  | cons attempt attempts ih =>
    obtain ⟨hfirst, hsorted⟩ := List.pairwise_cons.mp hsorted
    rw [conversions]
    split_ifs
    case pos =>
      exact List.pairwise_cons.mpr ⟨fun a ha => not_samePeriod_of_mem hsorted hfirst ha, ih _ hsorted⟩
    case neg => exact ih _ hsorted

end Runs

-- At most one conversion in a period is allowed, and the time that a refusal names is right unless the last
-- conversion is in the period of the next window.
theorem conversion_promise_iff (hasBadge : Bool) (lastConversionAt : Option ℤ) (now : ℕ) :
    (OnePerPeriod ∧ PromiseKept hasBadge lastConversionAt now) ↔ ¬ConvertedInNext hasBadge lastConversionAt now := by
  rw [and_iff_right onePerPeriod, promiseKept_iff]

-- After a conversion on July 15, 2026 the next one is promised for the start of the same day.
theorem promised_the_past :
    ¬∀ hasBadge lastConversionAt (now : ℕ), OnePerPeriod ∧ PromiseKept hasBadge lastConversionAt now := by
  intro h
  have hlt := (h true (some 1784109600000) 1784116800000).2 1784073600000 (by decide +kernel) (by decide +kernel)
  exact absurd hlt.1 (by decide)

end Trade
