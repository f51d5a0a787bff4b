import Mathlib

-- The Gregorian calendar in UTC.
namespace Calendar

-- The days since March 1 of the year 0 at a Unix time. A year that starts in March ends with its
-- leap day, and so does a cycle of 4, 100 or 400 of them, if it has one.
def day (time : ℤ) : ℤ := time / 86400 + 719468

section March

variable (n : ℤ)

def era : ℤ := n / 146097
def century : ℤ := min (n % 146097 / 36524) 3
def dayOfCentury : ℤ := n % 146097 - 36524 * century n
def leapCycle : ℤ := dayOfCentury n / 1461
def dayOfCycle : ℤ := dayOfCentury n % 1461
def yearOfCycle : ℤ := min (dayOfCycle n / 365) 3
def dayOfYear : ℤ := dayOfCycle n - 365 * yearOfCycle n

def marchYear : ℤ := 400 * era n + 100 * century n + 4 * leapCycle n + yearOfCycle n

-- March is 0 and February is 11.
def marchMonth : ℤ := (5 * dayOfYear n + 2) / 153

-- The months since March of the year 0.
def months : ℤ := 12 * marchYear n + marchMonth n

end March

def month (time : ℤ) : ℤ :=
  (marchMonth (day time) + 2) % 12 + 1

def year (time : ℤ) : ℤ :=
  (months (day time) + 2) / 12

def dayOfMonth (time : ℤ) : ℤ :=
  dayOfYear (day time) - (153 * marchMonth (day time) + 2) / 5 + 1

-- The first day of a year that starts in March
def yearStart (y : ℤ) : ℤ := 365 * y + y / 4 - y / 100 + y / 400

-- The first day of a month, which is counted since March of the year 0
def monthStart (m : ℤ) : ℤ := yearStart (m / 12) + (153 * (m % 12) + 2) / 5

-- The first second of a day. The months of a year are 0 to 11, the others are in the years before and after.
def utc (year month dayOfMonth : ℤ) : ℤ :=
  (monthStart (12 * year + month - 2) + dayOfMonth - 1 - 719468) * 86400

example : (year 951782399, month 951782399, dayOfMonth 951782399) = (2000, 2, 28) := by decide +kernel
example : (year 951782400, month 951782400, dayOfMonth 951782400) = (2000, 2, 29) := by decide +kernel

example : utc 2000 1 29 = 951782400 := by decide +kernel

variable {n n' m m' time time' : ℤ}

theorem century_bounds : 0 ≤ century n ∧ century n ≤ 3 := by
  unfold century
  omega

theorem leapCycle_bounds : 0 ≤ leapCycle n ∧ leapCycle n ≤ 24 := by
  unfold leapCycle dayOfCentury century
  omega

theorem yearOfCycle_bounds : 0 ≤ yearOfCycle n ∧ yearOfCycle n ≤ 3 := by
  unfold yearOfCycle dayOfCycle
  omega

theorem marchMonth_bounds : 0 ≤ marchMonth n ∧ marchMonth n ≤ 11 := by
  unfold marchMonth dayOfYear yearOfCycle dayOfCycle
  omega

-- A later day is in a later year, or as far in the same year.
theorem marchYear_lt_or (h : n ≤ n') :
    marchYear n < marchYear n' ∨ marchYear n = marchYear n' ∧ dayOfYear n ≤ dayOfYear n' := by
  have hc₁ := century_bounds (n := n)
  have hc₂ := century_bounds (n := n')
  have hl₁ := leapCycle_bounds (n := n)
  have hl₂ := leapCycle_bounds (n := n')
  have hy₁ := yearOfCycle_bounds (n := n)
  have hy₂ := yearOfCycle_bounds (n := n')
  have he : era n < era n' ∨ era n = era n' ∧ n % 146097 ≤ n' % 146097 := by
    unfold era
    omega
  unfold marchYear
  rcases he with he | ⟨he, hr⟩
  · omega
  have hc : century n < century n' ∨ century n = century n' ∧ dayOfCentury n ≤ dayOfCentury n' := by
    unfold dayOfCentury century
    omega
  rcases hc with hc | ⟨hc, hr⟩
  · omega
  have hl : leapCycle n < leapCycle n' ∨
      leapCycle n = leapCycle n' ∧ dayOfCycle n ≤ dayOfCycle n' := by
    unfold dayOfCycle leapCycle
    omega
  rcases hl with hl | ⟨hl, hr⟩
  · omega
  have hy : yearOfCycle n < yearOfCycle n' ∨
      yearOfCycle n = yearOfCycle n' ∧ dayOfYear n ≤ dayOfYear n' := by
    unfold dayOfYear yearOfCycle
    omega
  omega

theorem months_mono (h : n ≤ n') : months n ≤ months n' := by
  have hm₁ := marchMonth_bounds (n := n)
  have hm₂ := marchMonth_bounds (n := n')
  rcases marchYear_lt_or h with hy | ⟨hy, hd⟩
  · unfold months
    omega
  · have hm : marchMonth n ≤ marchMonth n' := by
      unfold marchMonth
      omega
    unfold months
    omega

theorem day_mono (h : time ≤ time') : day time ≤ day time' := by
  unfold day
  omega

-- The year and the month of a time count its months.
theorem year_month : 12 * year time + month time = months (day time) + 3 := by
  have hm := marchMonth_bounds (n := day time)
  unfold year month months
  omega

-- 400 years have 4800 months.
theorem months_bounds : 4800 * era n ≤ months n ∧ months n < 4800 * (era n + 1) := by
  have hc := century_bounds (n := n)
  have hl := leapCycle_bounds (n := n)
  have hy := yearOfCycle_bounds (n := n)
  have hm := marchMonth_bounds (n := n)
  unfold months marchYear
  omega

section Months

theorem dayOfYear_nonneg : 0 ≤ dayOfYear n := by
  unfold dayOfYear yearOfCycle dayOfCycle
  omega

theorem months_div : months n / 12 = marchYear n ∧ months n % 12 = marchMonth n := by
  have h := marchMonth_bounds (n := n)
  unfold months
  omega

theorem yearStart_add : yearStart (marchYear n) + dayOfYear n = n := by
  have hc := century_bounds (n := n)
  have hl := leapCycle_bounds (n := n)
  have hy := yearOfCycle_bounds (n := n)
  have h4 : marchYear n / 4 = 100 * era n + 25 * century n + leapCycle n := by
    unfold marchYear
    omega
  have h100 : marchYear n / 100 = 4 * era n + century n := by
    unfold marchYear
    omega
  have h400 : marchYear n / 400 = era n := by
    unfold marchYear
    omega
  rw [yearStart, h4, h100, h400]
  unfold marchYear dayOfYear dayOfCycle leapCycle dayOfCentury era
  omega

-- Only the last year of a cycle has a day more, and not in the last cycle of a century.
theorem dayOfYear_lt : dayOfYear n < yearStart (marchYear n + 1) - yearStart (marchYear n) := by
  have hc := century_bounds (n := n)
  have hl := leapCycle_bounds (n := n)
  have hy := yearOfCycle_bounds (n := n)
  have hyear : marchYear n = 400 * era n + 100 * century n + 4 * leapCycle n + yearOfCycle n := rfl
  have hday : dayOfYear n ≤ 365 ∧ (yearOfCycle n < 3 → dayOfYear n ≤ 364) ∧
      (leapCycle n = 24 → century n < 3 → dayOfYear n ≤ 364) := by
    unfold dayOfYear yearOfCycle dayOfCycle leapCycle dayOfCentury century
    omega
  unfold yearStart
  omega

theorem monthStart_months : monthStart (months n) = n - (dayOfYear n - (153 * marchMonth n + 2) / 5) := by
  have hy := yearStart_add (n := n)
  rw [monthStart, months_div.1, months_div.2]
  omega

theorem monthStart_le : monthStart (months n) ≤ n := by
  have hd := dayOfYear_nonneg (n := n)
  rw [monthStart_months]
  unfold marchMonth
  omega

theorem lt_monthStart_succ : n < monthStart (months n + 1) := by
  have hd := months_div (n := n)
  have hm := marchMonth_bounds (n := n)
  have hy := yearStart_add (n := n)
  have hlt := dayOfYear_lt (n := n)
  have hmonth : marchMonth n = (5 * dayOfYear n + 2) / 153 := rfl
  unfold monthStart
  by_cases h : marchMonth n = 11
  · have hdiv : (months n + 1) / 12 = marchYear n + 1 := by omega
    have hmod : (months n + 1) % 12 = 0 := by omega
    rw [hdiv, hmod]
    omega
  · have hdiv : (months n + 1) / 12 = marchYear n := by omega
    have hmod : (months n + 1) % 12 = marchMonth n + 1 := by omega
    rw [hdiv, hmod]
    omega

-- A month has at least 28 days.
theorem monthStart_succ : monthStart m + 28 ≤ monthStart (m + 1) := by
  unfold monthStart yearStart
  by_cases h : m % 12 = 11
  · have hdiv : (m + 1) / 12 = m / 12 + 1 := by omega
    have hmod : (m + 1) % 12 = 0 := by omega
    rw [h, hdiv, hmod]
    omega
  · have hdiv : (m + 1) / 12 = m / 12 := by omega
    have hmod : (m + 1) % 12 = m % 12 + 1 := by omega
    rw [hdiv, hmod]
    omega

theorem monthStart_mono (h : m ≤ m') : monthStart m ≤ monthStart m' := by
  induction m', h using Int.leInduction with
  | base => exact le_rfl
  | succ m' _ ih =>
    have hsucc := monthStart_succ (m := m')
    omega

-- A day is in the month that starts before it and ends after it.
theorem months_eq (h : monthStart m ≤ n) (h' : n < monthStart (m + 1)) : months n = m := by
  have hle := monthStart_le (n := n)
  have hlt := lt_monthStart_succ (n := n)
  rcases lt_trichotomy (months n) m with hm | hm | hm
  · have hmono := monthStart_mono (Int.add_one_le_of_lt hm)
    omega
  · exact hm
  · have hmono := monthStart_mono (Int.add_one_le_of_lt hm)
    omega

theorem dayOfMonth_eq : dayOfMonth time = day time - monthStart (months (day time)) + 1 := by
  rw [monthStart_months, dayOfMonth]
  omega

-- A time is before a day when its month is, or when it is earlier in the same month.
theorem lt_utc (time year month : ℤ) {d : ℤ} (hd : 1 ≤ d) (hd' : d ≤ 28) : time < utc year month d ↔
    months (day time) < 12 * year + month - 2 ∨
      months (day time) = 12 * year + month - 2 ∧ dayOfMonth time < d := by
  have hday : time < utc year month d ↔ day time < monthStart (12 * year + month - 2) + d - 1 := by
    unfold utc day
    omega
  rw [hday, dayOfMonth_eq]
  generalize 12 * year + month - 2 = m
  have hle := monthStart_le (n := day time)
  have hlt := lt_monthStart_succ (n := day time)
  have hsucc := monthStart_succ (m := m)
  rcases lt_trichotomy (months (day time)) m with hm | hm | hm
  · have hmono := monthStart_mono (Int.add_one_le_of_lt hm)
    exact iff_of_true (by omega) (.inl hm)
  · rw [hm]
    omega
  · have hmono := monthStart_mono (Int.add_one_le_of_lt hm)
    omega

theorem months_utc (year month : ℤ) {d : ℤ} (hd : 1 ≤ d) (hd' : d ≤ 28) :
    months (day (utc year month d)) = 12 * year + month - 2 := by
  have hday : day (utc year month d) = monthStart (12 * year + month - 2) + d - 1 := by
    unfold utc day
    omega
  have hsucc := monthStart_succ (m := 12 * year + month - 2)
  exact months_eq (by omega) (by omega)

theorem dayOfMonth_utc (year month : ℤ) {d : ℤ} (hd : 1 ≤ d) (hd' : d ≤ 28) : dayOfMonth (utc year month d) = d := by
  have hday : day (utc year month d) = monthStart (12 * year + month - 2) + d - 1 := by
    unfold utc day
    omega
  rw [dayOfMonth_eq, months_utc year month hd hd', hday]
  omega

theorem dayOfMonth_mono (h : time ≤ time') (hm : months (day time) = months (day time')) :
    dayOfMonth time ≤ dayOfMonth time' := by
  have hday := day_mono h
  rw [dayOfMonth_eq, dayOfMonth_eq, hm]
  omega

theorem month_bounds (time : ℤ) : 1 ≤ month time ∧ month time ≤ 12 := by
  unfold month
  omega

end Months

end Calendar
