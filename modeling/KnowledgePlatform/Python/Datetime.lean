import Mathlib.Tactic

/-!
# Points in time

A point in time is the number of microseconds since the epoch, in UTC.  The
only calendar computation the platform makes is the start of a month; the points in
time from it up to a moment of the month have the same start
(`monthStart_eq_of_le`).
-/

namespace Python

/-- A `datetime` in UTC, in microseconds since the epoch. -/
abbrev Time := ℕ

namespace Time

/-- Microseconds in a second. -/
def second : ℕ := 1000000

/-- Microseconds in a day. -/
def day : ℕ := 86400 * second

/-- How many days of its month lie before the day number `days` since the epoch.
Years are counted from March and in eras of 400, so that leap days come last. -/
def daysIntoMonth (days : ℕ) : ℕ :=
  let dayOfEra := (days + 719468) % 146097
  let yearOfEra := (dayOfEra - dayOfEra / 1460 + dayOfEra / 36524 - dayOfEra / 146096) / 365
  let dayOfYear := dayOfEra - (365 * yearOfEra + yearOfEra / 4 - yearOfEra / 100)
  let month := (5 * dayOfYear + 2) / 153
  dayOfYear - (153 * month + 2) / 5

/-- `now.replace(day=1, hour=0, minute=0, second=0, microsecond=0)` -/
def monthStart (now : Time) : Time := (now / day - daysIntoMonth (now / day)) * day

/-- Two points in time lie in one calendar month. -/
def SameMonth (first second : Time) : Prop := monthStart first = monthStart second

theorem monthStart_le (now : Time) : monthStart now ≤ now :=
  (Nat.mul_le_mul_right day (Nat.sub_le _ _)).trans (Nat.div_mul_le_self now day)

/-- 2026-07-31T23:59:59Z belongs to the month that began on 2026-07-01. -/
example : monthStart (1785542399 * second) = 1782864000 * second := by decide

/-! ## Months as intervals -/

/-- The year of the era a day of it lies in. -/
def yearOfEra (dayOfEra : ℕ) : ℕ :=
  (dayOfEra - dayOfEra / 1460 + dayOfEra / 36524 - dayOfEra / 146096) / 365

/-- The first day of a year of the era; the era has 146097 days. -/
def yearStart (year : ℕ) : ℕ := 365 * year + year / 4 - year / 100 + year / 400

/-- How many days of its month lie before a day of the year. -/
def dayOfMonth (dayOfYear : ℕ) : ℕ := dayOfYear - (153 * ((5 * dayOfYear + 2) / 153) + 2) / 5

theorem yearOfEra_mono {first later : ℕ} (h : first ≤ later) :
    yearOfEra first ≤ yearOfEra later := by
  induction later, h using Nat.le_induction with
  | base => exact le_rfl
  | succ later _ ih =>
      refine ih.trans (Nat.div_le_div_right ?_)
      omega

/-- A day between the starts of two years lies in the first of them. -/
theorem yearOfEra_eq {year dayOfEra : ℕ} (hyear : year < 400) (hstart : yearStart year ≤ dayOfEra)
    (hnext : dayOfEra < yearStart (year + 1)) : yearOfEra dayOfEra = year := by
  have hends : ∀ year < 400, yearOfEra (yearStart year) = year ∧
      yearOfEra (yearStart (year + 1) - 1) = year := by decide +kernel
  have hlower := yearOfEra_mono hstart
  have hupper := yearOfEra_mono (Nat.le_sub_one_of_lt hnext)
  rw [(hends year hyear).1] at hlower
  rw [(hends year hyear).2] at hupper
  exact le_antisymm hupper hlower

theorem exists_year {years dayOfEra : ℕ} (h : dayOfEra < yearStart years) :
    ∃ year < years, yearStart year ≤ dayOfEra ∧ dayOfEra < yearStart (year + 1) := by
  induction years with
  | zero => exact absurd h (Nat.not_lt_zero _)
  | succ years ih =>
      by_cases hearlier : dayOfEra < yearStart years
      · obtain ⟨year, hyear, hlies⟩ := ih hearlier
        exact ⟨year, hyear.trans years.lt_succ_self, hlies⟩
      · exact ⟨years, years.lt_succ_self, not_lt.mp hearlier, h⟩

/-- `daysIntoMonth` computes the day of the month of the day of the year. -/
theorem daysIntoMonth_eq {days year : ℕ} (hyear : year < 400)
    (hstart : yearStart year ≤ (days + 719468) % 146097)
    (hnext : (days + 719468) % 146097 < yearStart (year + 1)) :
    daysIntoMonth days = dayOfMonth ((days + 719468) % 146097 - yearStart year) := by
  have hfound := yearOfEra_eq hyear hstart hnext
  unfold yearOfEra at hfound
  have hleap : year / 400 = 0 := Nat.div_eq_of_lt hyear
  simp only [daysIntoMonth, dayOfMonth, yearStart, hfound, hleap, Nat.add_zero]

/-- The next day is a first of a month or one day further into the same month. -/
theorem daysIntoMonth_succ (days : ℕ) :
    daysIntoMonth (days + 1) = 0 ∨ daysIntoMonth (days + 1) = daysIntoMonth days + 1 := by
  have hera : (days + 1 + 719468) % 146097 < yearStart 400 := Nat.mod_lt _ (by decide)
  obtain ⟨year, hyear, hstart, hnext⟩ := exists_year hera
  rw [daysIntoMonth_eq hyear hstart hnext]
  rcases hstart.eq_or_lt with hfirst | hlater
  · -- the first of March
    exact .inl (by rw [← hfirst, Nat.sub_self]; rfl)
  · have hdays : (days + 1 + 719468) % 146097 = (days + 719468) % 146097 + 1 := by omega
    rw [hdays] at hnext hlater ⊢
    rw [daysIntoMonth_eq hyear (Nat.le_of_lt_succ hlater) (Nat.lt_of_succ_lt hnext)]
    have hmonths : ∀ dayOfYear < 366, dayOfMonth (dayOfYear + 1) = 0 ∨
        dayOfMonth (dayOfYear + 1) = dayOfMonth dayOfYear + 1 := by decide +kernel
    have hlong : yearStart (year + 1) ≤ yearStart year + 366 := by
      unfold yearStart
      omega
    rw [Nat.sub_add_comm (Nat.le_of_lt_succ hlater)]
    exact hmonths _ (by omega)

theorem daysIntoMonth_le (days : ℕ) : daysIntoMonth days ≤ days := by
  induction days with
  | zero => decide +kernel
  | succ days ih => rcases daysIntoMonth_succ days with h | h <;> omega

theorem daysIntoMonth_sub {days back : ℕ} (h : back ≤ daysIntoMonth days) :
    daysIntoMonth (days - back) = daysIntoMonth days - back := by
  induction back with
  | zero => rw [Nat.sub_zero, Nat.sub_zero]
  | succ back ih =>
      have hearlier := ih (Nat.le_of_succ_le h)
      have hle := daysIntoMonth_le days
      have hprevious : days - back = days - (back + 1) + 1 := by omega
      rw [hprevious] at hearlier
      rcases daysIntoMonth_succ (days - (back + 1)) with hfirst | hnext <;> omega

/-- A day from the first of a month on up to a day of the month has the same
first of the month. -/
theorem sub_daysIntoMonth_eq {days earlier : ℕ} (hfirst : days - daysIntoMonth days ≤ earlier)
    (hearlier : earlier ≤ days) :
    earlier - daysIntoMonth earlier = days - daysIntoMonth days := by
  have hsame := @daysIntoMonth_sub days (days - earlier) (by omega)
  rw [Nat.sub_sub_self hearlier] at hsame
  have hle := daysIntoMonth_le days
  omega

/-- The points in time from the first of the month up to `now` lie in the month. -/
theorem monthStart_eq_of_le {now earlier : Time} (hfirst : monthStart now ≤ earlier)
    (hearlier : earlier ≤ now) : monthStart earlier = monthStart now := by
  have hback : now / day - daysIntoMonth (now / day) ≤ earlier / day :=
    (Nat.le_div_iff_mul_le (by decide)).mpr hfirst
  unfold monthStart
  rw [sub_daysIntoMonth_eq hback (Nat.div_le_div_right hearlier)]

end Time

end Python
