import Kaleidoscope.Cli.Iso8601

/-!
# Days and dates

The arithmetic from dates to days numbers them one after the other from the epoch on, and the one
from days to dates undoes it.
-/

namespace Kaleidoscope.Cli

open Calendar

private theorem tdiv_year (y : Int) : (if 0 ≤ y then y else y - 399).tdiv 400 = y / 400 := by
  rw [Int.tdiv_eq_ediv, show Int.sign 400 = 1 from rfl]
  split_ifs <;> omega

private theorem tdiv_day (z : Int) :
    (if 0 ≤ z then z else z - 146096).tdiv 146097 = z / 146097 := by
  rw [Int.tdiv_eq_ediv, show Int.sign 146097 = 1 from rfl]
  split_ifs <;> omega

/-- The number of a date, counted from the epoch. -/
def dayNumber (date : Date) : Int := daysFromCivil date.year date.month date.day

theorem daysFromCivil_succ (year : Int) (month day : Nat) :
    daysFromCivil year month (day + 1) = daysFromCivil year month day + 1 := by
  simp only [daysFromCivil]
  push_cast
  ring

/-- A month begins the day after the one before it ends. -/
theorem daysFromCivil_month (year : Int) {month : Nat} (hpos : 1 ≤ month) (hlt : month < 12) :
    daysFromCivil year (month + 1) 1 = daysFromCivil year month (daysIn year month) + 1 := by
  simp only [daysFromCivil, tdiv_year]
  interval_cases month
  case «2» =>
    -- The numbering of the source ends its year here.
    by_cases hleap : IsLeap year
    · have hdays : daysIn year 2 = 29 := if_pos hleap
      rw [IsLeap] at hleap
      simp [hdays]
      omega
    · have hdays : daysIn year 2 = 28 := if_neg hleap
      rw [IsLeap] at hleap
      simp [hdays]
      omega
  all_goals
    simp [daysIn]
    try omega

/-- A year begins the day after the one before it ends. -/
theorem daysFromCivil_year (year : Int) :
    daysFromCivil (year + 1) 1 1 = daysFromCivil year 12 31 + 1 := by
  simp [daysFromCivil, tdiv_year]
  omega

/-- Dates are numbered one after the other. -/
theorem dayNumber_next (date : Date) : dayNumber date.next = dayNumber date + 1 := by
  obtain ⟨year, month, day, hmonth, hday⟩ := date
  simp only [dayNumber, Date.next]
  split_ifs with hinside hinner
  · exact daysFromCivil_succ year month day
  · obtain rfl : day = daysIn year month := le_antisymm hday.2 (not_lt.mp hinside)
    exact daysFromCivil_month year hmonth.1 hinner
  · obtain rfl : month = 12 := le_antisymm hmonth.2 (not_lt.mp hinner)
    obtain rfl : day = 31 := le_antisymm hday.2 (not_lt.mp hinside)
    exact daysFromCivil_year year

/-- The year of an era, from the century, the leap cycle and the year in it. -/
private theorem yearOfEra_sum {c q r d doe : Int} (hc : 0 ≤ c ∧ c ≤ 3) (hq : 0 ≤ q ∧ q ≤ 24)
    (hr : 0 ≤ r ∧ r ≤ 3) (hd : 0 ≤ d ∧ d ≤ 365) (hleap : d = 365 → r = 3 ∧ (q = 24 → c = 3))
    (hdoe : doe = 36524 * c + 1461 * q + 365 * r + d) :
    (doe - doe / 1460 + doe / 36524 - doe / 146096) / 365 = 100 * c + 4 * q + r := by
  have hcenturies : doe / 36524 - doe / 146096 = c := by
    have hcentury : doe < 36524 * (c + 1) ∨ c = 3 ∧ doe = 146096 := by omega
    rcases hcentury with hlt | ⟨rfl, rfl⟩
    · have hwhole : doe / 146096 = 0 := by omega
      have hpart : doe / 36524 = c := by omega
      omega
    · rfl
  -- A century is 25 * 1460 days and 24 more, a leap cycle 1460 and one.
  have hcycles : doe / 1460 = 25 * c + q + (24 * c + q + 365 * r + d) / 1460 := by omega
  have hlow : (100 * c + 4 * q + r) * 365 ≤ doe - doe / 1460 + c := by omega
  have hhigh : doe - doe / 1460 + c < (100 * c + 4 * q + r) * 365 + 365 := by omega
  rw [add_sub_assoc, hcenturies]
  exact (Int.ediv_eq_iff_of_pos (by norm_num)).mpr ⟨hlow, hhigh⟩

/-- The year of an era, from a day of it. -/
private theorem yearOfEra_eq {yoe d doe : Int} (hyoe : 0 ≤ yoe ∧ yoe < 400) (hd : 0 ≤ d ∧ d ≤ 365)
    (hleap : d = 365 → yoe % 4 = 3 ∧ (yoe % 100 = 99 → yoe = 399))
    (hdoe : doe = yoe * 365 + yoe / 4 - yoe / 100 + d) :
    (0 ≤ doe ∧ doe < 146097) ∧
      (doe - doe / 1460 + doe / 36524 - doe / 146096) / 365 = yoe := by
  obtain ⟨c, q, r, hc, hq, hr, hsum⟩ : ∃ c q r : Int, (0 ≤ c ∧ c ≤ 3) ∧ (0 ≤ q ∧ q ≤ 24) ∧
      (0 ≤ r ∧ r ≤ 3) ∧ yoe = 100 * c + 4 * q + r :=
    ⟨yoe / 100, yoe % 100 / 4, yoe % 4, by omega, by omega, by omega, by omega⟩
  have hdays : doe = 36524 * c + 1461 * q + 365 * r + d := by omega
  refine ⟨by omega, ?_⟩
  rw [yearOfEra_sum hc hq hr hd (fun h => by omega) hdays, hsum]

/-- The year that a date has in the source's arithmetic, where years begin in March. -/
private def marchYear (date : Date) : Int := date.year - if date.month ≤ 2 then 1 else 0

/-- The months of this year before a date. -/
private def marchMonth (date : Date) : Int :=
  if 2 < date.month then (date.month : Int) - 3 else date.month + 9

/-- The days of this year before a date. -/
private def marchDay (date : Date) : Int := (153 * marchMonth date + 2) / 5 + date.day - 1

private theorem dayNumber_eq (date : Date) :
    dayNumber date = marchYear date / 400 * 146097 +
      (marchYear date % 400 * 365 + marchYear date % 400 / 4 - marchYear date % 400 / 100 +
        marchDay date) - 719468 := by
  have hmod : marchYear date - marchYear date / 400 * 400 = marchYear date % 400 := by omega
  rw [dayNumber, daysFromCivil, tdiv_year, ← marchMonth, ← marchYear, ← marchDay, hmod]

/-- Only a leap year has a last day of February that is its 366th. -/
private theorem marchDay_mem (date : Date) : 0 ≤ marchDay date ∧ marchDay date ≤ 365 ∧
    (marchDay date = 365 →
      marchYear date % 4 = 3 ∧ (marchYear date % 100 = 99 → marchYear date % 400 = 399)) := by
  obtain ⟨year, month, day, ⟨hpos, hle⟩, hday⟩ := date
  simp only [marchDay, marchMonth, marchYear]
  interval_cases month
  case «2» =>
    simp [daysIn, IsLeap] at hday ⊢
    split_ifs at hday <;> omega
  all_goals
    simp [daysIn] at hday ⊢
    omega

/-- The day of the year tells the month and the day. -/
private theorem marchMonth_eq (date : Date) : (5 * marchDay date + 2) / 153 = marchMonth date := by
  obtain ⟨year, month, day, ⟨hpos, hle⟩, hday⟩ := date
  simp only [marchDay, marchMonth]
  interval_cases month
  case «2» =>
    simp [daysIn, IsLeap] at hday ⊢
    split_ifs at hday <;> omega
  all_goals
    simp [daysIn] at hday ⊢
    omega

/-- A date is computed from its number. -/
theorem civilFromDays_dayNumber (date : Date) :
    civilFromDays (dayNumber date) = (date.year, date.month, date.day) := by
  obtain ⟨hnonneg, hle, hleap⟩ := marchDay_mem date
  have hyears : 0 ≤ marchYear date % 400 ∧ marchYear date % 400 < 400 := by omega
  obtain ⟨hdoe, hyoe⟩ := yearOfEra_eq hyears ⟨hnonneg, hle⟩ (fun h => by omega) rfl
  have hera : (dayNumber date + 719468) / 146097 = marchYear date / 400 := by
    rw [dayNumber_eq]
    omega
  have hrest : dayNumber date + 719468 - marchYear date / 400 * 146097 =
      marchYear date % 400 * 365 + marchYear date % 400 / 4 - marchYear date % 400 / 100 +
        marchDay date := by
    rw [dayNumber_eq]
    ring
  have hdoy : marchYear date % 400 * 365 + marchYear date % 400 / 4 -
      marchYear date % 400 / 100 + marchDay date - (365 * (marchYear date % 400) +
        marchYear date % 400 / 4 - marchYear date % 400 / 100) = marchDay date := by ring
  have hyear : marchYear date % 400 + marchYear date / 400 * 400 = marchYear date := by omega
  have hmonth : (if marchMonth date < 10 then marchMonth date + 3 else marchMonth date - 9) =
      date.month := by
    have := date.month_mem
    rw [marchMonth]
    split_ifs <;> omega
  have hday : marchDay date - (153 * marchMonth date + 2) / 5 + 1 = date.day := by
    rw [marchDay]
    ring
  simp only [civilFromDays, tdiv_day, hera, hrest, hyoe, hdoy, marchMonth_eq, hyear, hmonth, hday,
    Int.toNat_natCast, Nat.cast_le_ofNat]
  rw [marchYear, sub_add_cancel]

theorem dayNumber_injective : Function.Injective dayNumber := by
  intro date date' h
  have hfields := congrArg civilFromDays h
  simp only [civilFromDays_dayNumber, Prod.mk.injEq] at hfields
  obtain ⟨hyear, hmonth, hday⟩ := hfields
  exact Date.ext hyear hmonth hday

theorem january_mem : 1 ≤ 1 ∧ 1 ≤ 12 := by decide

theorem first_mem : 1 ≤ 1 ∧ 1 ≤ daysIn 1970 1 := by decide

/-- The first of January 1970. -/
def epoch : Date := ⟨1970, 1, 1, january_mem, first_mem⟩

theorem dayNumber_epoch : dayNumber epoch = 0 := by decide

/-- Days are numbered from the epoch on. -/
theorem dayNumber_after_epoch (days : Nat) : dayNumber (epoch.after days) = days := by
  rw [Date.number_after dayNumber_next, dayNumber_epoch, zero_add]

/-- The date that so many days after the epoch are computed to. -/
theorem civilFromDays_natCast (days : Nat) :
    civilFromDays days =
      ((epoch.after days).year, (epoch.after days).month, (epoch.after days).day) := by
  rw [← dayNumber_after_epoch, civilFromDays_dayNumber]

/-- A date from the epoch on is as many days after it as its number tells. -/
theorem epoch_after_eq_iff {date : Date} {days : Nat} :
    epoch.after days = date ↔ dayNumber date = days := by
  rw [← dayNumber_after_epoch]
  exact ⟨fun h => by rw [h], fun h => (dayNumber_injective h).symm⟩

/-- Years have 365 days at least. -/
theorem le_dayNumber {date : Date} (h : 1970 ≤ date.year) :
    365 * (date.year - 1970) ≤ dayNumber date := by
  have hmarch : marchYear date = date.year ∧ 0 ≤ marchDay date ∨
      marchYear date = date.year - 1 ∧ 306 ≤ marchDay date := by
    have := date.day_mem.1
    have := date.month_mem.1
    rw [marchYear, marchDay, marchMonth]
    split_ifs <;> omega
  rw [dayNumber_eq]
  omega

/-- The days from the epoch on are those of the years from 1970 on. -/
theorem dayNumber_nonneg_iff {date : Date} : 0 ≤ dayNumber date ↔ 1970 ≤ date.year := by
  constructor
  · contrapose!
    intro h
    have hmarch : marchYear date ≤ 1968 ∨ marchYear date = 1969 ∧ marchDay date ≤ 305 := by
      have := date.day_mem.2
      have := date.month_mem.2
      have : daysIn date.year date.month ≤ 31 := by
        rw [daysIn]
        split_ifs <;> decide
      rw [marchYear, marchDay, marchMonth]
      split_ifs <;> omega
    have := (marchDay_mem date).2.1
    rw [dayNumber_eq]
    omega
  · intro h
    have := le_dayNumber h
    omega

end Kaleidoscope.Cli
