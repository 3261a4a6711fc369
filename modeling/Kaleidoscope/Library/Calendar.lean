import Mathlib.Tactic

/-!
# The proleptic Gregorian calendar

A date has a day that its month has. Days are counted by going from each date to the next one.
-/

namespace Calendar

/-- Whether a year has a 29th of February. -/
def IsLeap (year : Int) : Prop := year % 4 = 0 ∧ year % 100 ≠ 0 ∨ year % 400 = 0

instance : DecidablePred IsLeap := fun year =>
  inferInstanceAs (Decidable (year % 4 = 0 ∧ year % 100 ≠ 0 ∨ year % 400 = 0))

/-- The days of a month. -/
def daysIn (year : Int) (month : Nat) : Nat :=
  if month = 2 then if IsLeap year then 29 else 28
  else if month = 4 ∨ month = 6 ∨ month = 9 ∨ month = 11 then 30 else 31

/-- Every month has a first day. -/
theorem daysIn_pos (year : Int) (month : Nat) : 0 < daysIn year month := by
  rw [daysIn]
  split_ifs <;> decide

/-- A date of the calendar. -/
@[ext] structure Date where
  year : Int
  month : Nat
  day : Nat
  month_mem : 1 ≤ month ∧ month ≤ 12
  day_mem : 1 ≤ day ∧ day ≤ daysIn year month
  deriving DecidableEq

namespace Date

/-- The date after a date. -/
def next (date : Date) : Date :=
  if hday : date.day < daysIn date.year date.month then
    ⟨date.year, date.month, date.day + 1, date.month_mem, by omega, hday⟩
  else if hmonth : date.month < 12 then
    ⟨date.year, date.month + 1, 1, by omega, le_rfl, daysIn_pos _ _⟩
  else ⟨date.year + 1, 1, 1, by decide, le_rfl, daysIn_pos _ _⟩

/-- The date so many days later. -/
def after (date : Date) (days : Nat) : Date := next^[days] date

@[simp] theorem after_zero (date : Date) : date.after 0 = date := rfl

theorem after_succ (date : Date) (days : Nat) : date.after (days + 1) = (date.after days).next :=
  Function.iterate_succ_apply' next days date

/-- A numbering that counts a day from each date to the next numbers the days after a date. -/
theorem number_after {number : Date → Int} (h : ∀ date, number date.next = number date + 1)
    (date : Date) (days : Nat) : number (date.after days) = number date + days := by
  induction days with
  | zero => simp
  | succ days ih => rw [after_succ, h, ih, Nat.cast_succ, add_assoc]

end Date

end Calendar
