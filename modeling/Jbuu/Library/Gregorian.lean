/-
# Library.Gregorian — the proleptic Gregorian calendar

A `Date` has a month of its year and a day of its month, so there is no thirtieth of February.
`number` counts the days since 1970-01-01; it is negative before. `next` is the day after.

`number` is strictly monotone in the order of dates (`number_lt`), so no two dates have one
number (`number_inj`), and the day after has the number after (`number_next`). The year of the
calendar is also counted from March on (`number_of_march`, `number_of_january`): there the leap
day is the last day of its year, and the months have a closed form.
-/
import Mathlib.Tactic.IntervalCases
import Mathlib.Tactic.Cases

namespace Jbuu.Library.Gregorian

set_option autoImplicit false

/-! ## Years and months -/

def IsLeap (year : Int) : Prop := year % 4 = 0 ∧ (year % 100 ≠ 0 ∨ year % 400 = 0)

instance : DecidablePred IsLeap := fun year =>
  inferInstanceAs (Decidable (year % 4 = 0 ∧ (year % 100 ≠ 0 ∨ year % 400 = 0)))

def daysInMonth (year : Int) : Nat → Nat
  | 1 | 3 | 5 | 7 | 8 | 10 | 12 => 31
  | 4 | 6 | 9 | 11 => 30
  | 2 => if IsLeap year then 29 else 28
  | _ => 0

def daysInYear (year : Int) : Nat := if IsLeap year then 366 else 365

/-- The days of a year before the first of a month. -/
def daysBeforeMonth (year : Int) : Nat → Nat
  | 0 => 0
  | month + 1 => daysBeforeMonth year month + daysInMonth year month

/-- The days from 1970-01-01 to the first of January. -/
def daysBeforeYear (year : Int) : Int :=
  365 * (year - 1970) + ((year - 1) / 4 - (year - 1) / 100 + (year - 1) / 400) - 477

theorem daysInYear_le (year : Int) : daysInYear year ≤ 366 := by
  simp only [daysInYear]
  split <;> omega

theorem daysBeforeYear_succ (year : Int) :
    daysBeforeYear (year + 1) = daysBeforeYear year + daysInYear year := by
  by_cases leap : IsLeap year
  · simp only [daysBeforeYear, daysInYear, leap, if_true]
    simp only [IsLeap] at leap
    omega
  · simp only [daysBeforeYear, daysInYear, leap, if_false]
    simp only [IsLeap] at leap
    omega

theorem daysInMonth_pos {year : Int} {month : Nat} (first : 1 ≤ month) (last : month ≤ 12) :
    1 ≤ daysInMonth year month := by
  interval_cases month <;> simp only [daysInMonth]
  all_goals first | omega | (split <;> omega)

theorem daysBeforeMonth_last (year : Int) : daysBeforeMonth year 13 = daysInYear year := by
  simp only [daysBeforeMonth, daysInMonth, daysInYear]
  split <;> rfl

theorem daysBeforeMonth_mono (year : Int) {month later : Nat} (before : month ≤ later) :
    daysBeforeMonth year month ≤ daysBeforeMonth year later := by
  induction before with
  | refl => exact Nat.le_refl _
  | step _ ih => exact Nat.le_trans ih (Nat.le_add_right _ _)

theorem daysBeforeYear_mono {year later : Int} (before : year ≤ later) :
    daysBeforeYear year ≤ daysBeforeYear later := by
  simp only [daysBeforeYear]
  omega

/-! ## Dates -/

structure Date where
  year : Int
  month : Nat
  day : Nat
  month_valid : 1 ≤ month ∧ month ≤ 12
  day_valid : 1 ≤ day ∧ day ≤ daysInMonth year month
  deriving DecidableEq, Repr

namespace Date

def epoch : Date := ⟨1970, 1, 1, by decide, by decide⟩

/-- The days since 1970-01-01. -/
def number (d : Date) : Int :=
  daysBeforeYear d.year + daysBeforeMonth d.year d.month + d.day - 1

/-- The order of the calendar. -/
def Before (d e : Date) : Prop :=
  d.year < e.year ∨ d.year = e.year ∧ (d.month < e.month ∨ d.month = e.month ∧ d.day < e.day)

/-- The day after. -/
def next (d : Date) : Date :=
  if inside : d.day < daysInMonth d.year d.month then
    { d with day := d.day + 1, day_valid := ⟨by omega, inside⟩ }
  else if again : d.month < 12 then
    { d with
      month := d.month + 1
      day := 1
      month_valid := ⟨by omega, again⟩
      day_valid := ⟨Nat.le_refl 1, daysInMonth_pos (by omega) again⟩ }
  else ⟨d.year + 1, 1, 1, by decide, by simp [daysInMonth]⟩

theorem number_epoch : epoch.number = 0 := by decide

/-- A day is a day of its year. -/
theorem within_year (d : Date) : daysBeforeMonth d.year d.month + d.day ≤ daysInYear d.year := by
  have inMonth : daysBeforeMonth d.year d.month + d.day ≤ daysBeforeMonth d.year (d.month + 1) :=
    Nat.add_le_add_left d.day_valid.2 _
  have inYear := daysBeforeMonth_mono d.year (Nat.succ_le_succ d.month_valid.2)
  rw [daysBeforeMonth_last] at inYear
  exact Nat.le_trans inMonth inYear

theorem number_lt {d e : Date} (before : d.Before e) : d.number < e.number := by
  have day := e.day_valid.1
  rcases before with year | ⟨year, month | ⟨month, sooner⟩⟩
  · -- the whole of `d`'s year is over
    have beyond := daysBeforeYear_mono (show d.year + 1 ≤ e.year from year)
    rw [daysBeforeYear_succ] at beyond
    have within := d.within_year
    simp only [number]
    omega
  · have beyond := daysBeforeMonth_mono d.year (show d.month + 1 ≤ e.month from month)
    have within : daysBeforeMonth d.year d.month + d.day ≤ daysBeforeMonth d.year (d.month + 1) :=
      Nat.add_le_add_left d.day_valid.2 _
    simp only [number, ← year]
    omega
  · simp only [number, year, month]
    omega

theorem before_total (d e : Date) : d.Before e ∨ d = e ∨ e.Before d := by
  cases d
  cases e
  simp only [Before, Date.mk.injEq]
  omega

/-- No two dates have one number. -/
theorem number_inj {d e : Date} (same : d.number = e.number) : d = e := by
  rcases before_total d e with before | equal | after
  · exact absurd same (number_lt before).ne
  · exact equal
  · exact absurd same (number_lt after).ne'

/-- The numbers are in the order of the dates. -/
theorem number_lt_iff {d e : Date} : d.number < e.number ↔ d.Before e := by
  refine ⟨fun less => ?_, number_lt⟩
  rcases before_total d e with before | rfl | after
  · exact before
  · exact absurd less (lt_irrefl _)
  · exact absurd less (number_lt after).asymm

theorem number_next (d : Date) : d.next.number = d.number + 1 := by
  have month := d.month_valid
  have day := d.day_valid
  simp only [next]
  split
  · simp only [number]
    omega
  · rename_i last
    split
    · simp only [number, daysBeforeMonth]
      omega
    · -- the last day of December
      have december : d.month = 12 := by omega
      have within := daysBeforeMonth_last d.year
      simp only [number, december, daysBeforeYear_succ, ← within, daysBeforeMonth,
        daysInMonth] at last day ⊢
      omega

end Date

/-! ## Counted from March -/

/-- The number of the first of March. -/
def firstOfMarch (year : Int) : Int := 365 * year + (year / 4 - year / 100 + year / 400) - 719468

theorem daysBefore_march (year : Int) :
    daysBeforeYear year + daysBeforeMonth year 3 = firstOfMarch year := by
  by_cases leap : IsLeap year
  · simp only [daysBeforeYear, firstOfMarch, daysBeforeMonth, daysInMonth, leap, if_true]
    simp only [IsLeap] at leap
    omega
  · simp only [daysBeforeYear, firstOfMarch, daysBeforeMonth, daysInMonth, leap, if_false]
    simp only [IsLeap] at leap
    omega

/-- The year that begins in March ends with the February of the year after. -/
theorem firstOfMarch_succ (year : Int) :
    firstOfMarch (year + 1) = firstOfMarch year + daysInYear (year + 1) := by
  by_cases leap : IsLeap (year + 1)
  · simp only [firstOfMarch, daysInYear, leap, if_true]
    simp only [IsLeap] at leap
    omega
  · simp only [firstOfMarch, daysInYear, leap, if_false]
    simp only [IsLeap] at leap
    omega

/-- From March on the lengths of the months repeat every five months. -/
theorem daysBeforeMonth_march (year : Int) {month : Nat} (first : 3 ≤ month) (last : month ≤ 13) :
    daysBeforeMonth year month = daysBeforeMonth year 3 + (153 * (month - 3) + 2) / 5 := by
  interval_cases month <;> simp [daysBeforeMonth, daysInMonth]

namespace Date

theorem number_of_march {d : Date} (march : 3 ≤ d.month) :
    d.number = firstOfMarch d.year + ((153 * (d.month - 3) + 2) / 5 : Nat) + d.day - 1 := by
  have month := d.month_valid
  have from_ := daysBeforeMonth_march d.year march (by omega)
  have year := daysBefore_march d.year
  simp only [number, from_]
  omega

/-- January and February end the year that began the March before. -/
theorem number_of_january {d : Date} (january : d.month < 3) :
    d.number = firstOfMarch (d.year - 1) + ((153 * (d.month + 9) + 2) / 5 : Nat) + d.day - 1 := by
  have month := d.month_valid
  have year := daysBeforeYear_succ (d.year - 1)
  have whole := daysBeforeMonth_march (d.year - 1) (show 3 ≤ 13 by omega) (Nat.le_refl 13)
  have march := daysBefore_march (d.year - 1)
  rw [daysBeforeMonth_last] at whole
  rw [sub_add_cancel] at year
  obtain one | two : d.month = 1 ∨ d.month = 2 := by omega
  · simp only [number, one, year, daysBeforeMonth, daysInMonth]
    omega
  · simp only [number, two, year, daysBeforeMonth, daysInMonth]
    omega

end Date

end Jbuu.Library.Gregorian
