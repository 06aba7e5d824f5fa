/-
# Doorkeeper.Calendar — the date and the time of a log line

`civil_from_days` and `now_rfc3339_millis` of `otp-doorkeeper/src/log.rs`, this time in the
integers of the machine: `i64` and `u64` where the code has them, with `none` for an overflow.

The conversion first finds the year that begins in March (`year_of_day`), then month and day in
it (`month_of_day`). What comes out is the date of the calendar (`civilFromDays_date`), and for
no day count that fits is there an overflow (`civilFromDaysChecked_eq`). A time stamp is made of
fixed-width fields from the year down, so time stamps are in the order of time (`stamp_lt`).
-/
import Jbuu.Library.Decimal
import Jbuu.Library.Gregorian
import Jbuu.Doorkeeper.Log

namespace Jbuu.Doorkeeper

set_option autoImplicit false

open Jbuu.Library
open Jbuu.Library.Gregorian
open Jbuu.Library.Json (Text)

/-! ## The integers of the machine -/

/-- The value of an operation in `i64`; `none` is an overflow. -/
def i64 (x : Int) : Option Int := if -2 ^ 63 ≤ x ∧ x < 2 ^ 63 then some x else none

/-- The value of an operation in `u64`; `none` is an overflow, or an underflow. -/
def u64 (x : Int) : Option Nat := if 0 ≤ x ∧ x < 2 ^ 64 then some x.toNat else none

/-- `as u64`, from `i64`. -/
def asU64 (x : Int) : Nat := (x % 2 ^ 64).toNat

/-- `as i64`, from `u64`. -/
def asI64 (n : Nat) : Int := if n < 2 ^ 63 then n else n - 2 ^ 64

/-- `as u32`, from `u64`. -/
def asU32 (n : Nat) : Nat := n % 2 ^ 32

theorem i64_fits {x : Int} (low : -2 ^ 63 ≤ x) (high : x < 2 ^ 63) : i64 x = some x := by
  rw [i64]
  exact if_pos ⟨low, high⟩

theorem u64_fits {x : Int} (n : Nat) (same : x = n) (high : n < 2 ^ 64) : u64 x = some n := by
  subst same
  rw [u64, if_pos ⟨by omega, by omega⟩, Int.toNat_natCast]

theorem asU64_small {x : Int} (low : 0 ≤ x) (high : x < 2 ^ 64) : asU64 x = x.toNat := by
  rw [asU64, Int.emod_eq_of_lt low high]

theorem asI64_small {n : Nat} (high : n < 2 ^ 63) : asI64 n = n := by
  rw [asI64, if_pos high]

theorem asU32_small {n : Nat} (high : n < 2 ^ 32) : asU32 n = n := Nat.mod_eq_of_lt high

/-- `yoe` of `civil_from_days`. -/
def yearOfEra (doe : Nat) : Option Nat := do
  let days ← u64 (doe - doe / 1460 : Int)
  let days ← u64 (days + doe / 36524 : Int)
  let days ← u64 (days - doe / 146096 : Int)
  some (days / 365)

/-- `doy` of `civil_from_days`. -/
def dayOfYear (doe yoe : Nat) : Option Nat := do
  let before ← u64 (365 * yoe : Int)
  let before ← u64 (before + yoe / 4 : Int)
  let before ← u64 (before - yoe / 100 : Int)
  u64 (doe - before : Int)

/-- `m` and `dd` of `civil_from_days`. -/
def monthAndDay (doy : Nat) : Option (Nat × Nat) := do
  let fives ← u64 (5 * doy : Int)
  let fives ← u64 (fives + 2 : Int)
  let mp := fives / 153
  let before ← u64 (153 * mp : Int)
  let before ← u64 (before + 2 : Int)
  let day ← u64 (doy - before / 5 : Int)
  let day ← u64 (day + 1 : Int)
  let month ← if mp < 10 then u64 (mp + 3 : Int) else u64 (mp - 9 : Int)
  some (asU32 month, asU32 day)

/-- `civil_from_days`, every operation in its type. -/
def civilFromDaysChecked (z : Int) : Option (Int × Nat × Nat) := do
  let z ← i64 (z + 719468)
  let shifted ← if z ≥ 0 then some z else i64 (z - 146096)
  let era := shifted.tdiv 146097
  let eraDays ← i64 (era * 146097)
  let rest ← i64 (z - eraDays)
  let doe := asU64 rest
  let yoe ← yearOfEra doe
  let eraYears ← i64 (era * 400)
  let y ← i64 (asI64 yoe + eraYears)
  let doy ← dayOfYear doe yoe
  let (m, dd) ← monthAndDay doy
  let year ← if m ≤ 2 then i64 (y + 1) else some y
  some (year, m, dd)

/-! ## The year of a day -/

/-- A day of a cycle of 400 years: its century, the four years in it, and the day in these. -/
theorem cut_cycle {doe : Nat} (cycle : doe ≤ 146096) : ∃ c q s,
    doe = 36524 * c + 1461 * q + s ∧ c ≤ 3 ∧ q ≤ 24 ∧ s ≤ 1460 ∧ 1461 * q + s ≤ 36524 ∧
      (1461 * q + s = 36524 → c = 3) := by
  by_cases last : doe = 146096
  · exact ⟨3, 24, 1460, by omega⟩
  · have century := Nat.div_add_mod doe 36524
    have four := Nat.div_add_mod (doe % 36524) 1461
    have inner := Nat.mod_lt doe (show 36524 > 0 by omega)
    have innermost := Nat.mod_lt (doe % 36524) (show 1461 > 0 by omega)
    generalize doe % 36524 = r at *
    exact ⟨doe / 36524, r / 1461, r % 1461, by omega, by omega, by omega, by omega, by omega, by omega⟩

/-- The corrected quotient is the year. -/
theorem year_of_cut {c q s : Nat} (century : c ≤ 3) (four : q ≤ 24) (day : s ≤ 1460)
    (fits : 1461 * q + s ≤ 36524) (last : 1461 * q + s = 36524 → c = 3) {doe : Nat}
    (cut : doe = 36524 * c + 1461 * q + s) :
    (doe - doe / 1460 + doe / 36524 - doe / 146096) / 365 = 100 * c + 4 * q + min (s / 365) 3 := by
  by_cases leap : 1461 * q + s = 36524
  · -- the last day of the cycle
    have := last leap
    obtain ⟨rfl, rfl, rfl⟩ : c = 3 ∧ q = 24 ∧ s = 1460 := by omega
    subst cut
    rfl
  · have centuries : doe / 36524 = c := by omega
    have cycles : doe / 146096 = 0 := by omega
    rw [centuries, cycles]
    by_cases early : 24 * c + q + s < 1460
    · have fours : doe / 1460 = 25 * c + q := by omega
      have years : s / 365 ≤ 3 := by omega
      rw [fours, Nat.min_eq_left years]
      omega
    · have fours : doe / 1460 = 25 * c + q + 1 := by omega
      have years : 3 ≤ s / 365 := by omega
      rw [fours, Nat.min_eq_right years]
      omega

/-- **The year** found for a day of a cycle begins, in March, at that day or before it, and the
next one begins after it. -/
theorem year_of_day {doe : Nat} (cycle : doe ≤ 146096) :
    let yoe := (doe - doe / 1460 + doe / 36524 - doe / 146096) / 365
    yoe ≤ 399 ∧ 365 * yoe + yoe / 4 - yoe / 100 ≤ doe ∧
      doe + (yoe + 1) / 100 < 365 * (yoe + 1) + (yoe + 1) / 4 + (yoe + 1) / 400 := by
  obtain ⟨c, q, s, cut, century, four, day, fits, last⟩ := cut_cycle cycle
  rw [year_of_cut century four day fits last cut]
  have years : min (s / 365) 3 ≤ 3 := Nat.min_le_right _ _
  have days : 365 * min (s / 365) 3 ≤ s := by omega
  have beyond : min (s / 365) 3 < 3 → s < 365 * (min (s / 365) 3 + 1) := by omega
  generalize min (s / 365) 3 = n at *
  have fours : (100 * c + 4 * q + n) / 4 = 25 * c + q := by omega
  have centuries : (100 * c + 4 * q + n) / 100 = c := by omega
  refine ⟨by omega, ?_, ?_⟩
  · rw [fours, centuries]
    omega
  · by_cases same : n < 3
    · have fours : (100 * c + 4 * q + n + 1) / 4 = 25 * c + q := by omega
      have centuries : (100 * c + 4 * q + n + 1) / 100 = c := by omega
      rw [fours, centuries]
      omega
    · obtain rfl : n = 3 := by omega
      have fours : (100 * c + 4 * q + 3 + 1) / 4 = 25 * c + q + 1 := by omega
      rw [fours]
      by_cases turn : q = 24
      · have centuries : (100 * c + 4 * q + 3 + 1) / 100 = c + 1 := by omega
        rw [centuries]
        omega
      · have centuries : (100 * c + 4 * q + 3 + 1) / 100 = c := by omega
        rw [centuries]
        omega

/-! ## The month of a day -/

/-- **Month and day** of a day of the year that begins in March are a month and one of its days. -/
theorem month_of_day {year : Int} {doy : Nat} (within : doy < daysInYear (year + 1)) :
    let mp := (5 * doy + 2) / 153
    let month := if mp < 10 then mp + 3 else mp - 9
    mp ≤ 11 ∧ (153 * mp + 2) / 5 ≤ doy ∧
      doy - (153 * mp + 2) / 5 + 1 ≤ daysInMonth (if month ≤ 2 then year + 1 else year) month := by
  intro mp
  have low : 153 * mp ≤ 5 * doy + 2 := Nat.mul_div_le _ _
  have high : 5 * doy + 2 < 153 * mp + 153 := Nat.lt_mul_div_succ _ (by omega)
  have short := daysInYear_le (year + 1)
  have last : mp ≤ 11 := by omega
  clear_value mp
  refine ⟨last, by omega, ?_⟩
  by_cases february : mp = 11
  · -- the leap day is the last of the year
    subst february
    simp only [daysInYear] at within
    simp only [daysInMonth]
    split at within <;> simp_all <;> omega
  · interval_cases mp <;> simp [daysInMonth] at low high february ⊢ <;> omega

/-! ## The date of a day -/

/-- The quotient is rounded down, before year zero as well. -/
theorem era_eq (z : Int) : (if z ≥ 0 then z else z - 146096).tdiv 146097 = z / 146097 := by
  split
  · rw [Int.tdiv_eq_ediv_of_nonneg (by omega)]
  · rw [Int.tdiv_eq_ediv, show Int.sign 146097 = 1 from rfl]
    split <;> omega

/-- The first of March of a year of an era. -/
theorem firstOfMarch_era {yoe : Nat} (within : yoe ≤ 399) (era : Int) :
    firstOfMarch (yoe + era * 400) = era * 146097 + (365 * yoe + yoe / 4 - yoe / 100 : Nat) - 719468 := by
  simp only [firstOfMarch]
  omega

/-- What is left of a cycle is a day of the year found. -/
theorem day_within {doe yoe : Nat} (early : yoe ≤ 399)
    (ends : doe + (yoe + 1) / 100 < 365 * (yoe + 1) + (yoe + 1) / 4 + (yoe + 1) / 400) (era : Int) :
    doe - (365 * yoe + yoe / 4 - yoe / 100) < daysInYear (yoe + era * 400 + 1) := by
  have march := firstOfMarch_era early era
  have following := firstOfMarch_succ (yoe + era * 400)
  simp only [firstOfMarch] at following march
  omega

/-- **The date** that `civil_from_days` gives is the one with that number. -/
theorem civilFromDays_date (z : Int) :
    ∃ date : Date, civilFromDays z = (date.year, date.month, date.day) ∧ date.number = z := by
  simp only [civilFromDays, era_eq]
  generalize cycles : (z + 719468) / 146097 = era
  generalize rest : (z + 719468 - era * 146097).toNat = doe
  obtain ⟨early, begins, ends⟩ := year_of_day (show doe ≤ 146096 by omega)
  generalize (doe - doe / 1460 + doe / 36524 - doe / 146096) / 365 = yoe at *
  have march := firstOfMarch_era early era
  have within := day_within early ends era
  generalize 365 * yoe + yoe / 4 - yoe / 100 = before at *
  obtain ⟨last, starts, fits⟩ := month_of_day within
  generalize doy_ : doe - before = doy at *
  generalize (5 * doy + 2) / 153 = mp at *
  by_cases spring : mp < 10
  · simp only [spring, if_true, show ¬mp + 3 ≤ 2 by omega, if_false] at fits ⊢
    let date : Date := ⟨yoe + era * 400, mp + 3, doy - (153 * mp + 2) / 5 + 1, by omega, by omega, fits⟩
    refine ⟨date, rfl, ?_⟩
    rw [Date.number_of_march (show 3 ≤ date.month by simp [date])]
    simp only [date, march, Nat.add_sub_cancel]
    omega
  · simp only [spring, if_false, show mp - 9 ≤ 2 by omega, if_true] at fits ⊢
    let date : Date := ⟨yoe + era * 400 + 1, mp - 9, doy - (153 * mp + 2) / 5 + 1, by omega, by omega, fits⟩
    refine ⟨date, rfl, ?_⟩
    have back : mp - 9 + 9 = mp := by omega
    rw [Date.number_of_january (show date.month < 3 by simp only [date]; omega)]
    simp only [date, add_sub_cancel_right, march, back]
    omega

/-! ## No overflow -/

theorem yearOfEra_eq {doe : Nat} (cycle : doe ≤ 146096) :
    yearOfEra doe = some ((doe - doe / 1460 + doe / 36524 - doe / 146096) / 365) := by
  simp only [yearOfEra, Option.bind_eq_bind]
  rw [u64_fits (doe - doe / 1460) (by omega) (by omega), Option.bind_some,
    u64_fits (doe - doe / 1460 + doe / 36524) (by omega) (by omega), Option.bind_some,
    u64_fits (doe - doe / 1460 + doe / 36524 - doe / 146096) (by omega) (by omega), Option.bind_some]

theorem dayOfYear_eq {doe yoe : Nat} (cycle : doe ≤ 146096) (year : yoe ≤ 399)
    (begins : 365 * yoe + yoe / 4 - yoe / 100 ≤ doe) :
    dayOfYear doe yoe = some (doe - (365 * yoe + yoe / 4 - yoe / 100)) := by
  simp only [dayOfYear, Option.bind_eq_bind]
  rw [u64_fits (365 * yoe) (by omega) (by omega), Option.bind_some,
    u64_fits (365 * yoe + yoe / 4) (by omega) (by omega), Option.bind_some,
    u64_fits (365 * yoe + yoe / 4 - yoe / 100) (by omega) (by omega), Option.bind_some,
    u64_fits (doe - (365 * yoe + yoe / 4 - yoe / 100)) (by omega) (by omega)]

theorem monthAndDay_eq {doy : Nat} (short : doy ≤ 365)
    (starts : (153 * ((5 * doy + 2) / 153) + 2) / 5 ≤ doy) :
    monthAndDay doy = some (if (5 * doy + 2) / 153 < 10 then (5 * doy + 2) / 153 + 3 else (5 * doy + 2) / 153 - 9,
      doy - (153 * ((5 * doy + 2) / 153) + 2) / 5 + 1) := by
  simp only [monthAndDay, Option.bind_eq_bind]
  rw [u64_fits (5 * doy) (by omega) (by omega), Option.bind_some,
    u64_fits (5 * doy + 2) (by omega) (by omega), Option.bind_some]
  have last : (5 * doy + 2) / 153 ≤ 11 := by omega
  generalize (5 * doy + 2) / 153 = mp at *
  rw [u64_fits (153 * mp) (by omega) (by omega), Option.bind_some,
    u64_fits (153 * mp + 2) (by omega) (by omega), Option.bind_some,
    u64_fits (doy - (153 * mp + 2) / 5) (by omega) (by omega), Option.bind_some,
    u64_fits (doy - (153 * mp + 2) / 5 + 1) (by omega) (by omega), Option.bind_some]
  by_cases spring : mp < 10
  · rw [if_pos spring, if_pos spring, u64_fits (mp + 3) (by omega) (by omega), Option.bind_some,
      asU32_small (by omega), asU32_small (by omega)]
  · rw [if_neg spring, if_neg spring, u64_fits (mp - 9) (by omega) (by omega), Option.bind_some,
      asU32_small (by omega), asU32_small (by omega)]

/-- **No overflow**, and no underflow: in the integers of the machine the same comes out. -/
theorem civilFromDaysChecked_eq {z : Int} (low : 0 ≤ z) (high : z + 719468 < 2 ^ 63) :
    civilFromDaysChecked z = some (civilFromDays z) := by
  have cycles : (z + 719468).tdiv 146097 = (z + 719468) / 146097 := Int.tdiv_eq_ediv_of_nonneg (by omega)
  simp only [civilFromDaysChecked, civilFromDays, era_eq, Option.bind_eq_bind]
  rw [i64_fits (by omega) high, Option.bind_some, if_pos (by omega), Option.bind_some, cycles]
  have begun : (z + 719468) / 146097 * 146097 ≤ z + 719468 := Int.ediv_mul_le _ (by omega)
  have beyond : z + 719468 < (z + 719468) / 146097 * 146097 + 146097 := by omega
  have positive : 0 ≤ (z + 719468) / 146097 := Int.ediv_nonneg (by omega) (by omega)
  generalize (z + 719468) / 146097 = era at *
  rw [i64_fits (by omega) (by omega), Option.bind_some, i64_fits (by omega) (by omega), Option.bind_some,
    asU64_small (by omega) (by omega)]
  generalize rest : (z + 719468 - era * 146097).toNat = doe
  have cycle : doe ≤ 146096 := by omega
  obtain ⟨early, begins, ends⟩ := year_of_day cycle
  rw [yearOfEra_eq cycle, Option.bind_some]
  generalize (doe - doe / 1460 + doe / 36524 - doe / 146096) / 365 = yoe at *
  rw [i64_fits (by omega) (by omega), Option.bind_some, asI64_small (by omega),
    i64_fits (by omega) (by omega), Option.bind_some, dayOfYear_eq cycle early begins, Option.bind_some]
  have within := day_within early ends era
  have short := daysInYear_le (yoe + era * 400 + 1)
  obtain ⟨-, starts, -⟩ := month_of_day within
  generalize doe - (365 * yoe + yoe / 4 - yoe / 100) = doy at *
  rw [monthAndDay_eq (by omega) starts, Option.bind_some]
  -- the year of the calendar, where January and February belong to the one after
  rw [i64_fits (by omega) (by omega)]
  dsimp only
  split <;> split <;> rfl

/-! ## The time stamp -/

/-- `SystemTime`, from the epoch on: whole seconds, and the nanoseconds after them. -/
structure SystemTime where
  secs : Int
  nanos : Nat
  secs_fit : -2 ^ 63 ≤ secs ∧ secs < 2 ^ 63
  nanos_lt : nanos < 1000000000

namespace SystemTime

/-- `duration_since(UNIX_EPOCH)`, and zero where the clock is before it. -/
def sinceEpoch (now : SystemTime) : Nat × Nat :=
  if now.secs < 0 then (0, 0) else (now.secs.toNat, now.nanos)

/-- What the log makes of it. -/
def clock (now : SystemTime) : Clock := ⟨now.sinceEpoch.1, now.sinceEpoch.2 / 1000000⟩

end SystemTime

/-- `now_rfc3339_millis`, every operation in its type. -/
def nowRfc3339Millis (now : SystemTime) : Option Text := do
  let secs := asI64 now.sinceEpoch.1
  let millis := now.sinceEpoch.2 / 1000000
  -- `div_euclid` and `rem_euclid`
  let days := secs / 86400
  let sod := secs % 86400
  let (y, m, dd) ← civilFromDaysChecked days
  some (paddedInt 4 y ++ ('-' :: padded 2 m ++ ('-' :: padded 2 dd ++
    ('T' :: paddedInt 2 (sod.tdiv 3600) ++ (':' :: paddedInt 2 ((sod.tmod 3600).tdiv 60) ++
      (':' :: paddedInt 2 (sod.tmod 60) ++ ('.' :: padded 3 millis ++ ['Z'])))))))

theorem paddedInt_natCast (width n : Nat) : paddedInt width (n : Int) = padded width n := by
  rw [paddedInt, if_neg (by omega), Int.natAbs_natCast]

/-- Nothing of it overflows, at any time. -/
theorem nowRfc3339Millis_eq (now : SystemTime) : nowRfc3339Millis now = some (rfc3339Millis now.clock) := by
  have fits : now.sinceEpoch.1 < 2 ^ 63 := by
    have := now.secs_fit
    simp only [SystemTime.sinceEpoch]
    split <;> simp only <;> omega
  simp only [nowRfc3339Millis, rfc3339Millis, SystemTime.clock, asI64_small fits]
  rw [civilFromDaysChecked_eq (by omega) (by omega)]
  generalize now.sinceEpoch.1 = secs
  have day : (secs : Int) % 86400 = (secs % 86400 : Nat) := by omega
  have hour : ((secs % 86400 : Nat) : Int).tdiv 3600 = (secs % 86400 / 3600 : Nat) := rfl
  have minute : (((secs % 86400 : Nat) : Int).tmod 3600).tdiv 60 = (secs % 86400 % 3600 / 60 : Nat) := rfl
  have second : ((secs % 86400 : Nat) : Int).tmod 60 = (secs % 86400 % 60 : Nat) := rfl
  simp only [day, hour, minute, second, paddedInt_natCast, Option.bind_eq_bind, Option.bind_some]

/-! ### In the order of time -/

/-- The seven fields of a time stamp. -/
structure Stamp where
  year : Nat
  month : Nat
  day : Nat
  hour : Nat
  minute : Nat
  second : Nat
  millis : Nat

namespace Stamp

open Decimal (fixed fixed_append_lt)

def text (s : Stamp) : Text :=
  fixed 4 s.year ++ '-' :: (fixed 2 s.month ++ '-' :: (fixed 2 s.day ++ 'T' :: (fixed 2 s.hour ++
    ':' :: (fixed 2 s.minute ++ ':' :: (fixed 2 s.second ++ '.' :: (fixed 3 s.millis ++ ['Z']))))))

/-- Every field has its digits. -/
structure Fits (s : Stamp) : Prop where
  year : s.year < 10000
  month : s.month < 100
  day : s.day < 100
  hour : s.hour < 100
  minute : s.minute < 100
  second : s.second < 100
  millis : s.millis < 1000

/-- The first field in which they differ decides. -/
def Before (s t : Stamp) : Prop :=
  s.year < t.year ∨ s.year = t.year ∧ (s.month < t.month ∨ s.month = t.month ∧
    (s.day < t.day ∨ s.day = t.day ∧ (s.hour < t.hour ∨ s.hour = t.hour ∧
      (s.minute < t.minute ∨ s.minute = t.minute ∧
        (s.second < t.second ∨ s.second = t.second ∧ s.millis < t.millis)))))

theorem text_lt {s t : Stamp} (fits : t.Fits) (before : s.Before t) : s.text < t.text := by
  refine fixed_append_lt fits.year (before.imp_right (And.imp_right fun before => .cons ?_))
  refine fixed_append_lt fits.month (before.imp_right (And.imp_right fun before => .cons ?_))
  refine fixed_append_lt fits.day (before.imp_right (And.imp_right fun before => .cons ?_))
  refine fixed_append_lt fits.hour (before.imp_right (And.imp_right fun before => .cons ?_))
  refine fixed_append_lt fits.minute (before.imp_right (And.imp_right fun before => .cons ?_))
  refine fixed_append_lt fits.second (before.imp_right (And.imp_right fun before => .cons ?_))
  exact fixed_append_lt fits.millis (.inl before)

end Stamp

theorem padded_eq {width n : Nat} (some_ : 0 < width) (fits : n < 10 ^ width) :
    padded width n = Decimal.fixed width n := Decimal.fill_toDigits some_ fits

/-- A day from the epoch on is in 1970 or later. -/
theorem year_of_number {date : Date} (after : 0 ≤ date.number) : 1970 ≤ date.year := by
  by_contra early
  have before : date.Before .epoch := .inl (show date.year < 1970 by omega)
  have less := Date.number_lt before
  rw [Date.number_epoch] at less
  omega

/-- The fields of the time stamp of a day. -/
def stampOf (date : Date) (now : Clock) : Stamp where
  year := date.year.toNat
  month := date.month
  day := date.day
  hour := now.secs % 86400 / 3600
  minute := now.secs % 86400 % 3600 / 60
  second := now.secs % 86400 % 60
  millis := now.millis

theorem daysInMonth_le (year : Int) (month : Nat) : daysInMonth year month ≤ 31 := by
  simp only [daysInMonth]
  split <;> first | omega | (split <;> omega)

theorem stampOf_fits {date : Date} {now : Clock} (late : date.year ≤ 9999) (part : now.millis < 1000) :
    (stampOf date now).Fits := by
  have month := date.month_valid
  have day := date.day_valid
  have short := daysInMonth_le date.year date.month
  constructor <;> simp only [stampOf] <;> omega

theorem rfc3339Millis_eq {date : Date} {now : Clock} (late : date.year ≤ 9999) (part : now.millis < 1000)
    (today : civilFromDays (now.secs / 86400) = (date.year, date.month, date.day))
    (after : 0 ≤ date.number) : rfc3339Millis now = (stampOf date now).text := by
  have fits := stampOf_fits late part
  have year : date.year = ((stampOf date now).year : Int) := by
    have := year_of_number after
    simp only [stampOf]
    omega
  simp only [rfc3339Millis, today]
  rw [year, paddedInt_natCast, padded_eq (by omega) fits.year, padded_eq (by omega) fits.month,
    padded_eq (by omega) fits.day, padded_eq (by omega) fits.hour, padded_eq (by omega) fits.minute,
    padded_eq (by omega) fits.second, padded_eq (by omega) fits.millis]
  rfl

/-- The milliseconds since the epoch. -/
def Clock.instant (now : Clock) : Nat := now.secs * 1000 + now.millis

/-- The year on the time stamp. -/
def Clock.year (now : Clock) : Int := (civilFromDays (now.secs / 86400)).1

/-- On one day the later time has the first greater field. -/
theorem time_before {a b millis millis' : Nat} (part : millis < 1000) (part' : millis' < 1000)
    (less : a * 1000 + millis < b * 1000 + millis') :
    a / 3600 < b / 3600 ∨ a / 3600 = b / 3600 ∧ (a % 3600 / 60 < b % 3600 / 60 ∨
      a % 3600 / 60 = b % 3600 / 60 ∧ (a % 60 < b % 60 ∨ a % 60 = b % 60 ∧ millis < millis')) := by
  refine (Nat.lt_or_eq_of_le (by omega)).imp_right fun hour => ⟨hour, ?_⟩
  refine (Nat.lt_or_eq_of_le (by omega)).imp_right fun minute => ⟨minute, ?_⟩
  refine (Nat.lt_or_eq_of_le (by omega)).imp_right fun second => ⟨second, by omega⟩

theorem later_in_day {midnight a b secs secs' millis millis' : Nat} (here : midnight + a = secs)
    (there : midnight + b = secs') (less : secs * 1000 + millis < secs' * 1000 + millis') :
    a * 1000 + millis < b * 1000 + millis' := by grind

/-- A later clock reading has the greater time stamp. -/
theorem rfc3339Millis_lt {now later : Clock} (part : now.millis < 1000) (part' : later.millis < 1000)
    (year : now.year ≤ 9999) (year' : later.year ≤ 9999) (less : now.instant < later.instant) :
    rfc3339Millis now < rfc3339Millis later := by
  obtain ⟨date, today, number⟩ := civilFromDays_date (now.secs / 86400)
  obtain ⟨date', today', number'⟩ := civilFromDays_date (later.secs / 86400)
  simp only [Clock.year, today] at year
  simp only [Clock.year, today'] at year'
  simp only [Clock.instant] at less
  rw [rfc3339Millis_eq year part today (by omega), rfc3339Millis_eq year' part' today' (by omega)]
  refine Stamp.text_lt (stampOf_fits year' part') ?_
  by_cases same : date.number = date'.number
  · -- on one day the time of day decides
    obtain rfl := Date.number_inj same
    have days : now.secs / 86400 = later.secs / 86400 := by omega
    have midnight := Nat.div_add_mod now.secs 86400
    rw [days] at midnight
    have sooner := later_in_day midnight (Nat.div_add_mod later.secs 86400) less
    exact .inr ⟨rfl, .inr ⟨rfl, .inr ⟨rfl, time_before part part' sooner⟩⟩⟩
  · have before : date.Before date' := Date.number_lt_iff.mp (by omega)
    have since := year_of_number (show 0 ≤ date.number by omega)
    have since' := year_of_number (show 0 ≤ date'.number by omega)
    simp only [Date.Before] at before
    simp only [Stamp.Before, stampOf]
    omega

/-- One reading for an instant. -/
theorem Clock.eq_of_instant {now later : Clock} (part : now.millis < 1000) (part' : later.millis < 1000)
    (same : now.instant = later.instant) : now = later := by
  cases now
  cases later
  simp only [instant, Clock.mk.injEq] at part part' same ⊢
  omega

namespace SystemTime

theorem clock_millis (now : SystemTime) : now.clock.millis < 1000 := by
  have part := now.nanos_lt
  simp only [clock, sinceEpoch]
  split <;> simp only <;> omega

end SystemTime

/-- Two dates with the same fields. -/
theorem date_ext {d e : Date} (same : (d.year, d.month, d.day) = (e.year, e.month, e.day)) : d = e := by
  cases d
  cases e
  simp_all

/-- **The calendar**: from the epoch on, `civil_from_days` gives the one date with that number, the
next day count the next date, and time stamps up to the year 9999 are in the order of the instants
on them. -/
theorem civil_from_days_is_gregorian :
    (∀ z : Int, 0 ≤ z → z + 719468 < 2 ^ 63 → ∃ date : Date,
      civilFromDaysChecked z = some (date.year, date.month, date.day) ∧ date.number = z ∧
        ∀ other : Date, other.number = z → other = date) ∧
    (∀ (z : Int) (date : Date), 0 ≤ z → z + 1 + 719468 < 2 ^ 63 →
      civilFromDaysChecked z = some (date.year, date.month, date.day) →
      civilFromDaysChecked (z + 1) = some (date.next.year, date.next.month, date.next.day)) ∧
    ∀ now later : SystemTime, now.clock.year ≤ 9999 → later.clock.year ≤ 9999 →
      ∃ text text', nowRfc3339Millis now = some text ∧ nowRfc3339Millis later = some text' ∧
        (text < text' ↔ now.clock.instant < later.clock.instant) := by
  refine ⟨?_, ?_, ?_⟩
  · intro z low high
    obtain ⟨date, fields, number⟩ := civilFromDays_date z
    refine ⟨date, ?_, number, fun other same => Date.number_inj (same.trans number.symm)⟩
    rw [civilFromDaysChecked_eq low high, fields]
  · intro z date low high today
    rw [civilFromDaysChecked_eq low (by omega), Option.some.injEq] at today
    obtain ⟨here, fields, number⟩ := civilFromDays_date z
    obtain rfl := date_ext (today.symm.trans fields)
    obtain ⟨tomorrow, fields', number'⟩ := civilFromDays_date (z + 1)
    obtain rfl : tomorrow = date.next := Date.number_inj (by rw [number', Date.number_next, number])
    rw [civilFromDaysChecked_eq (by omega) high, fields']
  · intro now later year year'
    refine ⟨_, _, nowRfc3339Millis_eq now, nowRfc3339Millis_eq later, ?_⟩
    have part := now.clock_millis
    have part' := later.clock_millis
    refine ⟨fun less => ?_, rfc3339Millis_lt part part' year year'⟩
    by_contra not_less
    rcases Nat.lt_or_eq_of_le (Nat.le_of_not_lt not_less) with sooner | same
    · exact List.lt_asymm less (rfc3339Millis_lt part' part year' year sooner)
    · rw [Clock.eq_of_instant part' part same] at less
      exact List.lt_irrefl _ less

/-- A leap day, and the first day after the last cycle of a century without one. -/
example : civilFromDaysChecked 19782 = some (2024, 2, 29) ∧ civilFromDaysChecked 47541 = some (2100, 3, 1) := by
  decide

end Jbuu.Doorkeeper
