import Vdsm.Lib.Gregorian
import Vdsm.Lib.RustInt
import Mathlib.Tactic.IntervalCases

/-!
# The host clock

Reference: `vdsm-host/src/stats.rs`, `iso_utc_now`.

The conversion counts days in eras of 400 years that start on the first of March, so that the leap
day is the last of its year. Every operation is checked: an `i64` or `u64` result out of range is
`none`, as the panic it is in a build with overflow checks.
-/

namespace Vdsm.Host

open Rust Gregorian

/-! ## The conversion -/

/-- `if z >= 0 { z } else { z - 146_096 } / 146_097`. -/
def eraOf (z : ℤ) : Option ℤ := do
  let n ← if 0 ≤ z then some z else i64 (z - 146096)
  return n.tdiv 146097

/-- `(doe - doe / 1460 + doe / 36_524 - doe / 146_096) / 365`. -/
def yoeOf (doe : ℕ) : Option ℕ := do
  let a ← checkedSub doe (doe / 1460)
  let b ← u64 (a + doe / 36524)
  let c ← checkedSub b (doe / 146096)
  return c / 365

/-- `doe - (365 * yoe + yoe / 4 - yoe / 100)`. -/
def doyOf (doe yoe : ℕ) : Option ℕ := do
  let a ← u64 (365 * yoe)
  let b ← u64 (a + yoe / 4)
  let c ← checkedSub b (yoe / 100)
  checkedSub doe c

/-- `mp`, `d` and `m`. -/
def monthDayOf (doy : ℕ) : Option (ℕ × ℕ) := do
  let mp := (← u64 ((← u64 (5 * doy)) + 2)) / 153
  let start := (← u64 ((← u64 (153 * mp)) + 2)) / 5
  let d := asU32 (← u64 ((← checkedSub doy start) + 1))
  let m := asU32 (← if mp < 10 then u64 (mp + 3) else checkedSub mp 9)
  return (m, d)

structure CivilTime where
  date : Date
  hour : ℕ
  minute : ℕ
  second : ℕ
deriving DecidableEq, Repr

/-- The year, month, day, hour, minute and second of `iso_utc_now`, for `secs` seconds since the
epoch. -/
def civil (secs : Int64) : Option CivilTime := do
  let days := secs.toInt / 86400
  let secOfDay := secs.toInt % 86400
  let hour := asU32 (secOfDay / 3600)
  let minute := asU32 ((secOfDay % 3600) / 60)
  let second := asU32 (secOfDay % 60)
  let z ← i64 (days + 719468)
  let era ← eraOf z
  let doe := asU64 (← i64 (z - (← i64 (era * 146097))))
  let yoe ← yoeOf doe
  let y ← i64 (asI64 yoe + (← i64 (era * 400)))
  let doy ← doyOf doe yoe
  let (m, d) ← monthDayOf doy
  let year ← i64 (y + if m ≤ 2 then 1 else 0)
  return { date := { year, month := m, day := d }, hour, minute, second }

/-- The placeholder `{n:0width}`: zeros go between the sign and the digits. -/
def zeroPad (width : ℕ) (n : ℤ) : String :=
  let sign := if n < 0 then "-" else ""
  let digits := toString n.natAbs
  sign ++ String.ofList (List.replicate (width - sign.length - digits.length) '0') ++ digits

/-- The text that `iso_utc_now` returns. -/
def CivilTime.format (t : CivilTime) : String :=
  s!"{zeroPad 4 t.date.year}-{zeroPad 2 t.date.month}-{zeroPad 2 t.date.day} " ++
    s!"{zeroPad 2 t.hour}:{zeroPad 2 t.minute}:{zeroPad 2 t.second} -0000"

def isoUtc (secs : Int64) : Option String := (civil secs).map CivilTime.format

example : isoUtc 951868799 = some "2000-02-29 23:59:59 -0000" := by decide

/-! ## The steps of the conversion -/

/-- The era of a day is the floor of its quotient, also before year 0. -/
theorem eraOf_eq {z : ℤ} (h : -2 ^ 62 ≤ z) : eraOf z = some (z / 146097) := by
  by_cases hz : 0 ≤ z
  · simp [eraOf, hz, Int.tdiv_eq_ediv_of_nonneg hz]
  · rw [eraOf, if_neg hz, i64_eq (by omega)]
    have hneg : (z - 146096).tdiv 146097 = z / 146097 := by
      rw [← Int.neg_neg (z - 146096), Int.neg_tdiv, Int.tdiv_eq_ediv_of_nonneg (by omega)]
      omega
    simp [hneg]

/-- The days of an era before its year `yoe`; the 400th-year leap day is at the end of the era. -/
def yearStart (yoe : ℕ) : ℕ := 365 * yoe + yoe / 4 - yoe / 100

/-- The days of the era without the leap days before them. -/
def unleaped (doe : ℕ) : ℕ := doe - doe / 1460 + doe / 36524 - doe / 146096

/-- Taking the leap days out of a day of the era keeps the order of the days. -/
theorem unleaped_mono {d e : ℕ} (he : e < 146097) (h : d ≤ e) : unleaped d ≤ unleaped e := by
  induction h with
  | refl => exact Nat.le_refl _
  | @step k _ ih =>
    have hk : unleaped k ≤ unleaped (k + 1) := by
      simp only [unleaped]
      omega
    exact Nat.le_trans (ih (by omega)) hk

/-- The 400 years of an era, each at its first and last day. -/
theorem unleaped_yearStart : ∀ y < 400, 365 * y ≤ unleaped (yearStart y) ∧
    unleaped (min (yearStart (y + 1) - 1) 146096) < 365 * (y + 1) := by
  decide +kernel

/-- No operation of `yoe` overflows or underflows within an era. -/
theorem yoeOf_eq {doe : ℕ} (h : doe < 146097) : yoeOf doe = some (unleaped doe / 365) := by
  rw [yoeOf, checkedSub_eq (by omega)]
  simp only [Option.bind_eq_bind, Option.bind_some]
  rw [u64_eq (by omega), Option.bind_some, checkedSub_eq (by omega)]
  rfl

/-- `yoe` is the year of the era that the day falls into, with every correction of the source in
place. -/
theorem yoeOf_spec {doe : ℕ} (h : doe < 146097) : ∃ yoe < 400, yoeOf doe = some yoe ∧
    yearStart yoe ≤ doe ∧ (yoe < 399 → doe < yearStart (yoe + 1)) := by
  have hlt : unleaped doe / 365 < 400 := by
    have hmax := unleaped_mono (d := doe) (e := 146096) (by omega) (by omega)
    have hend : unleaped 146096 = 145999 := by decide
    omega
  refine ⟨unleaped doe / 365, hlt, yoeOf_eq h, ?_, fun h399 => ?_⟩
  · -- before the first day of the year there are fewer than `365 * yoe` such days
    by_contra hlate
    cases hy : unleaped doe / 365 with
    | zero =>
      rw [hy] at hlate
      exact hlate (Nat.zero_le _)
    | succ y =>
      rw [hy] at hlate
      have hprev := (unleaped_yearStart y (by omega)).2
      have hmono := unleaped_mono (d := doe) (e := min (yearStart (y + 1) - 1) 146096)
        (by omega) (by omega)
      omega
  · by_contra hlate
    have hnext := (unleaped_yearStart (unleaped doe / 365 + 1) (by omega)).1
    have hmono := unleaped_mono h (Nat.le_of_not_lt hlate)
    omega

/-- The day of the year is counted from the first of March, and its subtraction never
underflows. -/
theorem doyOf_eq {doe yoe : ℕ} (h : yoe < 400) (hstart : yearStart yoe ≤ doe) :
    doyOf doe yoe = some (doe - yearStart yoe) := by
  simp only [yearStart] at hstart ⊢
  rw [doyOf, u64_eq (by omega)]
  simp only [Option.bind_eq_bind, Option.bind_some]
  rw [u64_eq (by omega), Option.bind_some, checkedSub_eq (by omega), Option.bind_some,
    checkedSub_eq hstart]

/-- The days of a year from its first of March to the first of its `mp`-th month from there. -/
def monthStart (mp : ℕ) : ℕ := (153 * mp + 2) / 5

/-- The month of a year that starts in March, and the day in it. -/
theorem monthDayOf_spec {doy : ℕ} (h : doy < 366) : ∃ mp < 12,
    monthStart mp ≤ doy ∧ doy < monthStart (mp + 1) ∧
    monthDayOf doy = some (if mp < 10 then mp + 3 else mp - 9, doy - monthStart mp + 1) := by
  have hmp : (5 * doy + 2) / 153 < 12 := by omega
  have hstart : monthStart ((5 * doy + 2) / 153) ≤ doy := by
    simp only [monthStart]
    omega
  refine ⟨(5 * doy + 2) / 153, hmp, hstart, by simp only [monthStart]; omega, ?_⟩
  simp only [monthStart] at hstart ⊢
  rw [monthDayOf, u64_eq (by omega)]
  simp only [Option.bind_eq_bind, Option.bind_some]
  rw [u64_eq (by omega), Option.bind_some, u64_eq (by omega), Option.bind_some,
    u64_eq (by omega), Option.bind_some]
  rw [checkedSub_eq hstart, Option.bind_some, u64_eq (by omega), Option.bind_some,
    asU32_eq (by omega) (by omega)]
  split
  · rw [u64_eq (by omega), Option.bind_some, asU32_eq (by omega) (by omega)]
    rfl
  · rw [checkedSub_eq (by omega), Option.bind_some, asU32_eq (by omega) (by omega)]
    rfl

/-! ## The date of a day -/

/-- From March to January the months of `mp` are those of the calendar, whether or not the year is a
leap year. -/
theorem monthStart_succ (y : ℤ) {mp : ℕ} (h : mp < 10) :
    monthStart (mp + 1) = monthStart mp + daysInMonth y (mp + 3) := by
  interval_cases mp <;> rfl

/-- From March on the months of a year have the lengths that `mp` counts with, leap year or not. -/
theorem daysBeforeMonth_march (y : ℤ) {mp : ℕ} (h : mp < 10) :
    daysBeforeMonth y (mp + 3) = daysBeforeMonth y 3 + monthStart mp := by
  induction mp with
  | zero => rfl
  | succ mp ih =>
    rw [daysBeforeMonth_succ y (by omega), ih (by omega), monthStart_succ y (by omega)]
    omega

/-- Only the days before March tell a leap year from a common one. -/
theorem daysBeforeMonth_three (y : ℤ) :
    (daysBeforeMonth y 3 : ℤ) = 59 + if isLeap y then 1 else 0 := by
  by_cases h : isLeap y <;> simp [daysBeforeMonth, daysInMonth, h]

/-- The days from the first of March of year 0 to that of year `y`. -/
def marchDays (y : ℤ) : ℤ := 365 * y + y / 4 - y / 100 + y / 400

/-- The days up to the first of March, counted from the calendar and from the era. -/
theorem daysBeforeYear_march (y : ℤ) :
    daysBeforeYear y + daysBeforeMonth y 3 = marchDays y - 306 := by
  rw [daysBeforeMonth_three]
  simp only [daysBeforeYear, marchDays]
  by_cases h : isLeap y
  · rw [if_pos h]
    simp only [isLeap] at h
    omega
  · rw [if_neg h]
    simp only [isLeap] at h
    omega

/-- The date in the year that starts in March of `y`, from its month `mp` and the day `d` in it, both
counted from 0. -/
def marchDate (y : ℤ) (mp d : ℕ) : Date :=
  let m := if mp < 10 then mp + 3 else mp - 9
  { year := y + if m ≤ 2 then 1 else 0, month := m, day := d + 1 }

/-- The months from March are in the year `y`, the last two in the next. -/
theorem marchDate_eq {y : ℤ} {mp d : ℕ} (h : mp < 10) : marchDate y mp d = ⟨y, mp + 3, d + 1⟩ := by
  simp [marchDate, h]

/-- The tenth month from March is the January of the next year. -/
theorem marchDate_ten (y : ℤ) (d : ℕ) : marchDate y 10 d = ⟨y + 1, 1, d + 1⟩ := rfl

/-- The eleventh month from March is the February of the next year. -/
theorem marchDate_eleven (y : ℤ) (d : ℕ) : marchDate y 11 d = ⟨y + 1, 2, d + 1⟩ := rfl

theorem march_cases {mp : ℕ} (h : mp < 12) : mp < 10 ∨ mp = 10 ∨ mp = 11 := by omega

/-- A date of the March-based year has the days since the epoch that the era arithmetic starts
from. -/
theorem toDays_marchDate {y : ℤ} {mp d : ℕ} (h : mp < 12) :
    (marchDate y mp d).toDays = marchDays y + monthStart mp + d - 719468 := by
  obtain hmp | rfl | rfl := march_cases h
  · have hyear := daysBeforeYear_march y
    rw [marchDate_eq hmp]
    simp only [Date.toDays, daysBeforeMonth_march y hmp, epoch]
    omega
  · have hjan : daysBeforeMonth (y + 1) 1 = 0 := rfl
    have hstart : monthStart 10 = 306 := rfl
    rw [marchDate_ten]
    simp only [Date.toDays, hjan, hstart, daysBeforeYear, marchDays, epoch]
    omega
  · have hfeb : daysBeforeMonth (y + 1) 2 = 31 := rfl
    have hstart : monthStart 11 = 337 := rfl
    rw [marchDate_eleven]
    simp only [Date.toDays, hfeb, hstart, daysBeforeYear, marchDays, epoch]
    omega

/-- The days of the year from March of `y`, the last of them only before the end of a leap
February, make valid dates. -/
theorem marchDate_valid {y : ℤ} {mp doy : ℕ} (h : mp < 12) (hlo : monthStart mp ≤ doy)
    (hhi : doy < monthStart (mp + 1)) (hdoy : doy < 366) (hlast : doy = 365 → isLeap (y + 1)) :
    (marchDate y mp (doy - monthStart mp)).Valid := by
  obtain hmp | rfl | rfl := march_cases h
  · rw [monthStart_succ y hmp] at hhi
    rw [marchDate_eq hmp]
    exact ⟨by simp, by simp; omega, by simp, by dsimp only; omega⟩
  · have hend : monthStart (10 + 1) = monthStart 10 + daysInMonth (y + 1) 1 := rfl
    rw [marchDate_ten]
    exact ⟨by simp, by simp, by simp, by dsimp only; omega⟩
  · have hstart : monthStart 11 = 337 := rfl
    rw [marchDate_eleven]
    refine ⟨by simp, by simp, by simp, ?_⟩
    by_cases hleap : isLeap (y + 1)
    · have hlen : daysInMonth (y + 1) 2 = 29 := by simp [daysInMonth, hleap]
      simp only [hlen, hstart]
      omega
    · have hlen : daysInMonth (y + 1) 2 = 28 := by simp [daysInMonth, hleap]
      have hlast' : doy ≠ 365 := fun hd => hleap (hlast hd)
      simp only [hlen, hstart]
      omega

/-! ## The whole conversion -/

/-- The days and the years of an era of 400 years. -/
theorem marchDays_era (era : ℤ) {yoe : ℕ} (h : yoe < 400) :
    marchDays (yoe + era * 400) = era * 146097 + yearStart yoe := by
  simp only [marchDays, yearStart]
  omega

/-- Only a year before a leap February has a 366th day. -/
theorem isLeap_of_yearStart (era : ℤ) {doe yoe : ℕ} (hyoe : yoe < 400) (hdoe : doe < 146097)
    (hnext : yoe < 399 → doe < yearStart (yoe + 1)) (hlo : yearStart yoe ≤ doe) :
    doe - yearStart yoe < 366 ∧
      (doe - yearStart yoe = 365 → isLeap (yoe + era * 400 + 1)) := by
  simp only [yearStart] at *
  obtain rfl | hlt : yoe = 399 ∨ yoe < 399 := by omega
  · refine ⟨by omega, fun _ => ⟨by omega, .inr (by omega)⟩⟩
  · have hend := hnext hlt
    have hlen : (yoe + 1) / 4 ≤ yoe / 4 + 1 ∧ yoe / 100 ≤ (yoe + 1) / 100 := by omega
    refine ⟨by omega, fun hday => ?_⟩
    have hfour : (yoe + 1) / 4 = yoe / 4 + 1 := by omega
    have hcentury : (yoe + 1) / 100 = yoe / 100 := by omega
    exact ⟨by omega, .inl (by omega)⟩

/-- `t` is the time of `secs` seconds after the epoch. -/
structure CivilTime.At (t : CivilTime) (secs : ℤ) : Prop where
  date_valid : t.date.Valid
  date_days : t.date.toDays = secs / 86400
  hour_lt : t.hour < 24
  minute_lt : t.minute < 60
  second_lt : t.second < 60
  time_of_day : (t.hour * 3600 + t.minute * 60 + t.second : ℤ) = secs % 86400

/-- The hour, minute and second of a number of seconds. -/
theorem timeOfDay_spec (n : ℤ) :
    (n % 86400 / 3600).toNat < 24 ∧ (n % 86400 % 3600 / 60).toNat < 60 ∧
      (n % 86400 % 60).toNat < 60 ∧
      ((n % 86400 / 3600).toNat * 3600 + (n % 86400 % 3600 / 60).toNat * 60 +
        (n % 86400 % 60).toNat : ℤ) = n % 86400 := by
  have hlo : 0 ≤ n % 86400 := by omega
  have hhi : n % 86400 < 86400 := by omega
  generalize n % 86400 = m at hlo hhi
  refine ⟨by omega, by omega, by omega, by omega⟩

/-- No operation of the conversion fails, and the result is the time of day and the date of
`secs`. -/
theorem civil_spec (secs : Int64) : ∃ t, civil secs = some t ∧ t.At secs.toInt := by
  have hlo := secs.le_toInt
  have hhi := secs.toInt_lt
  rw [civil]
  generalize secs.toInt = n at hlo hhi
  have hz : -2 ^ 62 ≤ n / 86400 + 719468 ∧ n / 86400 + 719468 < 2 ^ 62 := by omega
  have hdays : n / 86400 + 719468 - 719468 = n / 86400 := by omega
  generalize n / 86400 + 719468 = z at hz hdays
  have hdoe : (z - z / 146097 * 146097).toNat < 146097 := by omega
  have hera : (z - z / 146097 * 146097).toNat + z / 146097 * 146097 = z := by omega
  have hu64 := asU64_eq (n := z - z / 146097 * 146097) (by omega) (by omega)
  obtain ⟨yoe, hyoe, hyoeOf, hstart, hnext⟩ := yoeOf_spec hdoe
  generalize (z - z / 146097 * 146097).toNat = doe at *
  obtain ⟨hdoy, hlast⟩ := isLeap_of_yearStart (z / 146097) hyoe hdoe hnext hstart
  obtain ⟨mp, hmp, hmlo, hmhi, hmonth⟩ := monthDayOf_spec hdoy
  refine ⟨⟨marchDate (yoe + z / 146097 * 400) mp (doe - yearStart yoe - monthStart mp),
    (n % 86400 / 3600).toNat, (n % 86400 % 3600 / 60).toNat, (n % 86400 % 60).toNat⟩, ?_, ?_⟩
  · simp only [Option.bind_eq_bind]
    rw [i64_eq (by omega), Option.bind_some, eraOf_eq hz.1, Option.bind_some, i64_eq (by omega),
      Option.bind_some, i64_eq (by omega), Option.bind_some, hu64, hyoeOf, Option.bind_some,
      i64_eq (by omega), Option.bind_some, asI64_eq (by omega), i64_eq (by omega),
      Option.bind_some, doyOf_eq hyoe hstart, Option.bind_some, hmonth, Option.bind_some,
      i64_eq (by split <;> omega), Option.bind_some, asU32_eq (by omega) (by omega),
      asU32_eq (by omega) (by omega), asU32_eq (by omega) (by omega)]
    rfl
  · obtain ⟨hhour, hminute, hsecond, htime⟩ := timeOfDay_spec n
    refine ⟨marchDate_valid hmp hmlo hmhi hdoy hlast, ?_, hhour, hminute, hsecond, htime⟩
    rw [toDays_marchDate hmp, marchDays_era _ hyoe]
    omega

/-- Days from the civil date times 86400, plus the time of day. -/
def CivilTime.toSecs (t : CivilTime) : ℤ :=
  t.date.toDays * 86400 + (t.hour * 3600 + t.minute * 60 + t.second)

/-- The order in which the fields are printed. -/
def CivilTime.Before (t t' : CivilTime) : Prop :=
  t.date.Before t'.date ∨ t.date = t'.date ∧
    (t.hour < t'.hour ∨ t.hour = t'.hour ∧
      (t.minute < t'.minute ∨ t.minute = t'.minute ∧ t.second < t'.second))

/-- The fields of a time determine its seconds. -/
theorem CivilTime.At.toSecs_eq {t : CivilTime} {secs : ℤ} (h : t.At secs) : t.toSecs = secs := by
  rw [CivilTime.toSecs, h.date_days, h.time_of_day]
  omega

/-- Of two times the earlier one has fewer seconds. -/
theorem CivilTime.At.lt_of_before {t t' : CivilTime} {secs secs' : ℤ} (h : t.At secs)
    (h' : t'.At secs') (hbefore : t.Before t') : secs < secs' := by
  have htime := h.time_of_day
  have htime' := h'.time_of_day
  obtain hdate | ⟨hdate, htod⟩ := hbefore
  · have hdays := Date.toDays_lt h.date_valid h'.date_valid hdate
    rw [h.date_days, h'.date_days] at hdays
    omega
  · have hdays : secs / 86400 = secs' / 86400 := by
      rw [← h.date_days, ← h'.date_days, hdate]
    have hmin := h.minute_lt
    have hsec := h.second_lt
    omega

/-- The host clock shows the Gregorian calendar. For every number of seconds since the epoch the
conversion goes through without an overflow or an underflow, its fields are those of a time of day
on a day that exists, they convert back to the same number of seconds, and no later time shows an
earlier date. -/
theorem isoUtc_gregorian (secs : Int64) : ∃ t, civil secs = some t ∧
    isoUtc secs = some t.format ∧
    1 ≤ t.date.month ∧ t.date.month ≤ 12 ∧
    1 ≤ t.date.day ∧ t.date.day ≤ daysInMonth t.date.year t.date.month ∧
    t.hour < 24 ∧ t.minute < 60 ∧ t.second < 60 ∧
    t.toSecs = secs.toInt ∧
    ∀ later t', secs ≤ later → civil later = some t' → ¬ t'.Before t := by
  obtain ⟨t, ht, hat⟩ := civil_spec secs
  refine ⟨t, ht, by rw [isoUtc, ht, Option.map_some], hat.date_valid.month_pos,
    hat.date_valid.month_le, hat.date_valid.day_pos, hat.date_valid.day_le, hat.hour_lt,
    hat.minute_lt, hat.second_lt, hat.toSecs_eq, ?_⟩
  intro later t' hle ht' hbefore
  obtain ⟨t'', ht'', hat'⟩ := civil_spec later
  obtain rfl : t' = t'' := Option.some.inj (ht'.symm.trans ht'')
  have hlt := hat'.lt_of_before hat hbefore
  rw [Int64.le_iff_toInt_le] at hle
  omega

end Vdsm.Host
