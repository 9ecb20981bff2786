import Mathlib.Algebra.Group.Int.Defs
import Mathlib.Tactic.Common

/-!
# The proleptic Gregorian calendar

Leap years, month lengths and the number of days from 1970-01-01 to a date, each by its definition
in the calendar: a date is as many days after the first of January of year 1 as there are days in
the years and months before it. `Date.toDays_lt` says that this number orders the dates, so a date
is determined by it.
-/

namespace Gregorian

/-- Every fourth year, except the centuries that are not multiples of 400. -/
def isLeap (y : ℤ) : Prop := y % 4 = 0 ∧ (y % 100 ≠ 0 ∨ y % 400 = 0)

instance (y : ℤ) : Decidable (isLeap y) := inferInstanceAs (Decidable (_ ∧ _))

def daysInYear (y : ℤ) : ℤ := if isLeap y then 366 else 365

def daysInMonth (y : ℤ) (m : ℕ) : ℕ :=
  if m = 2 then if isLeap y then 29 else 28
  else if m = 4 ∨ m = 6 ∨ m = 9 ∨ m = 11 then 30
  else 31

/-- The days from the first of January of year 1 to that of year `y`. -/
def daysBeforeYear (y : ℤ) : ℤ := 365 * (y - 1) + (y - 1) / 4 - (y - 1) / 100 + (y - 1) / 400

/-- The days of the year `y` before its month `m`. -/
def daysBeforeMonth (y : ℤ) : ℕ → ℕ
  | 0 => 0
  | m + 1 => if m = 0 then 0 else daysBeforeMonth y m + daysInMonth y m

/-- The first of January 1970, in days after the first of January of year 1. -/
def epoch : ℤ := 719162

/-- A day of the calendar. -/
structure Date where
  year : ℤ
  month : ℕ
  day : ℕ
deriving DecidableEq, Repr

namespace Date

structure Valid (a : Date) : Prop where
  month_pos : 1 ≤ a.month
  month_le : a.month ≤ 12
  day_pos : 1 ≤ a.day
  day_le : a.day ≤ daysInMonth a.year a.month

/-- Days from 1970-01-01 to the date. -/
def toDays (a : Date) : ℤ :=
  daysBeforeYear a.year + daysBeforeMonth a.year a.month + (a.day - 1) - epoch

/-- The calendar's order: by year, then by month, then by day. -/
def Before (a b : Date) : Prop :=
  a.year < b.year ∨ a.year = b.year ∧ (a.month < b.month ∨ a.month = b.month ∧ a.day < b.day)

instance (a b : Date) : Decidable (a.Before b) := inferInstanceAs (Decidable (_ ∨ _))

end Date

/-! ## Years -/

/-- A year begins when the one before it has run out. -/
theorem daysBeforeYear_succ (y : ℤ) :
    daysBeforeYear (y + 1) = daysBeforeYear y + daysInYear y := by
  by_cases h : isLeap y
  · rw [daysInYear, if_pos h]
    simp only [isLeap] at h
    simp only [daysBeforeYear]
    omega
  · rw [daysInYear, if_neg h]
    simp only [isLeap] at h
    simp only [daysBeforeYear]
    omega

/-- Every year has at least one day. -/
theorem daysBeforeYear_add_le (y : ℤ) (n : ℕ) :
    daysBeforeYear y + n ≤ daysBeforeYear (y + n) := by
  simp only [daysBeforeYear]
  omega

/-- A year that starts later starts after the whole of an earlier one. -/
theorem daysBeforeYear_le_of_lt {y y' : ℤ} (h : y < y') :
    daysBeforeYear y + daysInYear y ≤ daysBeforeYear y' := by
  obtain ⟨n, rfl⟩ : ∃ n : ℕ, y' = y + 1 + n := ⟨(y' - (y + 1)).toNat, by omega⟩
  have hn := daysBeforeYear_add_le (y + 1) n
  rw [daysBeforeYear_succ] at hn
  omega

/-! ## Months -/

/-- A month begins when the one before it has run out. -/
theorem daysBeforeMonth_succ (y : ℤ) {m : ℕ} (h : 1 ≤ m) :
    daysBeforeMonth y (m + 1) = daysBeforeMonth y m + daysInMonth y m := by
  rw [daysBeforeMonth, if_neg (by omega)]

/-- Later months begin later. -/
theorem daysBeforeMonth_mono (y : ℤ) {m m' : ℕ} (h : m ≤ m') :
    daysBeforeMonth y m ≤ daysBeforeMonth y m' := by
  induction h with
  | refl => exact Nat.le_refl _
  | @step k _ ih =>
    by_cases hk : k = 0
    · subst hk
      exact Nat.le_trans ih (Nat.zero_le _)
    · rw [daysBeforeMonth_succ y (by omega)]
      omega

/-- A month is over when a later one begins. -/
theorem daysBeforeMonth_le_of_lt (y : ℤ) {m m' : ℕ} (h1 : 1 ≤ m) (h : m < m') :
    daysBeforeMonth y m + daysInMonth y m ≤ daysBeforeMonth y m' := by
  rw [← daysBeforeMonth_succ y h1]
  exact daysBeforeMonth_mono y h

/-- The twelve months make up the year. -/
theorem daysBeforeMonth_thirteen (y : ℤ) : (daysBeforeMonth y 13 : ℤ) = daysInYear y := by
  by_cases h : isLeap y <;> simp [daysBeforeMonth, daysInMonth, daysInYear, h]

/-! ## Dates -/

namespace Date

variable {a b : Date}

/-- A valid date lies within its year. -/
theorem Valid.dayOfYear_lt (h : a.Valid) :
    (daysBeforeMonth a.year a.month : ℤ) + (a.day - 1) < daysInYear a.year := by
  have hlast := h.month_le
  have hm : daysBeforeMonth a.year a.month + daysInMonth a.year a.month ≤
      daysBeforeMonth a.year 13 := daysBeforeMonth_le_of_lt a.year h.month_pos (by omega)
  have hy := daysBeforeMonth_thirteen a.year
  have h1 := h.day_pos
  have h2 := h.day_le
  omega

/-- The number of days grows with the date. -/
theorem toDays_lt (ha : a.Valid) (hb : b.Valid) (h : a.Before b) : a.toDays < b.toDays := by
  have hb1 := hb.day_pos
  simp only [toDays]
  obtain hy | ⟨hy, hm | ⟨hm, hd⟩⟩ := h
  · have hlt := ha.dayOfYear_lt
    have hle := daysBeforeYear_le_of_lt hy
    omega
  · have hle := daysBeforeMonth_le_of_lt a.year ha.month_pos hm
    have hd := ha.day_le
    rw [← hy]
    omega
  · rw [← hy, ← hm]
    omega

end Date

end Gregorian
