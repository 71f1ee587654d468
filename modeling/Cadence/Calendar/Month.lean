import Cadence.Calendar.Year

/-!
# Month — the months of the calendar in one row

Months are numbered through from January of year 1, so that month arithmetic is addition. Each month
begins on the day after the previous one ends; the month of a day is found by its year first.

- `Month`: a month of the years 1 to 9999
- `Month.start`, `Month.length`: the days it covers, as days since 0001-01-01
- `monthOfDay`: the month that holds a day
-/

namespace Cadence
namespace Calendar

/-! ## Months within a year -/

/-- Days of the year before its month number `k + 1`. -/
def daysBeforeMonth (year : Int) : Nat → Nat
  | 0 => 0
  | k + 1 => daysBeforeMonth year k + monthLength year (k + 1)

theorem daysBeforeMonth_twelve (year : Int) : daysBeforeMonth year 12 = yearLength year := by
  simp [daysBeforeMonth, monthLength, yearLength]
  split <;> rfl

/-- The last of the first `k + 1` months that begins on or before a day of the year. -/
def monthInYear (year : Int) (day : Nat) : Nat → Nat
  | 0 => 0
  | k + 1 => if daysBeforeMonth year (k + 1) ≤ day then k + 1 else monthInYear year day k

theorem monthInYear_le (year : Int) (day k : Nat) : monthInYear year day k ≤ k := by
  induction k with
  | zero => exact Nat.le_refl _
  | succ k ih => unfold monthInYear; split <;> omega

theorem monthInYear_bounds (year : Int) (day k : Nat) (h : day < daysBeforeMonth year (k + 1)) :
    daysBeforeMonth year (monthInYear year day k) ≤ day ∧
      day < daysBeforeMonth year (monthInYear year day k + 1) := by
  induction k with
  | zero => exact ⟨Nat.zero_le _, h⟩
  | succ k ih =>
    unfold monthInYear
    split
    · exact ⟨by assumption, h⟩
    · exact ih (by omega)

/-! ## Months in one row -/

/-- The year of month `i`, where month 0 is January of year 1. -/
def yearOfMonth (i : Nat) : Int := ((i / 12 : Nat) : Int) + 1

/-- First day of month `i`, as days since 0001-01-01. -/
def monthStart (i : Nat) : Nat :=
  daysBeforeYear (i / 12) + daysBeforeMonth (yearOfMonth i) (i % 12)

def monthSize (i : Nat) : Nat := monthLength (yearOfMonth i) (i % 12 + 1)

theorem monthSize_pos (i : Nat) : 1 ≤ monthSize i := monthLength_pos _ _

/-- Months follow each other without a gap. -/
theorem monthStart_succ (i : Nat) : monthStart (i + 1) = monthStart i + monthSize i := by
  by_cases h : i % 12 = 11
  · -- After December the next year begins.
    have hdiv : (i + 1) / 12 = i / 12 + 1 := by omega
    have hmod : (i + 1) % 12 = 0 := by omega
    have hyear := daysBeforeMonth_twelve (yearOfMonth i)
    unfold monthStart monthSize
    rw [hdiv, hmod, h, daysBeforeYear_succ]
    simp only [daysBeforeMonth] at hyear ⊢
    unfold yearOfMonth at *
    omega
  · have hdiv : (i + 1) / 12 = i / 12 := by omega
    have hmod : (i + 1) % 12 = i % 12 + 1 := by omega
    unfold monthStart monthSize yearOfMonth
    rw [hdiv, hmod]
    simp only [daysBeforeMonth]
    omega

theorem monthStart_mono {i j : Nat} (h : i ≤ j) : monthStart i ≤ monthStart j := by
  induction h with
  | refl => exact Nat.le_refl _
  | step _ ih => rw [monthStart_succ]; omega

/-- The month that holds day `n`. -/
def monthOfDay (n : Nat) : Nat :=
  let k := yearOfDay n
  12 * k + monthInYear ((k : Int) + 1) (n - daysBeforeYear k) 11

theorem monthOfDay_bounds (n : Nat) :
    monthStart (monthOfDay n) ≤ n ∧ n < monthStart (monthOfDay n) + monthSize (monthOfDay n) := by
  obtain ⟨hlo, hhi⟩ := yearOfDay_bounds n
  rw [daysBeforeYear_succ, ← daysBeforeMonth_twelve] at hhi
  -- The year holds the day, so the day is before the end of the year's twelve months.
  have hle := monthInYear_le ((yearOfDay n : Int) + 1) (n - daysBeforeYear (yearOfDay n)) 11
  have hb := monthInYear_bounds ((yearOfDay n : Int) + 1) (n - daysBeforeYear (yearOfDay n)) 11
    (show _ < daysBeforeMonth _ 12 by omega)
  unfold monthStart monthSize monthOfDay yearOfMonth
  simp only
  generalize monthInYear ((yearOfDay n : Int) + 1) (n - daysBeforeYear (yearOfDay n)) 11 = m at *
  have hdiv : (12 * yearOfDay n + m) / 12 = yearOfDay n := by omega
  have hmod : (12 * yearOfDay n + m) % 12 = m := by omega
  rw [hdiv, hmod]
  simp only [daysBeforeMonth] at hb
  omega

/-- The month of a day is the only one that holds it. -/
theorem monthOfDay_eq {n i : Nat} (hlo : monthStart i ≤ n) (hhi : n < monthStart i + monthSize i) :
    monthOfDay n = i := by
  obtain ⟨mlo, mhi⟩ := monthOfDay_bounds n
  rw [← monthStart_succ] at hhi mhi
  -- Of two months, the earlier one ends before the later one starts.
  rcases Nat.lt_trichotomy (monthOfDay n) i with h | h | h
  · have := monthStart_mono (show monthOfDay n + 1 ≤ i from h)
    omega
  · exact h
  · have := monthStart_mono (show i + 1 ≤ monthOfDay n from h)
    omega

/-! ## The supported months -/

/-- Months of the years 1 to 9999. -/
abbrev monthCount : Nat := 119988

/-- Days of the years 1 to 9999. -/
abbrev dayCount : Nat := 3652059

theorem monthStart_monthCount : monthStart monthCount = dayCount := by decide

/-- A month of the years 1 to 9999. -/
structure Month where
  index : Nat
  index_lt : index < monthCount
  deriving DecidableEq, Repr

namespace Month

def ofIndex? (i : Int) : Option Month :=
  if h : 0 ≤ i ∧ i < monthCount then some ⟨i.toNat, by omega⟩ else none

theorem ofIndex?_eq_some_iff {i : Int} {m : Month} : ofIndex? i = some m ↔ (m.index : Int) = i := by
  obtain ⟨k, hk⟩ := m
  unfold ofIndex?
  split
  · simp only [Option.some.injEq, mk.injEq]
    omega
  · simp only [reduceCtorEq, false_iff]
    omega

def year (m : Month) : Nat := m.index / 12 + 1

/-- 1 for January to 12 for December. -/
def number (m : Month) : Nat := m.index % 12 + 1

def start (m : Month) : Nat := monthStart m.index

def length (m : Month) : Nat := monthSize m.index

theorem length_pos (m : Month) : 1 ≤ m.length := monthSize_pos _

theorem length_le (m : Month) : m.length ≤ 31 := monthLength_le _ _

theorem start_add_length_le (m : Month) : m.start + m.length ≤ dayCount := by
  have h := monthStart_mono (show m.index + 1 ≤ monthCount from m.index_lt)
  rw [monthStart_succ, monthStart_monthCount] at h
  exact h

end Month

end Calendar
end Cadence
