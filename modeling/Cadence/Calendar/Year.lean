/-!
# Year — lengths of years and months

The proleptic Gregorian calendar: every fourth year is a leap year, full centuries only when they
divide by 400. Years are integers here, so the rule also covers years outside the supported range.

- `isLeap`, `monthLength`: the calendar's two rules
- `daysInMonth`: the length of a month that may not exist
- `daysBeforeYear`: days in the first `k` years, counted from 0001-01-01
- `yearOfDay`: its inverse, by cycles of 400, 100, 4 and 1 years
-/

namespace Cadence
namespace Calendar

/-! ## Leap years and month lengths -/

def isLeap (year : Int) : Bool :=
  year % 4 == 0 && (year % 100 != 0 || year % 400 == 0)

/-- Length of month `month`, counted from 1. -/
def monthLength (year : Int) (month : Nat) : Nat :=
  match month with
  | 2 => if isLeap year then 29 else 28
  | 4 | 6 | 9 | 11 => 30
  | _ => 31

/-- A month number outside 1 to 12. -/
structure BadMonth where
  number : Int
  deriving DecidableEq, Repr

def BadMonth.message (e : BadMonth) : String :=
  "bad month number " ++ toString e.number ++ "; must be 1-12"

def daysInMonth (year month : Int) : Except BadMonth Nat :=
  if 1 ≤ month ∧ month ≤ 12 then .ok (monthLength year month.toNat) else .error ⟨month⟩

theorem monthLength_pos (year : Int) (month : Nat) : 1 ≤ monthLength year month := by
  unfold monthLength
  split <;> (try split) <;> omega

theorem monthLength_le (year : Int) (month : Nat) : monthLength year month ≤ 31 := by
  unfold monthLength
  split <;> (try split) <;> omega

/-! ## Days before a year -/

/-- Days in the first `k` years: one leap day for each fourth year, less the centuries, plus each
fourth century. -/
def daysBeforeYear (k : Nat) : Nat :=
  365 * k + k / 4 - k / 100 + k / 400

def yearLength (year : Int) : Nat :=
  if isLeap year then 366 else 365

theorem daysBeforeYear_succ (k : Nat) :
    daysBeforeYear (k + 1) = daysBeforeYear k + yearLength ((k : Int) + 1) := by
  -- A quotient grows by one where its divisor divides.
  have h4 : (k + 1) / 4 = k / 4 + if (k + 1) % 4 = 0 then 1 else 0 := by split <;> omega
  have h100 : (k + 1) / 100 = k / 100 + if (k + 1) % 100 = 0 then 1 else 0 := by split <;> omega
  have h400 : (k + 1) / 400 = k / 400 + if (k + 1) % 400 = 0 then 1 else 0 := by split <;> omega
  have i4 : ((k : Int) + 1) % 4 = (((k + 1) % 4 : Nat) : Int) := by omega
  have i100 : ((k : Int) + 1) % 100 = (((k + 1) % 100 : Nat) : Int) := by omega
  have i400 : ((k : Int) + 1) % 400 = (((k + 1) % 400 : Nat) : Int) := by omega
  have hle : k / 100 ≤ k / 4 := by omega
  -- Every century is a fourth year, and every fourth century a century.
  have d100 : (k + 1) % 100 = 0 → (k + 1) % 4 = 0 := by omega
  have d400 : (k + 1) % 400 = 0 → (k + 1) % 100 = 0 := by omega
  unfold daysBeforeYear yearLength isLeap
  rw [i4, i100, i400, h4, h100, h400]
  clear h4 h100 h400 i4 i100 i400
  generalize (k + 1) % 4 = r4 at *
  generalize (k + 1) % 100 = r100 at *
  generalize (k + 1) % 400 = r400 at *
  by_cases c4 : r4 = 0 <;> by_cases c100 : r100 = 0 <;> by_cases c400 : r400 = 0 <;>
    simp_all <;> omega

/-! ## The year of a day -/

/-- Whole years before day `n`, where day 0 is 0001-01-01: as many cycles of 400 years as fit, then
of 100, 4 and 1. The last day of a leap cycle does not open a fourth century or a fourth year. -/
def yearOfDay (n : Nat) : Nat :=
  let era := n / 146097
  let inEra := n % 146097
  let century := min (inEra / 36524) 3
  let inCentury := inEra - 36524 * century
  let cycle := inCentury / 1461
  let inCycle := inCentury % 1461
  400 * era + 100 * century + 4 * cycle + min (inCycle / 365) 3

/-- The first `k` years by cycles. -/
theorem daysBeforeYear_cycles (era century cycle year : Nat)
    (hc : century ≤ 3) (hq : cycle ≤ 24) (hy : year ≤ 3) :
    daysBeforeYear (400 * era + 100 * century + 4 * cycle + year) =
      146097 * era + 36524 * century + 1461 * cycle + 365 * year := by
  have h4 : (400 * era + 100 * century + 4 * cycle + year) / 4 =
      100 * era + 25 * century + cycle := by omega
  have h100 : (400 * era + 100 * century + 4 * cycle + year) / 100 = 4 * era + century := by omega
  have h400 : (400 * era + 100 * century + 4 * cycle + year) / 400 = era := by omega
  unfold daysBeforeYear
  rw [h4, h100, h400]
  omega

theorem yearOfDay_bounds (n : Nat) :
    daysBeforeYear (yearOfDay n) ≤ n ∧ n < daysBeforeYear (yearOfDay n + 1) := by
  have hsum : n = 146097 * (n / 146097) + n % 146097 := by omega
  have hlt : n % 146097 < 146097 := by omega
  unfold yearOfDay
  generalize n / 146097 = era at *
  generalize n % 146097 = inEra at *
  simp only
  -- Each cycle counts what the larger cycles leave of the day.
  have hcent : min (inEra / 36524) 3 ≤ 3 ∧ 36524 * min (inEra / 36524) 3 ≤ inEra ∧
      (min (inEra / 36524) 3 < 3 → inEra < 36524 * min (inEra / 36524) 3 + 36524) := by omega
  generalize min (inEra / 36524) 3 = century at *
  obtain ⟨hc3, hcle, hclt⟩ := hcent
  have hsum' : inEra = 36524 * century + (inEra - 36524 * century) := by omega
  generalize inEra - 36524 * century = inCentury at *
  have hcyc : inCentury = 1461 * (inCentury / 1461) + inCentury % 1461 := by omega
  have hcl : inCentury % 1461 < 1461 := by omega
  generalize inCentury / 1461 = cycle at *
  generalize inCentury % 1461 = inCycle at *
  have hyr : min (inCycle / 365) 3 ≤ 3 ∧ 365 * min (inCycle / 365) 3 ≤ inCycle ∧
      (min (inCycle / 365) 3 < 3 → inCycle < 365 * min (inCycle / 365) 3 + 365) := by omega
  generalize min (inCycle / 365) 3 = year at *
  obtain ⟨hy3, hyle, hylt⟩ := hyr
  have hq : cycle ≤ 24 := by omega
  constructor
  · rw [daysBeforeYear_cycles era century cycle year hc3 hq hy3]
    omega
  · -- The next year may open the next cycle, century or era.
    by_cases hy : year < 3
    · rw [Nat.add_assoc, daysBeforeYear_cycles era century cycle (year + 1) hc3 hq hy]
      omega
    · have : year = 3 := by omega
      subst this
      by_cases hq24 : cycle < 24
      · have : 400 * era + 100 * century + 4 * cycle + 3 + 1 =
            400 * era + 100 * century + 4 * (cycle + 1) + 0 := by omega
        rw [this, daysBeforeYear_cycles era century (cycle + 1) 0 hc3 hq24 (by omega)]
        omega
      · have : cycle = 24 := by omega
        subst this
        by_cases hc : century < 3
        · have : 400 * era + 100 * century + 4 * 24 + 3 + 1 =
              400 * era + 100 * (century + 1) + 4 * 0 + 0 := by omega
          rw [this, daysBeforeYear_cycles era (century + 1) 0 0 hc (by omega) (by omega)]
          omega
        · have : century = 3 := by omega
          subst this
          have : 400 * era + 100 * 3 + 4 * 24 + 3 + 1 =
              400 * (era + 1) + 100 * 0 + 4 * 0 + 0 := by omega
          rw [this, daysBeforeYear_cycles (era + 1) 0 0 0 (by omega) (by omega) (by omega)]
          omega

end Calendar
end Cadence
