import Cadence.Calendar.Month
import Cadence.Calendar.Weekday

/-!
# Date — days of the years 1 to 9999

A date is its distance from 0001-01-01, a Monday. Year, month and day of the month are views of that
number, so day arithmetic and comparison are arithmetic and comparison of naturals.

- `Date.first`, `Date.last`: the ends of the calendar
- `Date.month`, `Date.day`: the month that holds a date, and its place there
- `Month.at`: the date at a place of a month, clamped to the month
- `Date.ofCivil?`: the date that a year, a month number and a day name, if any
-/

namespace Cadence
namespace Calendar

/-- A date, as days since 0001-01-01. -/
structure Date where
  serial : Nat
  serial_lt : serial < dayCount
  deriving DecidableEq, Repr

theorem dayCount_pos : 0 < dayCount := by decide

theorem dayCount_pred_lt : dayCount - 1 < dayCount := by decide

/-- 0001-01-01. -/
def Date.first : Date := ⟨0, dayCount_pos⟩

/-- 9999-12-31. -/
def Date.last : Date := ⟨dayCount - 1, dayCount_pred_lt⟩

namespace Date

theorem ext_serial {d e : Date} (h : d.serial = e.serial) : d = e := by
  cases d; cases e; cases h; rfl

def ofSerial? (n : Int) : Option Date :=
  if h : 0 ≤ n ∧ n < dayCount then some ⟨n.toNat, by omega⟩ else none

theorem ofSerial?_eq_some_iff {n : Int} {d : Date} :
    ofSerial? n = some d ↔ (d.serial : Int) = n := by
  obtain ⟨k, hk⟩ := d
  unfold ofSerial?
  split
  · simp only [Option.some.injEq, mk.injEq]
    omega
  · simp only [reduceCtorEq, false_iff]
    omega

/-! ## Order -/

instance : LE Date := ⟨fun d e => d.serial ≤ e.serial⟩
instance : LT Date := ⟨fun d e => d.serial < e.serial⟩

instance (d e : Date) : Decidable (d ≤ e) := inferInstanceAs (Decidable (d.serial ≤ e.serial))
instance (d e : Date) : Decidable (d < e) := inferInstanceAs (Decidable (d.serial < e.serial))

theorem le_iff {d e : Date} : d ≤ e ↔ d.serial ≤ e.serial := Iff.rfl
theorem lt_iff {d e : Date} : d < e ↔ d.serial < e.serial := Iff.rfl

/-! ## Views -/

def weekday (d : Date) : Weekday := Weekday.afterMonday d.serial

theorem weekday_position (d : Date) : d.weekday.position = d.serial % 7 :=
  Weekday.position_afterMonday _

def month (d : Date) : Month where
  index := monthOfDay d.serial
  index_lt := by
    have hlo := (monthOfDay_bounds d.serial).1
    have hd := d.serial_lt
    -- A month behind the last one would start behind the day.
    rw [← monthStart_monthCount] at hd
    apply Nat.lt_of_not_le
    intro h
    have := monthStart_mono h
    omega

def year (d : Date) : Nat := d.month.year

/-- Day of the month, from 1. -/
def day (d : Date) : Nat := d.serial - d.month.start + 1

theorem start_le_serial (d : Date) : d.month.start ≤ d.serial := (monthOfDay_bounds d.serial).1

theorem serial_eq (d : Date) : d.serial + 1 = d.month.start + d.day := by
  have := d.start_le_serial
  unfold day
  omega

theorem day_pos (d : Date) : 1 ≤ d.day := Nat.succ_pos _

theorem day_le (d : Date) : d.day ≤ d.month.length := by
  have h : d.serial < d.month.start + d.month.length := (monthOfDay_bounds d.serial).2
  have := d.start_le_serial
  unfold day
  omega

end Date

/-! ## Dates of a month -/

/-- The date of month `m` whose day is nearest to `day`. -/
def Month.at (m : Month) (day : Int) : Date where
  serial := m.start + (max 1 (min day m.length)).toNat - 1
  serial_lt := by
    have := m.length_pos
    have := m.start_add_length_le
    omega

namespace Date

theorem serial_at (m : Month) (day : Int) :
    (m.at day).serial + 1 = m.start + (max 1 (min day m.length)).toNat := by
  have := m.length_pos
  simp only [Month.at]
  omega

theorem month_at (m : Month) (day : Int) : (m.at day).month = m := by
  have hs := serial_at m day
  have hp := m.length_pos
  have h : monthOfDay (m.at day).serial = m.index :=
    monthOfDay_eq (show m.start ≤ _ by omega) (show _ < m.start + m.length by omega)
  cases m
  simp only [month, Month.mk.injEq]
  exact h

theorem day_at (m : Month) (day : Int) : ((m.at day).day : Int) = max 1 (min day m.length) := by
  have hs := serial_at m day
  have he := serial_eq (m.at day)
  rw [month_at] at he
  have := m.length_pos
  omega

theorem at_month_day (d : Date) : d.month.at d.day = d := by
  apply ext_serial
  have hs := serial_at d.month d.day
  have he := d.serial_eq
  have := d.day_pos
  have := d.day_le
  omega

theorem ext_month_day {d e : Date} (hm : d.month = e.month) (hd : d.day = e.day) : d = e := by
  have h : d.month.at d.day = e.month.at e.day := by rw [hm, hd]
  rwa [at_month_day, at_month_day] at h

/-- The date that a year, a month number and a day of the month name. -/
def ofCivil? (year month day : Nat) : Option Date :=
  if 1 ≤ month ∧ month ≤ 12 ∧ 1 ≤ day ∧ day ≤ monthLength year month then
    (Month.ofIndex? (12 * ((year : Int) - 1) + ((month : Int) - 1))).map (·.at day)
  else none

/-- The nearest date of the same month whose day is `day`. -/
def withDay (d : Date) (day : Int) : Date := d.month.at day

/-- Months from the month of `d` to that of `e`. -/
def monthsUntil (d e : Date) : Int := (e.month.index : Int) - d.month.index

end Date

end Calendar
end Cadence
