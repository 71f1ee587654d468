import Cadence.Calendar.Window

/-!
# Step — moving a date by days, weeks or months

Day and week steps move by a number of days. A month step lands in the month that many months away,
on the same day of the month or on the last day when that month is shorter. A time of day stays.

- `Period`: the unit of a step, and its stored code
- `Date.addDays`, `Date.addMonths`, `Moment.step`: the steps
- `StepError`: the four ways a step can leave the supported range
-/

namespace Cadence
namespace Calendar

inductive Period
  | day
  | week
  | month
  deriving DecidableEq, Repr

namespace Period

def all : List Period := [day, week, month]

def code : Period → Nat
  | day => 0
  | week => 1
  | month => 2

def ofCode? (n : Int) : Option Period := all.find? fun p => (p.code : Int) == n

def label : Period → String
  | day => "day"
  | week => "week"
  | month => "month"

theorem ofCode?_code (p : Period) : ofCode? p.code = some p := by cases p <;> decide

end Period

/-! ## Failing steps -/

inductive StepError
  /-- A number of days that does not fit into 32 bits. -/
  | wideDayCount
  /-- A number of days that fits, and is beyond the longest span. -/
  | longSpan (days : Int)
  /-- A day outside the years 1 to 9999. -/
  | dateOutOfRange
  /-- A month outside the years 1 to 9999. -/
  | monthOutOfRange
  deriving DecidableEq, Repr

def StepError.message : StepError → String
  | wideDayCount => "Python int too large to convert to C int"
  | longSpan days => "days=" ++ toString days ++ "; must have magnitude <= 999999999"
  | dateOutOfRange => "date value out of range"
  | monthOutOfRange => "month arithmetic left the supported calendar range."

/-! ## Steps -/

namespace Date

def addDays (d : Date) (n : Int) : Except StepError Date :=
  -- The size of the step is looked at before the date that it leads to.
  if n < -2147483648 ∨ 2147483647 < n then .error .wideDayCount
  else if n < -999999999 ∨ 999999999 < n then .error (.longSpan n)
  else
    match ofSerial? (d.serial + n) with
    | some e => .ok e
    | none => .error .dateOutOfRange

theorem addDays_eq_ok_iff {d e : Date} {n : Int} :
    d.addDays n = .ok e ↔ (e.serial : Int) = d.serial + n := by
  -- Two dates of the calendar are closer to each other than any bound on steps.
  have : d.serial < 3652059 := d.serial_lt
  have : e.serial < 3652059 := e.serial_lt
  unfold addDays
  constructor
  · intro h
    split at h
    · cases h
    · split at h
      · cases h
      · split at h
        · cases h
          exact ofSerial?_eq_some_iff.1 (by assumption)
        · cases h
  · intro h
    rw [if_neg (by omega), if_neg (by omega), ofSerial?_eq_some_iff.2 h]

def addMonths (d : Date) (n : Int) : Except StepError Date :=
  match Month.ofIndex? (d.month.index + n) with
  | some m => .ok (m.at d.day)
  | none => .error .monthOutOfRange

theorem addMonths_eq_ok_iff {d e : Date} {n : Int} :
    d.addMonths n = .ok e ↔
      (e.month.index : Int) = d.month.index + n ∧ e.day = min d.day e.month.length := by
  unfold addMonths
  constructor
  · intro h
    split at h
    · rename_i m hm
      cases h
      have := day_at m d.day
      -- The day is at least 1, so only the length of the month clamps it.
      have := d.day_pos
      have := m.length_pos
      rw [month_at]
      exact ⟨Month.ofIndex?_eq_some_iff.1 hm, by omega⟩
    · cases h
  · intro h
    rw [Month.ofIndex?_eq_some_iff.2 h.1]
    have := day_at e.month d.day
    have := d.day_pos
    have := e.month.length_pos
    exact congrArg _ (ext_month_day (month_at _ _) (by omega))

def step (d : Date) : Period → Int → Except StepError Date
  | .day, n => d.addDays n
  | .week, n => d.addDays (7 * n)
  | .month, n => d.addMonths n

theorem step_day_eq_ok_iff {d e : Date} {n : Int} :
    d.step .day n = .ok e ↔ (e.serial : Int) = d.serial + n := by
  rw [step, addDays_eq_ok_iff]

theorem step_week_eq_ok_iff {d e : Date} {n : Int} :
    d.step .week n = .ok e ↔ (e.serial : Int) = d.serial + 7 * n := by
  rw [step, addDays_eq_ok_iff]

theorem step_month_eq_ok_iff {d e : Date} {n : Int} :
    d.step .month n = .ok e ↔
      (e.month.index : Int) = d.month.index + n ∧ e.day = min d.day e.month.length := by
  rw [step, addMonths_eq_ok_iff]

end Date

def Moment.step (m : Moment) (p : Period) (n : Int) : Except StepError Moment :=
  (m.date.step p n).map fun d => { m with date := d }

end Calendar
end Cadence
