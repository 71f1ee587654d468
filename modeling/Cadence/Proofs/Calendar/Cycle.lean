import Mathlib.Algebra.GroupWithZero.Nat
import Cadence.Proofs.Calendar.Drift

/-!
# Cycle — month steps counted in days

Month steps go by years and months, day steps by numbers of days. From the first day of a month both
lead to the same date when the day step is as long as the months between. The calendar repeats
itself every 400 years, which are 4800 months and 146097 days, so over whole cycles the two agree
from every date; and a cycle is a whole number of weeks.

- `monthStart_add`: the days of several months in a row
- `monthStart_add_cycles`, `Date.serial_cycles_iff`: dates that are a number of cycles apart
- `monthsFrom`: months in a row, by year and number
- `month_steps_span_days`: month steps as day steps
-/

namespace Cadence
namespace Calendar

/-! ## Months in a row -/

theorem monthStart_add (i n : Nat) :
    monthStart (i + n) = monthStart i + ((List.range' i n).map monthSize).sum := by
  induction n generalizing i with
  | zero => rfl
  | succ n ih =>
    have hnext : i + (n + 1) = i + 1 + n := by omega
    rw [hnext, ih, monthStart_succ, List.range'_succ, List.map_cons, List.sum_cons]
    omega

/-- The years and numbers of `n` months in a row. January of the next year comes after December. -/
def monthsFrom (year number : Nat) : Nat → List (Nat × Nat)
  | 0 => []
  | n + 1 =>
    (year, number) :: if number = 12 then monthsFrom (year + 1) 1 n
    else monthsFrom year (number + 1) n

theorem monthsFrom_succ (i n : Nat) :
    monthsFrom (i / 12 + 1) (i % 12 + 1) (n + 1) =
      (i / 12 + 1, i % 12 + 1) :: monthsFrom ((i + 1) / 12 + 1) ((i + 1) % 12 + 1) n := by
  rw [monthsFrom]
  split
  · have hyear : (i + 1) / 12 = i / 12 + 1 := by omega
    have hnumber : (i + 1) % 12 = 0 := by omega
    rw [hyear, hnumber]
  · have hyear : (i + 1) / 12 = i / 12 := by omega
    have hnumber : (i + 1) % 12 = i % 12 + 1 := by omega
    rw [hyear, hnumber]

theorem daysInMonth_eq (i : Nat) :
    daysInMonth ((i / 12 + 1 : Nat) : Int) ((i % 12 + 1 : Nat) : Int) = .ok (monthSize i) := by
  unfold daysInMonth
  rw [if_pos (by omega)]
  rfl

theorem mapM_daysInMonth (i n : Nat) :
    (monthsFrom (i / 12 + 1) (i % 12 + 1) n).mapM (fun month => daysInMonth month.1 month.2) =
      .ok ((List.range' i n).map monthSize) := by
  induction n generalizing i with
  | zero => rfl
  | succ n ih =>
    rw [monthsFrom_succ, List.mapM_cons, daysInMonth_eq, ih, List.range'_succ]
    rfl

/-! ## Cycles of 400 years -/

theorem isLeap_add_cycles (year : Int) (q : Nat) : isLeap (year + 400 * q) = isLeap year := by
  have h4 : (year + 400 * q) % 4 = year % 4 := by omega
  have h100 : (year + 400 * q) % 100 = year % 100 := by omega
  have h400 : (year + 400 * q) % 400 = year % 400 := by omega
  rw [isLeap, h4, h100, h400, isLeap]

theorem monthLength_add_cycles (year : Int) (q month : Nat) :
    monthLength (year + 400 * q) month = monthLength year month := by
  simp only [monthLength, isLeap_add_cycles]

theorem daysBeforeMonth_add_cycles (year : Int) (q k : Nat) :
    daysBeforeMonth (year + 400 * q) k = daysBeforeMonth year k := by
  induction k with
  | zero => rfl
  | succ k ih => rw [daysBeforeMonth, daysBeforeMonth, ih, monthLength_add_cycles]

theorem daysBeforeYear_add_cycles (k q : Nat) :
    daysBeforeYear (k + 400 * q) = daysBeforeYear k + 146097 * q := by
  have h4 : (k + 400 * q) / 4 = k / 4 + 100 * q := by omega
  have h100 : (k + 400 * q) / 100 = k / 100 + 4 * q := by omega
  have h400 : (k + 400 * q) / 400 = k / 400 + q := by omega
  have hle : k / 100 ≤ k / 4 := by omega
  unfold daysBeforeYear
  rw [h4, h100, h400]
  omega

theorem yearOfMonth_add_cycles (i q : Nat) :
    yearOfMonth (i + 4800 * q) = yearOfMonth i + 400 * q := by
  have hyear : (i + 4800 * q) / 12 = i / 12 + 400 * q := by omega
  unfold yearOfMonth
  rw [hyear]
  omega

theorem monthSize_add_cycles (i q : Nat) : monthSize (i + 4800 * q) = monthSize i := by
  have hnumber : (i + 4800 * q) % 12 = i % 12 := by omega
  rw [monthSize, yearOfMonth_add_cycles, hnumber, monthLength_add_cycles, monthSize]

theorem monthStart_add_cycles (i q : Nat) :
    monthStart (i + 4800 * q) = monthStart i + 146097 * q := by
  have hyear : (i + 4800 * q) / 12 = i / 12 + 400 * q := by omega
  have hnumber : (i + 4800 * q) % 12 = i % 12 := by omega
  rw [monthStart, yearOfMonth_add_cycles, hyear, hnumber, daysBeforeYear_add_cycles,
    daysBeforeMonth_add_cycles, monthStart]
  omega

theorem monthOfDay_add_cycles (n q : Nat) :
    monthOfDay (n + 146097 * q) = monthOfDay n + 4800 * q := by
  rcases monthOfDay_bounds n with ⟨hlo, hhi⟩
  apply monthOfDay_eq
  · rw [monthStart_add_cycles]
    omega
  · rw [monthStart_add_cycles, monthSize_add_cycles]
    omega

namespace Date

variable {d e : Date}

theorem serial_add_cycles_iff {q : Nat} :
    e.serial = d.serial + 146097 * q ↔ e.month.index = d.month.index + 4800 * q ∧
      e.day = d.day := by
  have hd : d.serial + 1 = monthStart d.month.index + d.day := d.serial_eq
  have he : e.serial + 1 = monthStart e.month.index + e.day := e.serial_eq
  constructor
  · intro hserial
    have hmonth : e.month.index = d.month.index + 4800 * q := by
      show monthOfDay e.serial = monthOfDay d.serial + 4800 * q
      rw [hserial, monthOfDay_add_cycles]
    rw [hmonth, monthStart_add_cycles] at he
    exact ⟨hmonth, by omega⟩
  · rintro ⟨hmonth, hday⟩
    rw [hmonth, monthStart_add_cycles] at he
    omega

/-- Cycles may be counted back as well. -/
theorem serial_cycles_iff {q : Int} :
    (e.serial : Int) = d.serial + 146097 * q ↔
      (e.month.index : Int) = d.month.index + 4800 * q ∧ e.day = d.day := by
  rcases q.eq_nat_or_neg with ⟨k, rfl | rfl⟩
  · have hforth := serial_add_cycles_iff (d := d) (e := e) (q := k)
    omega
  · have hback := serial_add_cycles_iff (d := e) (e := d) (q := k)
    omega

theorem length_of_cycles {q : Int} (h : (e.month.index : Int) = d.month.index + 4800 * q) :
    e.month.length = d.month.length := by
  unfold Month.length
  rcases q.eq_nat_or_neg with ⟨k, rfl | rfl⟩
  · have hindex : e.month.index = d.month.index + 4800 * k := by omega
    rw [hindex, monthSize_add_cycles]
  · have hindex : d.month.index = e.month.index + 4800 * k := by omega
    rw [hindex, monthSize_add_cycles]

/-- The months of a cycle are as long as those of every other, so that no day is clamped on the way.
-/
theorem step_cycles_iff {q : Int} :
    d.step .month (4800 * q) = .ok e ↔ d.step .day (146097 * q) = .ok e := by
  rw [step_month_eq_ok_iff, step_day_eq_ok_iff, serial_cycles_iff]
  have hday := d.day_le
  constructor
  · rintro ⟨hmonth, hclamped⟩
    rw [length_of_cycles hmonth] at hclamped
    exact ⟨hmonth, by omega⟩
  · rintro ⟨hmonth, hsame⟩
    rw [length_of_cycles hmonth]
    exact ⟨hmonth, by omega⟩

theorem weekday_of_cycles {q : Int} (h : (e.serial : Int) = d.serial + 146097 * q) :
    e.weekday = d.weekday := by
  apply Weekday.position_inj
  rw [weekday_position, weekday_position]
  omega

end Date

/-! ## Month steps as day steps -/

namespace Moment

variable {m u : Moment}

theorem step_cycles_iff {q : Int} :
    m.step .month (4800 * q) = .ok u ↔ m.step .day (146097 * q) = .ok u := by
  rw [step_eq_ok_iff, step_eq_ok_iff, Date.step_cycles_iff]

/-- From the first day of a month to that of another, over all the days of the months between. -/
theorem step_day_of_first {n : Nat} (hday : m.date.day = 1) (h : m.step .month n = .ok u) :
    m.step .day (((List.range' m.date.month.index n).map monthSize).sum : Nat) = .ok u := by
  rcases step_month_eq_ok_iff.1 h with ⟨hmonth, hclamped, hclock⟩
  have hstart : m.date.serial + 1 = monthStart m.date.month.index + m.date.day := m.date.serial_eq
  have hend : u.date.serial + 1 = monthStart u.date.month.index + u.date.day := u.date.serial_eq
  have hindex : u.date.month.index = m.date.month.index + n := by omega
  have hpos := u.date.month.length_pos
  rw [hindex, monthStart_add] at hend
  exact step_day_eq_ok_iff.2 ⟨by omega, hclock⟩

end Moment

/-- From the first day of a month, a step by so many months, if the calendar has the month to step
to, is one by the days that these months have. From every date a step by 4800 months is one by
146097 days if one of the two is possible, and it leads to the same weekday. -/
theorem month_steps_span_days (m : Moment) :
    (∀ n : Nat, m.date.day = 1 → yearOfOrdinal (m.date.month.ordinal + n) ≤ 9999 →
        ∃ (lengths : List Nat) (u : Moment),
          (monthsFrom m.date.year m.date.month.number n).mapM
            (fun month => daysInMonth month.1 month.2) =
              .ok lengths ∧
            m.step .month n = .ok u ∧ m.step .day (lengths.sum : Nat) = .ok u) ∧
      ∀ u, (m.step .month 4800 = .ok u ↔ m.step .day 146097 = .ok u) ∧
        (m.step .month 4800 = .ok u → u.date.weekday = m.date.weekday) := by
  constructor
  · intro n hday hyear
    have hcount : monthCount = 119988 := rfl
    have hindex : m.date.month.index + n < monthCount := by
      rw [Month.ordinal_eq] at hyear
      unfold yearOfOrdinal at hyear
      omega
    rcases Date.exists_step_month hindex with ⟨e, he⟩
    have hstep : m.step .month n = .ok { m with date := e } := Moment.step_eq_ok_iff.2 ⟨he, rfl⟩
    exact ⟨_, _, mapM_daysInMonth m.date.month.index n, hstep, Moment.step_day_of_first hday hstep⟩
  · intro u
    have hcycle := Moment.step_cycles_iff (m := m) (u := u) (q := 1)
    refine ⟨hcycle, ?_⟩
    intro h
    exact Date.weekday_of_cycles (Moment.step_day_eq_ok_iff.1 (hcycle.1 h)).1

theorem leapWinter_lt : 3505931 < dayCount := by decide

theorem leapWinterEnd_lt : 3506022 < dayCount := by decide

/-- A second before midnight on 9599-12-01. The February after it is one of a leap century. -/
def leapWinter : Moment := ⟨⟨3505931, leapWinter_lt⟩, lastSecond.clock⟩

/-- The same time on 9600-03-01. -/
def leapWinterEnd : Moment := ⟨⟨3506022, leapWinterEnd_lt⟩, lastSecond.clock⟩

theorem earlierLeapDay_lt : 3504560 < dayCount := by decide

theorem lastLeapDay_lt : 3650657 < dayCount := by decide

/-- 9596-02-29. -/
def earlierLeapDay : Moment := ⟨⟨3504560, earlierLeapDay_lt⟩, none⟩

/-- 9996-02-29. -/
def lastLeapDay : Moment := ⟨⟨3650657, lastLeapDay_lt⟩, none⟩

/-- Three months over the end of a year and a leap day, and a cycle from one leap day to another,
both Thursdays. -/
theorem month_steps_span_days_over_leap_days :
    leapWinter.date.day = 1 ∧ yearOfOrdinal (leapWinter.date.month.ordinal + 3) ≤ 9999 ∧
      (monthsFrom 9599 12 3).mapM (fun month => daysInMonth month.1 month.2) = .ok [31, 31, 29] ∧
      leapWinter.step .month 3 = .ok leapWinterEnd ∧ leapWinter.step .day 91 = .ok leapWinterEnd ∧
      earlierLeapDay.step .month 4800 = .ok lastLeapDay ∧
        earlierLeapDay.step .day 146097 = .ok lastLeapDay ∧
      earlierLeapDay.date.weekday = .thursday ∧
        lastLeapDay.date.weekday = earlierLeapDay.date.weekday := by
  have hfirst : leapWinter.date.day = 1 := by decide +kernel
  have hyear : yearOfOrdinal (leapWinter.date.month.ordinal + 3) ≤ 9999 := by decide +kernel
  have hlengths : (monthsFrom 9599 12 3).mapM (fun month => daysInMonth month.1 month.2) =
    .ok [31, 31, 29] :=
    toOption_eq_some (by decide +kernel)
  have hfrom : leapWinter.date.year = 9599 ∧ leapWinter.date.month.number = 12 := by decide +kernel
  have hend : leapWinter.step .month 3 = .ok leapWinterEnd := toOption_eq_some (by decide +kernel)
  have hcycle : earlierLeapDay.step .month 4800 = .ok lastLeapDay :=
    toOption_eq_some (by decide +kernel)
  rcases month_steps_span_days leapWinter with ⟨hspan, -⟩
  rcases hspan 3 hfirst hyear with ⟨lengths, u, hmonths, hmonth, hdays⟩
  rw [hfrom.1, hfrom.2, hlengths] at hmonths
  cases hmonths
  cases hend.symm.trans hmonth
  rcases month_steps_span_days earlierLeapDay with ⟨-, hcycles⟩
  rcases hcycles lastLeapDay with ⟨hsame, hweekday⟩
  exact ⟨hfirst, hyear, hlengths, hend, hdays, hcycle, hsame.1 hcycle,
    by decide +kernel, hweekday hcycle⟩

end Calendar
end Cadence
