import Mathlib.Data.List.Basic
import Cadence.Calendar.Step

/-!
# Week — windows date by date, and calendar weeks as residue classes

Two dates share a calendar week exactly when their weeks start on the same day. This turns questions
about weeks into questions about the numbers `Date.weekStart`.

- `Window.dates`, `Window.onWeekdays`: the dates of a window, and those on some weekdays
- `Window.mem_dates`, `Window.pairwise_dates`: a window lists its dates once each, in ascending
  order
- `Window.dates_append`, `Window.length_dates`: the dates of adjacent windows, and how many a window
  has
- `Date.weekStart`, `Date.week?`: the first day of a week by its number, and the week if there is
  one
- `WholeWeek`: seven days that all lie in the calendar
- `Date.week?_eq_some_iff`, `Date.mem_week_iff`: the week around a date, and its dates
-/

namespace Cadence
namespace Calendar

/-! ## Dates of a window -/

namespace Window

def dates (w : Window) : List Date :=
  (List.range' w.first.serial w.days).filterMap fun n : Nat => Date.ofSerial? n

/-- Dates of the window whose weekday has one of the given positions, counted from Monday, 0. -/
def onWeekdays (w : Window) (positions : List Int) : List Date :=
  w.dates.filter fun d => positions.contains (d.weekday.position : Int)

theorem contains_iff {w : Window} {d : Date} : w.contains d = true ↔ w.first ≤ d ∧ d ≤ w.last := by
  rw [contains, Bool.and_eq_true, decide_eq_true_eq, decide_eq_true_eq]

theorem mem_dates {w : Window} {d : Date} : d ∈ w.dates ↔ w.first ≤ d ∧ d ≤ w.last := by
  have hle : w.first.serial ≤ w.last.serial := w.first_le_last
  simp only [dates, days, List.mem_filterMap, List.mem_range'_1, Date.ofSerial?_eq_some_iff,
    Date.le_iff]
  constructor
  · rintro ⟨n, hn, hd⟩
    omega
  · intro h
    exact ⟨d.serial, by omega, rfl⟩

theorem pairwise_dates (w : Window) : w.dates.Pairwise (· < ·) := by
  refine List.Pairwise.filterMap (R := (· < ·)) _ ?_ List.pairwise_lt_range'
  intro m n hmn d hd e he
  have hdm := Date.ofSerial?_eq_some_iff.1 hd
  have hen := Date.ofSerial?_eq_some_iff.1 he
  exact Date.lt_iff.2 (by omega)

theorem dates_append {u v w : Window} (hfirst : u.first = w.first) (hlast : v.last = w.last)
    (hnext : v.first.serial = u.last.serial + 1) : w.dates = u.dates ++ v.dates := by
  have hu : u.first.serial ≤ u.last.serial := u.first_le_last
  have hv : v.first.serial ≤ v.last.serial := v.first_le_last
  have hdays : w.days = u.days + v.days := by
    unfold days
    rw [← hfirst, ← hlast]
    omega
  have hstart : v.first.serial = u.first.serial + u.days := by
    unfold days
    omega
  rw [dates, dates, dates, ← List.filterMap_append, hstart, ← hfirst, hdays, List.range'_append_1]

/-- The dates of a window have its day numbers, one after the other. -/
theorem map_serial_dates (w : Window) :
    w.dates.map Date.serial = List.range' w.first.serial w.days := by
  have hle : w.first.serial ≤ w.last.serial := w.first_le_last
  have hlt := w.last.serial_lt
  have hall : ∀ n ∈ List.range' w.first.serial w.days,
      (Date.ofSerial? (n : Nat)).map Date.serial = some n := by
    intro n hn
    rw [List.mem_range'_1, days] at hn
    have hdate : Date.ofSerial? (n : Nat) = some ⟨n, by omega⟩ := Date.ofSerial?_eq_some_iff.2 rfl
    rw [hdate]
    rfl
  rw [dates, List.map_filterMap, List.filterMap_congr hall, List.filterMap_some]

theorem length_dates (w : Window) : w.dates.length = w.days := by
  have hserials := congrArg List.length w.map_serial_dates
  rwa [List.length_map, List.length_range'] at hserials

theorem eq_of_ends {v w : Window} (hfirst : v.first = w.first) (hlast : v.last = w.last) :
    v = w := by
  cases v
  cases w
  cases hfirst
  cases hlast
  rfl

theorem mem_onWeekdays_iff {w : Window} {positions : List Int} {d : Date} :
    d ∈ w.onWeekdays positions ↔ (w.first ≤ d ∧ d ≤ w.last) ∧
      (d.weekday.position : Int) ∈ positions := by
  rw [onWeekdays, List.mem_filter, mem_dates, List.contains_iff_mem]

theorem mem_onWeekdays {w : Window} {days : List Weekday} {d : Date} :
    d ∈ w.onWeekdays ((days.map Weekday.position).map Int.ofNat) ↔
      (w.first ≤ d ∧ d ≤ w.last) ∧ d.weekday ∈ days := by
  rw [mem_onWeekdays_iff]
  refine and_congr_right fun _ => ?_
  simp only [List.map_map, List.mem_map, Function.comp_apply]
  constructor
  · rintro ⟨v, hv, hvd⟩
    have : v = d.weekday := Weekday.position_inj (Int.ofNat.inj hvd)
    exact this ▸ hv
  · intro hd
    exact ⟨d.weekday, hd, rfl⟩

theorem pairwise_onWeekdays (w : Window) (positions : List Int) :
    (w.onWeekdays positions).Pairwise (· < ·) :=
  List.Pairwise.filter _ w.pairwise_dates

end Window

/-! ## Week starts -/

/-- First day of the week around `d` that begins on the weekday at position `firstWeekday` modulo 7,
in days since 0001-01-01; it may lie before that. -/
def Date.weekStart (d : Date) (firstWeekday : Int) : Int :=
  (d.serial : Int) - ((d.weekday.position : Int) - firstWeekday) % 7

/-- That week, if all of it lies in the calendar. -/
def Date.week? (d : Date) (firstWeekday : Int) : Option Window :=
  if h : 0 ≤ d.weekStart firstWeekday ∧ d.weekStart firstWeekday + 6 < dayCount then
    some
      { first := ⟨(d.weekStart firstWeekday).toNat, by omega⟩
        last := ⟨(d.weekStart firstWeekday + 6).toNat, by omega⟩
        first_le_last := by
          show (d.weekStart firstWeekday).toNat ≤ (d.weekStart firstWeekday + 6).toNat
          omega }
  else none

/-- The seven days from day `n` on, counted from 0001-01-01, all lie in the calendar. -/
def WholeWeek (n : Int) : Prop := 0 ≤ n ∧ n + 6 < dayCount

instance (n : Int) : Decidable (WholeWeek n) := inferInstanceAs (Decidable (_ ∧ _))

namespace Date

theorem weekStart_bounds (d : Date) (n : Int) :
    d.weekStart n ≤ d.serial ∧ (d.serial : Int) ≤ d.weekStart n + 6 := by
  unfold weekStart
  omega

/-- A week starts on its first weekday, day 0 being a Monday. -/
theorem weekStart_emod (d : Date) (n : Int) : d.weekStart n % 7 = n % 7 := by
  have hpos := d.weekday_position
  unfold weekStart
  omega

theorem weekStart_eq_iff {d : Date} {n start : Int} (hstart : start % 7 = n % 7) :
    d.weekStart n = start ↔ start ≤ d.serial ∧ (d.serial : Int) ≤ start + 6 := by
  have hb := d.weekStart_bounds n
  have hm := d.weekStart_emod n
  constructor
  · intro h
    omega
  · intro h
    omega

theorem weekStart_mono {d e : Date} (n : Int) (h : d ≤ e) : d.weekStart n ≤ e.weekStart n := by
  -- Week starts are seven days apart, so one that is later is later by a week.
  have hd := d.weekStart_bounds n
  have he := e.weekStart_bounds n
  have hdm := d.weekStart_emod n
  have hem := e.weekStart_emod n
  have := le_iff.1 h
  omega

/-- A week begins no later than any date that is not before one of its dates. -/
theorem weekStart_le_of_le {d e : Date} (n : Int) (h : d ≤ e) : d.weekStart n ≤ e.serial := by
  have hd := (d.weekStart_bounds n).1
  have hle := le_iff.1 h
  omega

theorem weekStart_add_weeks {d e : Date} {m : Int} (n : Int)
    (h : (e.serial : Int) = d.serial + 7 * m) : e.weekStart n = d.weekStart n + 7 * m := by
  have hd := d.weekStart_bounds n
  have hm := d.weekStart_emod n
  exact (weekStart_eq_iff (by omega)).2 (by omega)

/-! ## The week around a date -/

theorem week?_eq_none_iff {d : Date} {n : Int} :
    d.week? n = none ↔ ¬ WholeWeek (d.weekStart n) := by
  unfold week?
  split
  · rename_i h
    exact iff_of_false (Option.some_ne_none _) (fun hn => hn h)
  · rename_i h
    exact iff_of_true rfl h

theorem serial_of_week? {d : Date} {n : Int} {week : Window} (h : d.week? n = some week) :
    (week.first.serial : Int) = d.weekStart n ∧ (week.last.serial : Int) = d.weekStart n + 6 := by
  unfold week? at h
  split at h
  · cases h
    simp only
    omega
  · cases h

theorem week?_eq_some_iff {d : Date} {n : Int} {week : Window} :
    d.week? n = some week ↔
      (week.first.serial : Int) = d.weekStart n ∧ (week.last.serial : Int) = d.weekStart n + 6 := by
  constructor
  · exact serial_of_week?
  · rintro ⟨hfirst, hlast⟩
    have hwhole : WholeWeek (d.weekStart n) := by
      have := week.last.serial_lt
      exact ⟨by omega, by omega⟩
    obtain ⟨other, hother⟩ := Option.ne_none_iff_exists'.1 fun hn => week?_eq_none_iff.1 hn hwhole
    rcases serial_of_week? hother with ⟨hfirst', hlast'⟩
    have hsame : other = week := Window.eq_of_ends (ext_serial (by omega)) (ext_serial (by omega))
    rw [hother, hsame]

theorem mem_week_iff {d e : Date} {n : Int} {week : Window} (h : d.week? n = some week) :
    week.first ≤ e ∧ e ≤ week.last ↔ e.weekStart n = d.weekStart n := by
  rcases serial_of_week? h with ⟨hfirst, hlast⟩
  rw [weekStart_eq_iff (d.weekStart_emod n), le_iff, le_iff]
  omega

end Date

end Calendar
end Cadence
