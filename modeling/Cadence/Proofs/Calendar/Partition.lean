import Mathlib.Logic.ExistsUnique
import Cadence.Calendar.Week
import Cadence.Proofs.Calendar.Chain
import Cadence.Proofs.Calendar.Week

/-!
# Partition — calendar weeks part the dates

For each first weekday every date lies in one week. The week is there unless one of its ends lies
outside the calendar, and then it is missing for all dates in it. It is found by a step back to its
first day and one on to its last, so such an end shows as a step that fails.

- `WeekAround`: the number of the first day of the week around a date, be it in the calendar or not
- `Moment.weekWindow_eq_ok_iff`, `Moment.weekWindow_eq_error_iff`: the week by steps is the week by
  the numbers of its dates
- `weeks_partition_dates`: weeks and the dates in them
-/

namespace Cadence
namespace Calendar

/-! ## Week starts by their numbers -/

/-- Day number `start` begins the week around a date, for weeks that begin on the weekday at
position `firstWeekday` modulo 7. Day number 1 is a Monday. -/
structure WeekAround (d : Date) (firstWeekday start : Int) : Prop where
  weekday : (start - 1) % 7 = firstWeekday % 7
  start_le : start ≤ d.ordinal
  le_end : (d.ordinal : Int) ≤ start + 6

theorem weekAround_iff {d : Date} {firstWeekday start : Int} :
    WeekAround d firstWeekday start ↔ start = d.weekStart firstWeekday + 1 := by
  have hordinal := d.ordinal_eq
  constructor
  · rintro ⟨hweekday, hstart, hend⟩
    have hbegin := (Date.weekStart_eq_iff (d := d) hweekday).2 (by omega)
    omega
  · rintro rfl
    have hemod := d.weekStart_emod firstWeekday
    rcases d.weekStart_bounds firstWeekday with ⟨hstart, hend⟩
    exact ⟨by omega, by omega, by omega⟩

theorem not_wholeWeek_iff {start : Int} :
    ¬WholeWeek start ↔ start + 1 < Date.first.ordinal ∨
      (Date.last.ordinal : Int) < start + 1 + 6 := by
  have hfirst : Date.first.ordinal = 1 := Date.first.ordinal_eq
  have hlast : Date.last.ordinal = 3652059 := Date.last.ordinal_eq
  have hcount : dayCount = 3652059 := rfl
  unfold WholeWeek
  omega

/-! ## Weeks by steps -/

namespace Moment

variable {m : Moment} {firstWeekday : Int} {week : Window}

theorem weekWindow_of_week? (h : m.date.week? firstWeekday = some week) :
    m.weekWindow firstWeekday = .ok week := by
  rcases Date.serial_of_week? h with ⟨hfirst, hlast⟩
  have hback : Moment.step { date := m.date } .day
    (-(((m.date.weekday.position : Int) - firstWeekday) % 7)) =
      .ok { date := week.first } := step_day_eq_ok_iff.2 ⟨hfirst, rfl⟩
  have hon : Moment.step { date := week.first } .day 6 = .ok { date := week.last } :=
    step_day_eq_ok_iff.2 ⟨by rw [hfirst, hlast], rfl⟩
  have hwindow : Window.between? { date := week.first } { date := week.last } = .ok week :=
    dif_pos week.first_le_last
  rw [weekWindow, bind_of_ok (mapError_eq_ok_iff.2 hback), bind_of_ok (mapError_eq_ok_iff.2 hon)]
  exact mapError_eq_ok_iff.2 hwindow

/-- The step back fails when the week begins before the calendar, and the step on when it ends after
it. -/
theorem weekWindow_of_broken (h : m.date.week? firstWeekday = none) :
    m.weekWindow firstWeekday = .error (.step .dateOutOfRange) := by
  cases hback : Moment.step { date := m.date } .day
    (-(((m.date.weekday.position : Int) - firstWeekday) % 7)) with
  | error why =>
    rw [(overflows_of_step_day hback).eq_dateOutOfRange (by omega)] at hback
    exact bind_of_error (mapError_of_error hback)
  | ok first =>
    rw [weekWindow, bind_of_ok (mapError_eq_ok_iff.2 hback)]
    cases hon : first.step .day 6 with
    | error why =>
      cases (overflows_of_step_day hon).eq_dateOutOfRange (by decide)
      rfl
    | ok last =>
      -- Both steps lead to dates, so the week lies in the calendar.
      have hfirst : (first.date.serial : Int) = m.date.weekStart firstWeekday :=
        (step_day_eq_ok_iff.1 hback).1
      have hlast := (step_day_eq_ok_iff.1 hon).1
      have hlt := last.date.serial_lt
      exact absurd ⟨by omega, by omega⟩ (Date.week?_eq_none_iff.1 h)

theorem weekWindow_eq_ok_iff :
    m.weekWindow firstWeekday = .ok week ↔ m.date.week? firstWeekday = some week := by
  cases hweek : m.date.week? firstWeekday with
  | none =>
    rw [weekWindow_of_broken hweek]
    exact iff_of_false nofun nofun
  | some other =>
    rw [weekWindow_of_week? hweek, Except.ok.injEq, Option.some.injEq]

theorem weekWindow_eq_error_iff {e : WeekError} :
    m.weekWindow firstWeekday = .error e ↔
      e = .step .dateOutOfRange ∧ m.date.week? firstWeekday = none := by
  cases hweek : m.date.week? firstWeekday with
  | none =>
    rw [weekWindow_of_broken hweek, Except.error.injEq, eq_comm, and_iff_left rfl]
  | some other =>
    rw [weekWindow_of_week? hweek]
    exact iff_of_false nofun fun h => Option.some_ne_none _ h.2

end Moment

/-! ## Weeks and their dates -/

namespace Date

variable {d e : Date} {firstWeekday : Int} {week other : Window}

theorem contains_week_iff (h : d.week? firstWeekday = some week) :
    week.contains e = true ↔ e.weekStart firstWeekday = d.weekStart firstWeekday := by
  rw [Window.contains_iff, mem_week_iff h]

theorem days_of_week? (h : d.week? firstWeekday = some week) : week.days = 7 := by
  rcases serial_of_week? h with ⟨hfirst, hlast⟩
  unfold Window.days
  omega

theorem first_weekday_of_week? (h : d.week? firstWeekday = some week) :
    (week.first.weekday.position : Int) = firstWeekday % 7 := by
  have hfirst := (serial_of_week? h).1
  have hemod := d.weekStart_emod firstWeekday
  rw [weekday_position]
  omega

/-- All dates of a week have the same week. -/
theorem week?_of_contains (h : d.week? firstWeekday = some week) (he : week.contains e = true) :
    e.week? firstWeekday = some week := by
  rw [week?_eq_some_iff, (contains_week_iff h).1 he]
  exact serial_of_week? h

theorem week_eq_or_disjoint (h : d.week? firstWeekday = some week)
    (hother : e.week? firstWeekday = some other) :
    other = week ∨ ∀ c : Date, ¬(week.contains c = true ∧ other.contains c = true) := by
  by_cases hcommon : ∃ c, week.contains c = true ∧ other.contains c = true
  · rcases hcommon with ⟨c, hc, hc'⟩
    have hweek := week?_of_contains h hc
    rw [week?_of_contains hother hc'] at hweek
    exact .inl (Option.some.inj hweek)
  · exact .inr fun c hc => hcommon ⟨c, hc⟩

end Date

/-- There is one week around every date. It is found unless its first or its last day lies outside
the calendar, and then by no other failure than that of a step. A week that is found has seven days,
the date among them, begins on its first weekday, and is the week of all its dates. So two weeks
with the same first weekday have all their dates in common or none. -/
theorem weeks_partition_dates (m : Moment) (firstWeekday : Int) :
    (∃! start, WeekAround m.date firstWeekday start) ∧
      (∀ start e, WeekAround m.date firstWeekday start →
        (m.weekWindow firstWeekday = .error e ↔
          e = .step .dateOutOfRange ∧ (start < Date.first.ordinal ∨
            (Date.last.ordinal : Int) < start + 6))) ∧
      (∀ week, m.date.week? firstWeekday = some week ↔ m.weekWindow firstWeekday = .ok week) ∧
      ∀ week, m.weekWindow firstWeekday = .ok week →
        week.days = 7 ∧ week.contains m.date = true ∧
          (week.first.weekday.position : Int) = firstWeekday % 7 ∧
          (∀ u : Moment, week.contains u.date = true → u.weekWindow firstWeekday = .ok week) ∧
          ∀ (u : Moment) (other : Window), u.weekWindow firstWeekday = .ok other →
            other = week ∨ ∀ d : Date, ¬(week.contains d = true ∧ other.contains d = true) := by
  refine ⟨⟨_, weekAround_iff.2 rfl, fun _ => weekAround_iff.1⟩, ?_,
    fun _ => Moment.weekWindow_eq_ok_iff.symm, ?_⟩
  · rintro start e hstart
    rw [Moment.weekWindow_eq_error_iff, Date.week?_eq_none_iff, not_wholeWeek_iff,
      weekAround_iff.1 hstart]
  · intro week h
    have hweek := Moment.weekWindow_eq_ok_iff.1 h
    refine ⟨Date.days_of_week? hweek, (Date.contains_week_iff hweek).2 rfl,
      Date.first_weekday_of_week? hweek, ?_, ?_⟩
    · intro u hu
      exact Moment.weekWindow_eq_ok_iff.2 (Date.week?_of_contains hweek hu)
    · intro u other hother
      exact Date.week_eq_or_disjoint hweek (Moment.weekWindow_eq_ok_iff.1 hother)

theorem lastSaturday_lt : dayCount - 7 < dayCount := by decide

/-- 9999-12-25. -/
def lastSaturday : Date := ⟨dayCount - 7, lastSaturday_lt⟩

theorem lastSaturday_le_last : lastSaturday ≤ .last := by decide

/-- From the last Saturday of the calendar to its last day. -/
def lastWeek : Window := ⟨lastSaturday, .last, lastSaturday_le_last⟩

theorem earlierSaturday_lt : dayCount - 14 < dayCount := by decide

theorem earlierSaturday_le :
    (⟨dayCount - 14, earlierSaturday_lt⟩ : Date) ≤ weekBeforeLastSecond.date := by decide

/-- The seven days before that. -/
def weekBeforeLast : Window :=
  ⟨⟨dayCount - 14, earlierSaturday_lt⟩, weekBeforeLastSecond.date, earlierSaturday_le⟩

/-- The last day of the calendar is a Friday. So it ends a week that begins on a Saturday, and it
has no week that begins on a Monday. -/
theorem weeks_partition_dates_at_calendar_end :
    lastSecond.weekWindow (-2) = .ok lastWeek ∧ lastWeek.days = 7 ∧ lastWeek.contains .last = true ∧
      lastSaturday.weekday = .saturday ∧
      lastWeek.contains (Date.last.withDay 27) = true ∧
      Moment.weekWindow { date := Date.last.withDay 27 } (-2) = .ok lastWeek ∧
      weekBeforeLastSecond.weekWindow (-2) = .ok weekBeforeLast ∧
      (∀ d : Date, ¬(lastWeek.contains d = true ∧ weekBeforeLast.contains d = true)) ∧
      WeekAround .last 0 3652055 ∧ lastSecond.weekWindow 0 = .error (.step .dateOutOfRange) := by
  have hlast : lastSecond.weekWindow (-2) = .ok lastWeek := toOption_eq_some (by decide +kernel)
  have hearlier : weekBeforeLastSecond.weekWindow (-2) = .ok weekBeforeLast :=
    toOption_eq_some (by decide +kernel)
  have hmember : lastWeek.contains (Date.last.withDay 27) = true := by decide +kernel
  have haround : WeekAround .last 0 3652055 := ⟨by decide, by decide +kernel, by decide +kernel⟩
  rcases weeks_partition_dates lastSecond (-2) with ⟨-, -, -, hfound⟩
  rcases hfound lastWeek hlast with ⟨hdays, hcontains, hweekday, hsame, hapart⟩
  have hsaturday : lastSaturday.weekday = .saturday := Weekday.position_inj (Int.ofNat.inj hweekday)
  have hdisjoint : ∀ d : Date, ¬(lastWeek.contains d = true ∧
      weekBeforeLast.contains d = true) := by
    rcases hapart _ _ hearlier with heq | hnone
    · exact absurd heq (by decide)
    · exact hnone
  rcases weeks_partition_dates lastSecond 0 with ⟨-, hfails, -, -⟩
  have hbroken := (hfails _ _ haround).2 ⟨rfl, .inr (by decide +kernel)⟩
  exact ⟨hlast, hdays, hcontains, hsaturday, hmember, hsame _ hmember, hearlier, hdisjoint, haround,
    hbroken⟩

end Calendar
end Cadence
