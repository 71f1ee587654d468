import Cadence.Calendar.Scan
import Cadence.Calendar.Week
import Cadence.Schedule.Loop

/-!
# Generate — the dates of a rule inside a window

Each period has a loop of its own, which starts at the first date of the window. Every turn looks
whether the window reaches the next stride before it takes that stride. A day stride is a date
itself. A week stride stands for the calendar week around it, and a month stride for its month.

- `dayLoop`, `weekLoop`, `monthLoop`: the loops, turn by turn
- `daily`, `weekly`, `monthly`: the candidates of each period
- `Rule.generate`: those inside the window and the filter
-/

namespace Cadence
namespace Schedule

open Calendar

/-- Goes on from a date so many periods later, or stops when the calendar has no such date. -/
def moved (d : Date) (p : Period) (count : Nat) : Onward Date :=
  match d.step p count with
  | .ok e => .next e
  | .error _ => .stopped (.noStep d count p)

theorem step_of_moved {d e : Date} {p : Period} {count : Nat} (h : moved d p count = .next e) :
    d.step p count = .ok e := by
  unfold moved at h
  split at h <;> simp_all

/-! ## Days -/

def dayTurn (r : Rule) (w : Window) (cursor : Date) : Turn Date :=
  if cursor ≤ w.last then
    { found := [cursor]
      onward :=
        -- A step that would leave the window is never tried, so it cannot leave the calendar.
        if (w.last.serial : Int) - cursor.serial < r.frequency then .finished
        else moved cursor .day r.frequency }
  else ⟨[], .finished⟩

def dayLoop (r : Rule) (w : Window) : Loop Date where
  turn := dayTurn r w
  rank cursor := dayCount - cursor.serial
  rank_lt {cursor e _} h := by
    -- A stride leads to a later date, and the calendar has a last one.
    have := r.frequency_pos
    have := e.serial_lt
    unfold dayTurn at h
    split at h
    · simp only [Turn.mk.injEq] at h
      split at h
      · simp at h
      · have := Date.step_day_eq_ok_iff.1 (step_of_moved h.2)
        omega
    · simp at h

def daily (r : Rule) (w : Window) : Run := (dayLoop r w).run w.first

/-! ## Weeks -/

def weekTurn (r : Rule) (w : Window) (firstWeekday : Weekday) (cursor : Date) : Turn Date :=
  match Moment.weekWindow { date := cursor } firstWeekday.position with
  | .error _ => ⟨[], .stopped (.noWeek cursor)⟩
  | .ok week =>
    if week.first ≤ w.last then
      { found := week.scanned (r.positions.map Int.ofNat)
        onward :=
          -- The week's first day counts here, while the cursor keeps its own weekday.
          if (w.last.serial : Int) - week.first.serial < 7 * r.frequency then .finished
          else moved cursor .week r.frequency }
    else ⟨[], .finished⟩

def weekLoop (r : Rule) (w : Window) (firstWeekday : Weekday) : Loop Date where
  turn := weekTurn r w firstWeekday
  rank cursor := dayCount - cursor.serial
  rank_lt {cursor e _} h := by
    have := r.frequency_pos
    have := e.serial_lt
    unfold weekTurn at h
    split at h
    · simp at h
    · split at h
      · simp only [Turn.mk.injEq] at h
        split at h
        · simp at h
        · have := Date.step_week_eq_ok_iff.1 (step_of_moved h.2)
          omega
      · simp at h

def weekly (r : Rule) (w : Window) (firstWeekday : Weekday) : Run :=
  if r.days.isEmpty then .empty else (weekLoop r w firstWeekday).run w.first

/-! ## Months -/

/-- A visit to a month, so many months after the first. -/
structure Visit where
  offset : Nat
  cursor : Date
  deriving DecidableEq, Repr

theorem offset_of_map {o : Onward Date} {offset : Nat} {v : Visit}
    (h : o.map (⟨offset, ·⟩) = .next v) : v.offset = offset := by
  cases o <;> cases h
  rfl

/-- The next month is stepped to from the first date, so that a clamped day never carries over. -/
def monthTurn (r : Rule) (w : Window) (v : Visit) : Turn Visit :=
  if v.cursor ≤ w.last then
    { found := [v.cursor]
      onward :=
        if w.first.monthsUntil w.last < (v.offset + r.frequency : Nat) then .finished
        else (moved w.first .month (v.offset + r.frequency)).map (⟨v.offset + r.frequency, ·⟩) }
  else ⟨[], .finished⟩

def monthLoop (r : Rule) (w : Window) : Loop Visit where
  turn := monthTurn r w
  rank v := (w.first.monthsUntil w.last + 1 - v.offset).toNat
  rank_lt {v u _} h := by
    -- Offsets grow up to the window's last month.
    have := r.frequency_pos
    unfold monthTurn at h
    split at h
    · simp only [Turn.mk.injEq] at h
      split at h
      · simp at h
      · have := offset_of_map h.2
        omega
    · simp at h

/-- The dates that a monthly rule visits, one in each of its months. -/
def visits (r : Rule) (w : Window) : Run := (monthLoop r w).run ⟨0, w.first⟩

def monthly (r : Rule) (w : Window) : Run :=
  let day := r.index.getD w.first.day
  let run := visits r w
  { run with dates := run.dates.map (·.withDay day) }

end Schedule

open Calendar Schedule

/-! ## All periods -/

def Rule.candidates (r : Rule) (w : Window) (firstWeekday : Weekday) : Run :=
  match r.period with
  | .day => daily r w
  | .week => weekly r w firstWeekday
  | .month => monthly r w

/-- The dates of a rule that lie in the window, and in the filter when there is one. -/
def Rule.generate (r : Rule) (w : Window) (filter : Option Window) (firstWeekday : Weekday) : Run :=
  (r.candidates w firstWeekday).select fun d =>
    w.contains d && filter.all fun f => f.contains d

end Cadence
