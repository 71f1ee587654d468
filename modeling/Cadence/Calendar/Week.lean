import Cadence.Calendar.Step

/-!
# Week — the calendar week around a date

A week begins on a weekday of one's choice and is found by two steps: one back to its first day, and
one on to its last. Where the week leaves the calendar, one of the steps fails.

- `Moment.weekWindow`: the week
- `WeekError`: why there is none
-/

namespace Cadence
namespace Calendar

/-- Why no week is found: a step that fails, or a window that would end before it starts. -/
inductive WeekError
  | step (why : StepError)
  | window (why : WindowError)
  deriving DecidableEq, Repr

/-- The week around the date of a moment, for weeks that begin on the weekday at position
`firstWeekday` modulo 7: from the first day that a step back leads to, to the last one six days
later. -/
def Moment.weekWindow (m : Moment) (firstWeekday : Int) : Except WeekError Window := do
  let first ←
    (Moment.step { date := m.date } .day
      (-(((m.date.weekday.position : Int) - firstWeekday) % 7))).mapError .step
  let last ← (first.step .day 6).mapError .step
  (Window.between? first last).mapError .window

end Calendar
end Cadence
