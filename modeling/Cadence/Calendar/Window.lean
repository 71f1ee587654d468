import Cadence.Calendar.Moment

/-!
# Window — closed ranges of dates

- `Window.between?`: the window from one moment to another, by their dates
- `Window.contains`, `Window.days`: the dates in it, and their number
-/

namespace Cadence
namespace Calendar

structure Window where
  first : Date
  last : Date
  first_le_last : first ≤ last
  deriving DecidableEq, Repr

/-- A window that would end before it starts. -/
inductive WindowError
  | reversed
  deriving DecidableEq, Repr

def WindowError.message : WindowError → String
  | reversed => "window start must be on or before window end."

namespace Window

def between? (first last : Moment) : Except WindowError Window :=
  if h : first.date ≤ last.date then .ok ⟨first.date, last.date, h⟩ else .error .reversed

def contains (w : Window) (d : Date) : Bool := w.first ≤ d && d ≤ w.last

/-- Number of dates, at least one. -/
def days (w : Window) : Nat := w.last.serial - w.first.serial + 1

end Window

end Calendar
end Cadence
