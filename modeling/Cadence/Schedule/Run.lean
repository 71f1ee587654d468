import Cadence.Rule.Basic

/-!
# Run — the dates that a generation found, and why it ended early

- `Run`: dates in ascending order, and a reason when the calendar ran out
- `Run.warning?`: what is reported of a run that ended early
-/

namespace Cadence
namespace Schedule

open Calendar

/-! ## Reasons -/

/-- Why a generation stopped before the end of its window. -/
inductive Stop
  | noWeek (around : Date)
  | noStep (origin : Date) (count : Nat) (period : Period)
  deriving DecidableEq, Repr

def Stop.message : Stop → String
  | noWeek around => "no calendar week around " ++ around.iso
  | noStep origin count period =>
    "cannot step " ++ origin.iso ++ " by " ++ toString count ++ " " ++ period.label ++ "(s)"

/-! ## Runs -/

structure Run where
  dates : List Date
  stop : Option Stop
  deriving DecidableEq, Repr

namespace Run

def empty : Run := ⟨[], none⟩

/-- The same run with dates in front that were found before it. -/
def after (r : Run) (earlier : List Date) : Run := { r with dates := earlier ++ r.dates }

def select (r : Run) (keep : Date → Bool) : Run := { r with dates := r.dates.filter keep }

def warning? (r : Run) (period : Period) : Option String :=
  r.stop.map fun s =>
    "Stopped generating " ++ period.label ++ " recurrence after " ++ toString r.dates.length ++
      " dates: " ++ s.message

end Run

end Schedule
end Cadence
