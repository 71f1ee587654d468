import Cadence.Rule.Loose
import Cadence.Schedule.Generate

/-!
# Loose — generation from rules with an odd index

Only a monthly rule uses its index. There an odd index above the length of a month gives the month's
last day, and a truth value or a one gives the first; any other names no day, and the generation
fails.
-/

namespace Cadence

open Calendar Schedule

/-- A floating-point index that a month is long enough for. -/
structure NoSuchDay where
  index : Rat
  deriving DecidableEq, Repr

/-- The same rule with another index. -/
def Rule.withIndex (r : Rule) (day : Nat) (h : 1 ≤ day ∧ day ≤ 31) : Rule :=
  { r with
    index := some day
    index_mem := fun i hi => by cases hi; exact h }

def LooseRule.generate (l : LooseRule) (w : Window) (filter : Option Window)
    (firstWeekday : Weekday) : Except NoSuchDay Run :=
  let on (r : Rule) : Run := r.generate w filter firstWeekday
  match l.odd with
  | none => .ok (on l.checked)
  | some odd =>
    if l.checked.period ≠ .month then .ok (on l.checked)
    else if odd.value = 1 then .ok (on (l.checked.withIndex 1 (by decide)))
    else if (visits l.checked w).dates.any fun d => odd.value ≤ (d.month.length : Rat) then
      .error ⟨odd.value⟩
    else .ok (on (l.checked.withIndex 31 (by decide)))

end Cadence
