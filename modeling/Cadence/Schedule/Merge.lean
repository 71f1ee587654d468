import Cadence.Schedule.Loose

/-!
# Merge — the dates of several rules in one list

Each date carries the place of its rule. Equal dates are listed in the order of their rules.

- `merge`: the dates of several runs
- `generateAll`: those of several rules, and what their generations warned of
-/

namespace Cadence
namespace Schedule

open Calendar

abbrev Occurrence := Date × Nat

/-- Date first, then the place of the rule. -/
def Occurrence.precedes (a b : Occurrence) : Bool :=
  a.1 < b.1 || (a.1 == b.1 && a.2 ≤ b.2)

def tagged (run : Run) (place : Nat) : List Occurrence := run.dates.map fun d => (d, place)

def merge (runs : List Run) : List Occurrence :=
  (runs.zipIdx.map fun (run, place) => tagged run place).foldr
    (fun xs ys => List.merge xs ys Occurrence.precedes) []

/-- The occurrences of several rules, and the warnings of their generations. -/
structure Merged where
  occurrences : List Occurrence
  warnings : List String
  deriving DecidableEq, Repr

/-- The runs of several rules, one after the other, and their warnings. The first rule that fails
ends this. -/
def generateEach (w : Window) (filter : Option Window) (firstWeekday : Weekday) :
    List LooseRule → Except NoSuchDay (List Run × List String)
  | [] => .ok ([], [])
  | l :: ls => do
    let run ← l.generate w filter firstWeekday
    let (runs, warnings) ← generateEach w filter firstWeekday ls
    return (run :: runs, (run.warning? l.checked.period).toList ++ warnings)

def generateAll (ls : List LooseRule) (w : Window) (filter : Option Window)
    (firstWeekday : Weekday) :
    Except NoSuchDay Merged := do
  let (runs, warnings) ← generateEach w filter firstWeekday ls
  return ⟨merge runs, warnings⟩

end Schedule
end Cadence
