/-!
# Weekday — days of the week and their two numberings

- `Weekday.position`: Monday first, 0 to 6, the order in which weekdays are listed
- `Weekday.code`: Sunday first, 1 to 7, the number that stored rules use
- `Weekday.sorted`: the distinct members of a list, Monday first
-/

namespace Cadence
namespace Calendar

inductive Weekday
  | monday
  | tuesday
  | wednesday
  | thursday
  | friday
  | saturday
  | sunday
  deriving DecidableEq, Repr

namespace Weekday

def all : List Weekday :=
  [monday, tuesday, wednesday, thursday, friday, saturday, sunday]

theorem mem_all (w : Weekday) : w ∈ all := by cases w <;> decide

/-! ## Numberings -/

def position : Weekday → Nat
  | monday => 0
  | tuesday => 1
  | wednesday => 2
  | thursday => 3
  | friday => 4
  | saturday => 5
  | sunday => 6

theorem position_lt (w : Weekday) : w.position < 7 := by cases w <;> decide

def ofPosition? (n : Int) : Option Weekday :=
  all.find? fun w => (w.position : Int) == n

/-- The weekday `n` days after a Monday. -/
def afterMonday (n : Nat) : Weekday :=
  match n % 7 with
  | 0 => monday
  | 1 => tuesday
  | 2 => wednesday
  | 3 => thursday
  | 4 => friday
  | 5 => saturday
  | _ => sunday

theorem position_afterMonday (n : Nat) : (afterMonday n).position = n % 7 := by
  have h : n % 7 < 7 := Nat.mod_lt _ (by decide)
  unfold afterMonday
  generalize n % 7 = r at *
  match r, h with
  | 0, _ | 1, _ | 2, _ | 3, _ | 4, _ | 5, _ | 6, _ => rfl

/-- Codes run from Sunday, 1, to Saturday, 7. -/
def code (w : Weekday) : Nat := (w.position + 1) % 7 + 1

def ofCode? (n : Int) : Option Weekday :=
  all.find? fun w => (w.code : Int) == n

theorem ofCode?_code (w : Weekday) : ofCode? w.code = some w := by cases w <;> decide

theorem position_inj {v w : Weekday} (h : v.position = w.position) : v = w := by
  cases v <;> cases w <;> first | rfl | cases h

/-! ## Names -/

/-- Full name in lower case. -/
def name : Weekday → String
  | monday => "monday"
  | tuesday => "tuesday"
  | wednesday => "wednesday"
  | thursday => "thursday"
  | friday => "friday"
  | saturday => "saturday"
  | sunday => "sunday"

def capitals (w : Weekday) : String := w.name.map Char.toUpper

/-- The first three letters. -/
def label (w : Weekday) : String := String.ofList (w.name.toList.take 3)

/-! ## Sorted weekdays -/

/-- Distinct members of `ws`, Monday first. -/
def sorted (ws : List Weekday) : List Weekday := all.filter (ws.contains ·)

theorem mem_sorted {ws : List Weekday} {w : Weekday} : w ∈ sorted ws ↔ w ∈ ws := by
  simp [sorted, mem_all]

/-- Strictly ascending positions. -/
def Ascending (ws : List Weekday) : Prop := ws.Pairwise (·.position < ·.position)

instance (ws : List Weekday) : Decidable (Ascending ws) :=
  inferInstanceAs (Decidable (ws.Pairwise _))

theorem ascending_all : Ascending all := by decide

theorem ascending_sorted (ws : List Weekday) : Ascending (sorted ws) :=
  List.Pairwise.filter _ ascending_all

end Weekday

end Calendar
end Cadence
