import Cadence.Rule.Value

/-!
# Rule — how often a date recurs

A rule repeats every `frequency` days, weeks or months. A weekly rule names the weekdays it falls
on, a monthly rule may name a day of the month. Fields that a period has no use for are kept all the
same.

- `Rule`: a checked rule
- `Rule.build`: a rule from numbers that may be out of range
- `RuleError`: why fields do not make a rule
- `Summary`: what a rule says about its dates
-/

namespace Cadence

open Calendar

/-- A rule. Weekdays, when given, are distinct and listed Monday first. -/
structure Rule where
  frequency : Nat
  period : Period
  index : Option Nat
  weekdays : Option (List Weekday)
  frequency_pos : 1 ≤ frequency
  index_mem : ∀ i ∈ index, 1 ≤ i ∧ i ≤ 31
  weekdays_ascending : ∀ ws ∈ weekdays, Weekday.Ascending ws
  deriving DecidableEq, Repr

/-- Rules are told apart by their fields. -/
theorem Rule.eq_of_fields {r s : Rule} (hfrequency : r.frequency = s.frequency)
    (hperiod : r.period = s.period)
    (hindex : r.index = s.index) (hweekdays : r.weekdays = s.weekdays) : r = s := by
  rcases r with ⟨frequency, period, index, weekdays, _, _, _⟩
  rcases s with ⟨_, _, _, _, _, _, _⟩
  cases hfrequency
  cases hperiod
  cases hindex
  cases hweekdays
  rfl

/-! ## Fields that do not make a rule -/

inductive RuleError
  | frequencyNotInteger
  | frequencyTooSmall
  | unknownPeriod (given : Value)
  | indexOutOfRange
  | indexNotNumber
  | unknownWeekday (given : Value)
  | weekdaysNotList
  deriving Repr

/-- Says that a value belongs to no member of a kind, or else why it cannot say so. -/
def Value.unknown (given : Value) (kind : String) : String :=
  given.shown?.elim Value.overlong fun shown => shown ++ " is not a valid " ++ kind

def RuleError.message : RuleError → String
  | frequencyNotInteger => "frequency must be an integer."
  | frequencyTooSmall => "frequency must be at least 1."
  | unknownPeriod given => given.unknown "Period"
  | indexOutOfRange => "index must be between 1 and 31."
  | indexNotNumber => "index must be a number."
  | unknownWeekday given => given.unknown "RecurrenceWeekday"
  | weekdaysNotList => "weekdays must be a list."

/-! ## Codes -/

def Calendar.Period.ofValue (v : Value) : Except RuleError Period :=
  match v.code?.bind Period.ofCode? with
  | some p => .ok p
  | none => .error (.unknownPeriod v)

def Calendar.Weekday.ofValue (v : Value) : Except RuleError Weekday :=
  match v.code?.bind Weekday.ofCode? with
  | some w => .ok w
  | none => .error (.unknownWeekday v)

/-- The weekdays of a list of codes, or the first code that names none. -/
def Calendar.Weekday.ofCodes (codes : List Int) : Except RuleError (List Weekday) :=
  codes.mapM fun n => Weekday.ofValue (.int n)

/-- The same of a list that may be absent. -/
def Calendar.Weekday.ofOptionalCodes (codes : Option (List Int)) :
    Except RuleError (Option (List Weekday)) :=
  match codes with
  | none => .ok none
  | some codes => (Weekday.ofCodes codes).map some

namespace Rule

/-! ## Construction -/

/-- Checks the frequency, then the index; sorts the weekdays. -/
def build (frequency : Int) (period : Period) (index : Option Int)
    (weekdays : Option (List Weekday)) : Except RuleError Rule :=
  if hf : frequency < 1 then .error .frequencyTooSmall
  else if hi : ∀ i ∈ index, 1 ≤ i ∧ i ≤ 31 then
    .ok
      { frequency := frequency.toNat
        period := period
        index := index.map Int.toNat
        weekdays := weekdays.map Weekday.sorted
        frequency_pos := by omega
        index_mem := by
          intro i h
          obtain ⟨n, hn, rfl⟩ := Option.map_eq_some_iff.1 h
          have := hi n hn
          omega
        weekdays_ascending := by
          intro ws h
          obtain ⟨vs, -, rfl⟩ := Option.map_eq_some_iff.1 h
          exact Weekday.ascending_sorted vs }
  else .error .indexOutOfRange

/-! ## Views -/

def days (r : Rule) : List Weekday := r.weekdays.getD []

theorem ascending_days (r : Rule) : Weekday.Ascending r.days := by
  unfold days
  cases hweekdays : r.weekdays with
  | none => exact List.Pairwise.nil
  | some ws => exact r.weekdays_ascending ws hweekdays

def positions (r : Rule) : List Nat := r.days.map Weekday.position

end Rule

/-- What a rule says about its dates. Only weekly rules have weekdays, only monthly ones a day. -/
structure Summary where
  frequency : Nat
  period : Period
  weekdays : List Weekday
  monthDay : Option Nat
  deriving DecidableEq, Repr

/-- A monthly rule without an index falls on the day of its anchor. -/
def Rule.summarize (r : Rule) (anchor : Option Date) : Summary where
  frequency := r.frequency
  period := r.period
  weekdays := if r.period = .week then r.days else []
  monthDay := if r.period = .month then r.index.or (anchor.map Date.day) else none

end Cadence
