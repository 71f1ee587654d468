import Cadence.Rule.Payload

/-!
# Loose — rules from values of any type

Whoever builds a rule from loosely typed values gets most of them checked: the frequency is an
integer, the period and the weekdays equal codes. The index is only compared with its bounds, so a
truth value or a floating-point number passes. Such a rule has no stored text.

- `Fields`: the values
- `LooseRule.ofFields`: the checks, in their order
- `LooseRule.rule?`: the rule, when the index is an integer
-/

namespace Cadence

open Calendar

structure Fields where
  frequency : Value
  period : Value
  index : Value
  weekdays : Value
  deriving Repr

/-- An index between 1 and 31 that is not an integer: the truth value that counts as 1, or the exact
value of a floating-point number. -/
inductive OddIndex
  | truth
  | real (value : Rat)
  deriving DecidableEq, Repr

def OddIndex.value : OddIndex → Rat
  | truth => 1
  | real value => value

/-- A rule whose index may be odd; the checked part has no index then. -/
structure LooseRule where
  checked : Rule
  odd : Option OddIndex
  deriving DecidableEq, Repr

namespace LooseRule

/-! ## Checks -/

def frequency (v : Value) : Except RuleError Int :=
  match v with
  | .int n => if n < 1 then .error .frequencyTooSmall else .ok n
  | _ => .error .frequencyNotInteger

/-- An index as an integer or as an odd value. -/
def index (v : Value) : Except RuleError (Option Int × Option OddIndex) :=
  match v with
  | .null => .ok (none, none)
  | .int n => if 1 ≤ n ∧ n ≤ 31 then .ok (some n, none) else .error .indexOutOfRange
  -- A truth value is compared with the bounds as a number.
  | .bool b => if b then .ok (none, some .truth) else .error .indexOutOfRange
  | .real x =>
    match x.toRat? with
    | some q => if 1 ≤ q ∧ q ≤ 31 then .ok (none, some (.real q)) else .error .indexOutOfRange
    | none => .error .indexOutOfRange
  | _ => .error .indexNotNumber

/-- Values to read as weekdays one by one. -/
def members (v : Value) : Except RuleError (Option (List Value)) :=
  match v, v.contents? with
  | .null, _ => .ok none
  | _, some vs => .ok (some vs)
  | _, none => .error .weekdaysNotList

def weekdays (v : Value) : Except RuleError (Option (List Weekday)) := do
  match ← members v with
  | none => return none
  | some vs => return some (← vs.mapM Weekday.ofValue)

/-- Checks the frequency, the period, the index and then the weekdays. -/
def ofFields (f : Fields) : Except RuleError LooseRule := do
  let frequency ← frequency f.frequency
  let period ← Period.ofValue f.period
  let (index, odd) ← index f.index
  let weekdays ← weekdays f.weekdays
  let rule ← Rule.build frequency period index weekdays
  return ⟨rule, odd⟩

/-! ## Views -/

def rule? (l : LooseRule) : Option Rule := if l.odd.isNone then some l.checked else none

/-- The stored text; a rule with an odd index has none. -/
def encode? (l : LooseRule) : Option String := l.rule?.map Rule.encode

def indexValue (l : LooseRule) : Option Rat :=
  (l.odd.map OddIndex.value).or (l.checked.index.map fun (i : Nat) => (i : Rat))

/-- Rules are the same when their fields are, with the index compared as a number. -/
def same (a b : LooseRule) : Bool :=
  a.checked.frequency == b.checked.frequency && a.checked.period == b.checked.period &&
    a.indexValue == b.indexValue && a.checked.weekdays == b.checked.weekdays

end LooseRule

end Cadence
