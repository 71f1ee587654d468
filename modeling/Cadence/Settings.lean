import Cadence.Calendar.Weekday
import Cadence.Log
import Cadence.Text.Blank
import Cadence.Text.Integer

/-!
# Settings — what an environment configures

Each setting is read from a variable of its own. A text that does not spell a setting leaves the
default.

- `firstWeekday`: reads the first day of the week
- `Settings.load`: all settings of an environment
- `Settings.build`: the same with the check of the calendar
-/

namespace Cadence

open Calendar Text

/-! ## First day of the week -/

inductive WeekdayError
  | integer (cause : IntegerError)
  | outOfRange
  | unknown (value : String)
  /-- A position outside 0 to 6. -/
  | badPosition
  deriving DecidableEq, Repr

def WeekdayError.message : WeekdayError → String
  | integer cause => cause.message
  | outOfRange => "First weekday must be between 0 and 6."
  | unknown value => "Unknown weekday: " ++ value
  | badPosition => "first_weekday must be between 0 (Monday) and 6 (Sunday)."

def Calendar.Weekday.ofPosition (n : Int) : Except WeekdayError Weekday :=
  match Weekday.ofPosition? n with
  | some w => .ok w
  | none => .error .badPosition

/-- A trimmed text in lower case. Only ASCII letters need a lower case: no other letter has one that
occurs in the name of a weekday, and no digit has any. -/
def normalized (text : String) : List Char := (trim isBlank text.toList).map Char.toLower

/-- The weekdays whose name a text begins, by three letters or more. -/
def begun? (u : List Char) : Option Weekday :=
  Weekday.all.find? fun w => u.isPrefixOf w.name.toList && 3 ≤ u.length

/-- Reads a position, in digits of any script, or the beginning of a name. -/
def firstWeekday (value : Option String) : Except WeekdayError Weekday :=
  match value with
  | none => .ok .monday
  | some text =>
    let u := normalized text
    -- What is written in digits is a position, even when it is out of range.
    if !u.isEmpty && u.all isAnyDigit then
      match integer u with
      | .error cause => .error (.integer cause)
      | .ok n =>
        match Weekday.ofPosition? n with
        | some w => .ok w
        | none => .error .outOfRange
    else
      match begun? u with
      | some w => .ok w
      | none => .error (.unknown text)

/-! ## Environments -/

/-- Variables and their values. -/
abbrev Environment := String → Option String

structure Settings where
  firstWeekday : Weekday
  databaseUrl : String
  frontendOrigin : String
  maxPreviewDays : Nat
  logLevel : Int
  deriving DecidableEq, Repr

def defaultPreviewDays : Nat := 3660

/-- A positive integer, or the default. -/
def previewDays (value : Option String) : Nat :=
  match value with
  | none => defaultPreviewDays
  | some text =>
    match integer (trim isBlank text.toList) with
    | .ok n => if 0 < n then n.toNat else defaultPreviewDays
    | .error _ => defaultPreviewDays

/-- Upper case, as far as it matters for the names of levels: the dotless i and the long s are the
only letters outside ASCII whose upper case is a letter of ASCII and no more. -/
def capital (c : Char) : Char :=
  if c = 'ı' then 'I' else if c = 'ſ' then 'S' else c.toUpper

def logLevel (value : Option String) : Int :=
  let name := (trim isBlank (value.getD "").toList).map capital
  (Log.levelOf? (String.ofList name)).getD Log.info

def Settings.load (env : Environment) : Settings where
  firstWeekday :=
    match Cadence.firstWeekday (env "RECURRENCE_FIRST_WEEKDAY") with
    | .ok w => w
    | .error _ => .monday
  databaseUrl := (env "DATABASE_URL").getD "sqlite:///./recurrence.db"
  frontendOrigin := (env "FRONTEND_ORIGIN").getD "http://localhost:3000"
  maxPreviewDays := previewDays (env "RECURRENCE_MAX_PREVIEW_DAYS")
  logLevel := Cadence.logLevel (env "LOG_LEVEL")

/-- The settings of an environment as they are put together: the calendar checks the position of its
first day, whichever that is. -/
def Settings.build (env : Environment) : Except WeekdayError Settings := do
  let first ← Weekday.ofPosition (load env).firstWeekday.position
  return { load env with firstWeekday := first }

end Cadence
