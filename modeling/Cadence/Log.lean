import Cadence.Calendar.Month
import Cadence.Number.Real

/-!
# Log — levels, entries and written records

- `Log.Entry`: what an operation reports
- `Log.Record.line`: a record as it is written, stamped in universal time
- `Log.Time`, `Log.TimeError`: when a record was made, and why that has no stamp
- `Log.Root`: the root logger, which only its first configuration changes
-/

namespace Cadence
namespace Log

open Calendar Number Text

/-! ## Levels -/

def names : List (String × Int) :=
  [("CRITICAL", 50), ("FATAL", 50), ("ERROR", 40), ("WARN", 30), ("WARNING", 30), ("INFO", 20),
    ("DEBUG", 10), ("NOTSET", 0)]

def info : Int := 20

def warning : Int := 30

/-- The level of a name. -/
def levelOf? (name : String) : Option Int := (names.find? (·.1 == name)).map (·.2)

/-- The name of a level; of two names, the one that is not an alias. -/
def levelName (level : Int) : String :=
  match names.find? fun (name, n) => n == level && name != "FATAL" && name != "WARN" with
  | some (name, _) => name
  | none => "Level " ++ toString level

/-! ## Entries -/

structure Entry where
  level : Int
  text : String
  deriving DecidableEq, Repr

def Entry.line (e : Entry) : String := levelName e.level ++ ": " ++ e.text

/-! ## Records -/

/-- Seconds since 1970-01-01. -/
inductive Time
  | whole (seconds : Int)
  | real (seconds : Real64)
  deriving DecidableEq, Repr

structure Record where
  name : String
  level : Int
  message : String
  created : Time
  deriving DecidableEq, Repr

inductive TimeError
  | notANumber
  | wideSeconds
  | wideYear
  | longYear
  deriving DecidableEq, Repr

def TimeError.message : TimeError → String
  | notANumber => "Invalid value NaN (not a number)"
  | wideSeconds => "timestamp out of range for platform time_t"
  | wideYear => "[Errno 75] Value too large for defined data type"
  | longYear => "signed integer is greater than maximum"

/-- Whole seconds, the greatest that are not later. They have at most 64 bits. -/
def Time.seconds (t : Time) : Except TimeError Int :=
  let checked (n : Int) : Except TimeError Int :=
    if n < -9223372036854775808 ∨ 9223372036854775807 < n then .error .wideSeconds else .ok n
  match t with
  | whole n => checked n
  | real .nan => .error .notANumber
  | real x =>
    match x.toRat? with
    | some q => checked q.floor
    | none => .error .wideSeconds

/-- Days from 0001-01-01 to 1970-01-01. -/
def epoch : Nat := daysBeforeYear 1969

/-- Days of an era of 400 years. The calendar repeats from era to era. -/
def eraLength : Nat := daysBeforeYear 400

def year (n : Int) : List Char := if n < 0 then '-' :: decimal n.natAbs else decimal n.natAbs

/-- A date and a time of day. Years are not padded; those before the year 1 are 0 and negative. A
year has at most 32 bits, whether it is counted from 1900 or written. -/
def stamp (seconds : Int) : Except TimeError String :=
  -- Dates before the first era are reached by counting eras backwards.
  let serial := epoch + seconds / 86400
  let era := serial / eraLength
  let day := (serial % eraLength).toNat
  let second := (seconds % 86400).toNat
  let month := monthOfDay day
  let yearNumber : Int := 400 * era + (month / 12 : Nat) + 1
  if yearNumber - 1900 < -2147483648 ∨ 2147483647 < yearNumber - 1900 then .error .wideYear
  else if 2147483647 < yearNumber then .error .longYear
  else
    .ok (String.ofList
      (year yearNumber ++ '-' :: padded 2 (month % 12 + 1) ++
        '-' :: padded 2 (day - monthStart month + 1) ++ 'T' :: padded 2 (second / 3600) ++
        ':' :: padded 2 (second / 60 % 60) ++ ':' :: padded 2 (second % 60)))

def Record.line (r : Record) : Except TimeError String := do
  let stamp ← stamp (← r.created.seconds)
  return String.intercalate " | " [stamp, levelName r.level, r.name, r.message]

/-! ## Configuration -/

structure Root where
  level : Int
  handlers : Nat
  deriving DecidableEq, Repr

/-- A root logger that nobody has configured. -/
def Root.initial : Root := ⟨warning, 0⟩

/-- Sets the level and adds a handler, unless there is one. -/
def Root.configure (r : Root) (level : Option Int) : Root :=
  if r.handlers = 0 then ⟨level.getD info, 1⟩ else r

/-- The name of a logger; an absent or empty one is that of the package. -/
def loggerName (name : Option String) : String :=
  match name with
  | none | some "" => "recurrence_engine"
  | some name => name

end Log
end Cadence
