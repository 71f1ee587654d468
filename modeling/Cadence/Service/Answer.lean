import Cadence.Log
import Cadence.Schedule.Generate
import Cadence.Service.Report
import Cadence.Service.Request
import Cadence.Service.Table
import Cadence.Settings

/-!
# Answer — what a request is answered with

- `Response`: a status, a body, and what was logged on the way
- `Refusal`: the reasons for a status of 400 and above, with their status and body
- `windows`: the checks on the dates of a request, in their order
- bodies of answers as JSON
-/

namespace Cadence
namespace Service

open Calendar Schedule

structure Response where
  status : Nat
  body : Json
  logs : List Log.Entry
  deriving Repr

/-! ## Refusals -/

inductive Refusal
  | noSuchPath
  | noSuchMethod
  | faults (fs : List Fault)
  | unreadableBody
  | rule (cause : RuleError)
  | nameRequired
  | reversedDates
  | longWindow (greatest : Nat)
  | halfFilter
  | reversedFilter
  | noSuchRow
  | undecodable
  /-- An id of more than 64 bits, which the storage of the table does not take. -/
  | wideId
  /-- A name that is no text, which the storage of the table does not take either. -/
  | malformedName
  deriving Repr

namespace Refusal

/-- What an answer says about a refusal. It says nothing of faults without a report and of what the
storage did not take. -/
def detail? : Refusal → Option Json
  | noSuchPath => some (.text "Not Found")
  | noSuchMethod => some (.text "Method Not Allowed")
  | faults fs => report? fs
  | unreadableBody => some (.text "There was an error parsing the body")
  | rule cause => some (.text cause.message)
  | nameRequired => some (.text "Name is required.")
  | reversedDates => some (.text "Start date must be on or before end date.")
  | longWindow greatest =>
    some (.text ("Date window must not exceed " ++ toString greatest ++ " days."))
  | halfFilter => some (.text "Filter start and end must be provided together.")
  | reversedFilter => some (.text "Filter start must be on or before filter end.")
  | noSuchRow => some (.text "Recurrence not found.")
  | undecodable => some (.text "Stored recurrence could not be decoded.")
  | wideId | malformedName => none

/-- The status of an answer; 500 is that of one that says nothing. -/
def status (r : Refusal) : Nat :=
  if r.detail?.isNone then 500
  else
    match r with
    | noSuchPath | noSuchRow => 404
    | noSuchMethod => 405
    | faults _ | undecodable => 422
    | _ => 400

def body (r : Refusal) : Json :=
  r.detail?.elim (.text "Internal Server Error") fun detail => .object [("detail", detail)]

def response (r : Refusal) : Response := ⟨r.status, r.body, []⟩

end Refusal

/-! ## Windows -/

/-- The dates of a request. -/
structure DateFields where
  start : Date
  last : Date
  filterStart : Option Date
  filterLast : Option Date
  deriving DecidableEq, Repr

/-- The window and the filter that the dates of a request name. -/
def windows (greatest : Nat) (f : DateFields) : Except Refusal (Window × Option Window) :=
  if h : f.start ≤ f.last then
    let window : Window := ⟨f.start, f.last, h⟩
    -- The window is checked as a whole before the filter is looked at.
    if greatest < window.days then .error (.longWindow greatest)
    else
      match f.filterStart, f.filterLast with
      | none, none => .ok (window, none)
      | some a, some b =>
        if h : a ≤ b then .ok (window, some ⟨a, b, h⟩) else .error .reversedFilter
      | _, _ => .error .halfFilter
  else .error .reversedDates

/-! ## Bodies -/

def optionalInt (n : Option Nat) : Json := n.elim .null fun n => .int n

def dateList (ds : List Date) : Json := .array (ds.map fun d => .text d.iso)

def ruleBody (r : Rule) : Json :=
  .object
    [("frequency", .int r.frequency), ("period", .int r.period.code),
      ("index", optionalInt r.index),
      ("weekdays", r.weekdays.elim .null fun ws => .array (ws.map fun w => .int w.code))]

def optionalRule (r : Option Rule) : Json := r.elim .null ruleBody

def summaryBody (s : Summary) : Json :=
  .object
    [("frequency", .int s.frequency), ("period", .text s.period.label),
      ("weekdays", .array (s.weekdays.map fun w => .text w.label)),
      ("month_day", optionalInt s.monthDay)]

/-- A row as answers show it, without the time at which it was stored. Two rows with the same body
may differ in that time. -/
def rowBody (r : Row) : Json :=
  .object
    [("id", .int r.id), ("name", .text r.name), ("payload", .text r.payload),
      ("rule", optionalRule (Rule.decode r.payload))]

/-! ## Logs -/

/-- A row whose payload spells no rule is reported whenever it is shown. -/
def rowLogs (r : Row) : List Log.Entry :=
  if (Rule.decode r.payload).isNone then
    [⟨Log.warning, "Stored recurrence " ++ toString r.id ++ " has an undecodable payload."⟩]
  else []

def storedLog (r : Row) : Log.Entry :=
  ⟨Log.info, "Stored recurrence " ++ toString r.id ++ " (" ++ r.payload ++ ")."⟩

def runLogs (r : Rule) (run : Run) : List Log.Entry :=
  ((run.warning? r.period).map fun text => ⟨Log.warning, text⟩).toList

end Service
end Cadence
