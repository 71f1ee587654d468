import Cadence.Service.Answer
import Cadence.Service.Body

/-!
# Respond — the service over its table

Every request is answered from the table as it stands. Only a stored rule and a deletion change it.

- `respond`: the answer to a request, and the table after it
- `Event`, `run`: sequences of requests and direct insertions
-/

namespace Cadence
namespace Service

open Calendar Schedule Text

/-! ## Reading requests -/

def body : List Place := [.name "body"]

/-- The members of a body. -/
def members (text : String) : Except Refusal Json.Members :=
  if text = "" then .error (.faults [⟨.missing, body, .null⟩])
  else
    match readBody text with
    | .error .malformed => .error (.faults [⟨.invalidJson, body, .null⟩])
    | .error .unreadable => .error .unreadableBody
    | .ok (.object ms) => .ok ms
    | .ok j => .error (.faults [⟨.notObject, body, j⟩])

def checked {α : Type} (c : Checked α) : Except Refusal α := c.mapError .faults

/-- Checks the period, then the weekdays, the frequency and the index. -/
def ruleOf (p : Payload) : Except RuleError Rule := do
  let period ← Period.ofValue (.int p.period)
  let weekdays ← Weekday.ofOptionalCodes p.weekdays
  Rule.build p.frequency period p.index weekdays

def rowId (id : String) : Checked Int := one integer [.name "path", .name "rule_id"] (.text id)

/-! ## Answers that leave the table alone -/

def preview (s : Settings) (text : String) : Except Refusal Response := do
  let ms ← members text
  let (fields, ((start, last), (filterStart, filterLast))) ←
    checked
      ((ruleFields ms).and
        (((required date ms "start_date").and (required date ms "end_date")).and
          ((optional (one date) ms "filter_start").and (optional (one date) ms "filter_end"))))
  let rule ← (ruleOf fields).mapError .rule
  let (window, filter) ← windows s.maxPreviewDays { start, last, filterStart, filterLast }
  let run := rule.generate window filter s.firstWeekday
  let summary := rule.summarize (some window.first)
  return ⟨200, .object [("dates", dateList run.dates), ("summary", summaryBody summary)],
    runLogs rule run⟩

/-- A payload that is absent, null or not a text spells no rule. -/
def decode (text : String) : Except Refusal Response := do
  let ms ← members text
  let payload ← checked (optional (one Service.text) ms "payload")
  let rule :=
    match payload with
    | some (.chars s) => Rule.decode s
    | some (.codes _) | none => none
  return ⟨200, .object [("rule", optionalRule rule)], []⟩

def list (t : Table) : Response := ⟨200, .array (t.rows.map rowBody), t.rows.flatMap rowLogs⟩

/-- The row of an id. The table is asked only for ids of 64 bits. -/
def row (t : Table) (id : Int) : Except Refusal Row :=
  if id < -9223372036854775808 ∨ 9223372036854775807 < id then .error .wideId
  else
    match t.find? id with
    | some r => .ok r
    | none => .error .noSuchRow

def fetch (t : Table) (id : String) : Except Refusal Response := do
  let r ← row t (← checked (rowId id))
  return ⟨200, rowBody r, rowLogs r⟩

/-- The id and the dates of a request for dates. -/
def datesRequest (r : Request) (id : String) : Except Refusal (Int × DateFields) := do
  let (id, ((start, last), (filterStart, filterLast))) ←
    checked
      ((rowId id).and
        (((queryDate (r.queryValue? "start_date") "start_date").and
            (queryDate (r.queryValue? "end_date") "end_date")).and
          ((optionalQueryDate (r.queryValue? "filter_start") "filter_start").and
            (optionalQueryDate (r.queryValue? "filter_end") "filter_end"))))
  return (id, { start, last, filterStart, filterLast })

/-- The checks on the dates come before the row is looked up. -/
def dates (s : Settings) (t : Table) (r : Request) (id : String) : Except Refusal Response := do
  let (id, fields) ← datesRequest r id
  let (window, filter) ← windows s.maxPreviewDays fields
  let stored ← row t id
  let some rule := Rule.decode stored.payload | throw .undecodable
  let run := rule.generate window filter s.firstWeekday
  return ⟨200, .object [("rule_id", .int id), ("dates", dateList run.dates)], runLogs rule run⟩

/-! ## Answers that change the table -/

/-- A name without the blanks around it. -/
def trimmedName : Spelling → Spelling
  | .chars s => .chars (String.ofList (trim isBlank s.toList))
  | name => name

/-- The name and the rule of a request to store one. -/
def createRequest (text : String) : Except Refusal (Spelling × Rule) := do
  let ms ← members text
  let (fields, name) ← checked ((ruleFields ms).and (required Service.text ms "name"))
  let name := trimmedName name
  if name = .chars "" then throw .nameRequired
  let rule ← (ruleOf fields).mapError .rule
  return (name, rule)

def create (t : Table) (text : String) : Except Refusal (Table × Response) := do
  -- The storage is asked last, so a bad rule is refused before a malformed name.
  match ← createRequest text with
  | (.codes _, _) => throw .malformedName
  | (.chars name, rule) =>
    let stored : Row := ⟨t.nextId, name, rule.encode⟩
    return (t.insert name rule.encode, ⟨200, rowBody stored, storedLog stored :: rowLogs stored⟩)

def delete (t : Table) (id : String) : Except Refusal (Table × Response) := do
  let stored ← row t (← checked (rowId id))
  return (t.erase stored.id, ⟨200, .object [("status", .text "deleted")], []⟩)

/-! ## All requests -/

def health : Response := ⟨200, .object [("status", .text "ok")], []⟩

def perform (s : Settings) (t : Table) (r : Request) :
    Endpoint → Except Refusal (Table × Response)
  | .health => .ok (t, health)
  | .preview => (preview s r.body).map (t, ·)
  | .decode => (decode r.body).map (t, ·)
  | .list => .ok (t, list t)
  | .fetch id => (fetch t id).map (t, ·)
  | .dates id => (dates s t r id).map (t, ·)
  | .create => create t r.body
  | .delete id => delete t id

/-- The full answer to a request, and the table after it. -/
def fullAnswer (s : Settings) (t : Table) (r : Request) : Table × Response :=
  match route r with
  | .error .notFound => (t, Refusal.noSuchPath.response)
  | .error .methodNotAllowed => (t, Refusal.noSuchMethod.response)
  | .ok e =>
    match perform s t r e with
    | .ok answer => answer
    | .error refusal => (t, refusal.response)

/-- The answer to a request, and the table after it. Who asks for the head of an answer gets no
body. -/
def respond (s : Settings) (t : Table) (r : Request) : Table × Response :=
  let (t, answer) := fullAnswer s t r
  (t, if r.method = .head then { answer with body := .text "" } else answer)

/-! ## Runs -/

inductive Event
  | insert (name payload : String)
  | request (r : Request)
  deriving Repr

inductive Reply
  | inserted (id : Nat)
  | response (r : Response)
  deriving Repr

def handle (s : Settings) (t : Table) : Event → Table × Reply
  | .insert name payload => (t.insert name payload, .inserted t.nextId)
  | .request r =>
    let (t, answer) := respond s t r
    (t, .response answer)

/-- The replies to a sequence of events, and the table after it. -/
def run (s : Settings) : Table → List Event → Table × List Reply
  | t, [] => (t, [])
  | t, e :: es =>
    let (t, reply) := handle s t e
    let (t, replies) := run s t es
    (t, reply :: replies)

end Service
end Cadence
