import Cadence.Json.Compact
import Cadence.Json.Reader
import Cadence.Rule.Basic

/-!
# Payload — rules as stored text

A rule is stored as a JSON object of its fields in order, without those that are absent. A stored
text is read back strictly: integers are integers, never strings, truth values or floating-point
numbers.

- `Payload`: the fields of a stored rule, unchecked
- `Rule.encode`, `Rule.decode`: a rule to its text and back
- `Rule.decodeBytes`: the same from UTF-8
-/

namespace Cadence

open Calendar

structure Payload where
  frequency : Int
  period : Int
  index : Option Int
  weekdays : Option (List Int)
  deriving DecidableEq, Repr

/-! ## Fields -/

def Json.int? : Json → Option Int
  | int n => some n
  | _ => none

def Json.ints? : Json → Option (List Int)
  | array items => items.mapM Json.int?
  | _ => none

/-- A field that may be absent or null. -/
def Json.optional {α : Type} (read : Json → Option α) : Option Json → Option (Option α)
  | none | some null => some none
  | some j => (read j).map some

namespace Payload

def ofJson? : Json → Option Payload
  | .object members => do
    let frequency ← (Json.lookup "frequency" members).bind Json.int?
    let period ← (Json.lookup "period" members).bind Json.int?
    let index ← Json.optional Json.int? (Json.lookup "index" members)
    let weekdays ← Json.optional Json.ints? (Json.lookup "weekdays" members)
    return { frequency, period, index, weekdays }
  | _ => none

/-- The members of a stored rule, in their order. -/
def toMembers (p : Payload) : Json.Members :=
  let index : Json.Members := p.index.toList.map fun i => ("index", .int i)
  let weekdays : Json.Members := p.weekdays.toList.map fun ws => ("weekdays", .array (ws.map .int))
  ("frequency", .int p.frequency) :: ("period", .int p.period) :: (index ++ weekdays)

def toJson (p : Payload) : Json := .object p.toMembers

end Payload

/-! ## Rules -/

namespace Rule

def toPayload (r : Rule) : Payload where
  frequency := r.frequency
  period := r.period.code
  index := r.index.map Int.ofNat
  weekdays := r.weekdays.map (·.map fun w => (w.code : Int))

/-- Checks the weekdays, then the period, the frequency and the index. -/
def ofPayload (p : Payload) : Except RuleError Rule := do
  let weekdays ← Weekday.ofOptionalCodes p.weekdays
  let period ← Period.ofValue (.int p.period)
  build p.frequency period p.index weekdays

/-! ## Text -/

def encode (r : Rule) : String := r.toPayload.toJson.compact

/-- Stored text nests at most 200 levels deep, not counting an array or object without contents. It
holds no lone half of a surrogate pair. -/
def storedText : Json.Dialect where
  maxDepth := 200
  emptyCounts := false
  limitsReals := true
  halves := false

/-- The rule that a stored text spells, if it spells one. -/
def decode (text : String) : Option Rule :=
  match Json.read storedText text with
  | .ok j => (Payload.ofJson? j).bind fun p => (ofPayload p).toOption
  | .error _ => none

def decodeBytes (bytes : ByteArray) : Option Rule := (String.fromUTF8? bytes).bind decode

end Rule

end Cadence
