import Cadence.Rule.Payload
import Cadence.Service.Integer
import Cadence.Service.Stamp

/-!
# Field — lenient reading of request fields

Requests may write an integer as a number without fraction, as a truth value or as a text. Every
field is read, and all faults are reported together, in the order of the fields.

- `FieldFault`, `Fault`: what is wrong with a field, where, and with which value
- `integer`, `date`, `texts`: readers of single values
- `Checked`: a value, or all faults on the way to it
-/

namespace Cadence
namespace Service

open Calendar Number Text

/-! ## Faults -/

inductive FieldFault
  | missing
  | invalidJson
  | notObject
  | notInteger
  | integerText
  | integerSize
  | integerFraction
  | integerInfinite
  | notList
  | notText
  | textUnits
  | notDate
  | dateYear
  | dateText
  | dateTime
  deriving DecidableEq, Repr

def FieldFault.name : FieldFault → String
  | missing => "missing"
  | invalidJson => "json_invalid"
  | notObject => "model_attributes_type"
  | notInteger => "int_type"
  | integerText => "int_parsing"
  | integerSize => "int_parsing_size"
  | integerFraction => "int_from_float"
  | integerInfinite => "finite_number"
  | notList => "list_type"
  | notText => "string_type"
  | textUnits => "string_unicode"
  | notDate => "date_type"
  | dateYear => "date_parsing"
  | dateText => "date_from_datetime_parsing"
  | dateTime => "date_from_datetime_inexact"

inductive Place
  | name (s : String)
  | index (i : Nat)
  deriving DecidableEq, Repr

structure Fault where
  kind : FieldFault
  place : List Place
  /-- The refused value. It is what lacks a field that is missing, and null when there is none. -/
  given : Json
  deriving Repr

abbrev Checked (α : Type) := Except (List Fault) α

namespace Checked

/-- Both values, or the faults of both. -/
def and {α β : Type} (a : Checked α) (b : Checked β) : Checked (α × β) :=
  match a, b with
  | .ok x, .ok y => .ok (x, y)
  | .error fs, .error gs => .error (fs ++ gs)
  | .error fs, .ok _ => .error fs
  | .ok _, .error gs => .error gs

def all {α : Type} : List (Checked α) → Checked (List α)
  | [] => .ok []
  | a :: as => (and a (all as)).map fun (x, xs) => x :: xs

end Checked

/-- The reading of a value at a place. -/
def located {α : Type} (place : List Place) (given : Json) (r : Except FieldFault α) : Checked α :=
  r.mapError fun kind => [⟨kind, place, given⟩]

/-! ## Integers -/

def integerFault : IntegerError → FieldFault
  | .malformed => .integerText
  | .tooLong => .integerSize

/-- A floating-point number without fraction, strictly between the bounds of 64 bits. -/
def integerOfReal (x : Real64) : Except FieldFault Int :=
  match x.toRat? with
  | none => .error .integerInfinite
  | some q =>
    if q.den ≠ 1 then .error .integerFraction
    else if q.num ≤ -9223372036854775808 ∨ 9223372036854775808 ≤ q.num then .error .integerSize
    else .ok q.num

def integer : Json → Except FieldFault Int
  | .int n => .ok n
  | .bool b => .ok (if b then 1 else 0)
  | .real x => integerOfReal x
  | .text (.chars s) => (integerOfText s).mapError integerFault
  | .text (.codes _) => .error .textUnits
  | .null | .array _ | .object _ => .error .notInteger

/-! ## Dates and texts -/

def dateFault : StampError → FieldFault
  | .malformed => .dateText
  | .notMidnight => .dateTime
  | .yearZero => .dateYear

/-- A date; an integer beyond the range of floating-point numbers counts as no number at all. -/
def date : Json → Except FieldFault Date
  | .text (.chars s) => (dateOfText s).mapError dateFault
  | .text (.codes _) => .error .textUnits
  | .int n =>
    match (Real64.ofRat n).toRat? with
    | some _ => (dateOfInteger n).mapError dateFault
    | none => .error .notDate
  | .real x => (dateOfReal x).mapError dateFault
  | .null | .bool _ | .array _ | .object _ => .error .notDate

def text : Json → Except FieldFault Spelling
  | .text s => .ok s
  | _ => .error .notText

/-! ## Fields of a body -/

def inBody (name : String) : List Place := [.name "body", .name name]

def required {α : Type} (read : Json → Except FieldFault α) (ms : Json.Members) (name : String) :
    Checked α :=
  match Json.lookup name ms with
  | none => located (inBody name) (.object ms) (.error .missing)
  | some j => located (inBody name) j (read j)

/-- A field that may be absent or null. -/
def optional {α : Type} (read : List Place → Json → Checked α) (ms : Json.Members) (name : String) :
    Checked (Option α) :=
  match Json.lookup name ms with
  | none | some .null => .ok none
  | some j => (read (inBody name) j).map some

def one {α : Type} (read : Json → Except FieldFault α) (place : List Place) (j : Json) :
    Checked α :=
  located place j (read j)

def integers (place : List Place) : Json → Checked (List Int)
  | .array items =>
    Checked.all (items.mapIdx fun i j => located (place ++ [.index i]) j (integer j))
  | j => located place j (.error .notList)

/-- The fields of a rule, in their order. -/
def ruleFields (ms : Json.Members) : Checked Payload :=
  (((required integer ms "frequency").and (required integer ms "period")).and
    ((optional (one integer) ms "index").and (optional integers ms "weekdays"))).map
      fun ((frequency, period), (index, weekdays)) => { frequency, period, index, weekdays }

/-! ## Fields of a query -/

def inQuery (name : String) : List Place := [.name "query", .name name]

def queryDate (value : Option String) (name : String) : Checked Date :=
  match value with
  | none => located (inQuery name) .null (.error .missing)
  | some s => one date (inQuery name) (.text s)

def optionalQueryDate (value : Option String) (name : String) : Checked (Option Date) :=
  match value with
  | none => .ok none
  | some s => (one date (inQuery name) (.text s)).map some

end Service
end Cadence
