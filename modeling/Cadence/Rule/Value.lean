import Cadence.Calendar.Step
import Cadence.Number.Shortest
import Cadence.Text.Integer

/-!
# Value — values of any type where a rule wants a certain one

Whoever builds a rule may give anything for a field. What equals a code is taken for it, and a
message quotes what was refused, unless that holds an integer of more digits than messages write.

- `Value`: the values
- `Value.shown?`: a value as messages show it
- `Value.code?`: the integer that a value equals
-/

namespace Cadence

open Calendar Number Text

inductive Value
  | null
  | bool (b : Bool)
  | int (n : Int)
  | real (x : Real64)
  | text (s : Spelling)
  | bytes (bs : List UInt8)
  | array (items : List Value)
  | object (members : List (Spelling × Value))
  deriving Repr, Inhabited

namespace Value

/-! ## Text in messages -/

def commaSeparated : List String → String
  | [] => ""
  | [s] => s
  | s :: ss => s ++ ", " ++ commaSeparated ss

mutual

/-- A value as messages show it. An integer is shown up to as many digits as an integer in a text
may have, and a value that holds a longer one is not shown at all. -/
def shown? : Value → Option String
  | null => some "None"
  | bool true => some "True"
  | bool false => some "False"
  | int n => if (decimal n.natAbs).length ≤ digitLimit then some (toString n) else none
  | real x => some (x.text .message)
  | text s => some (quotedSpelling s)
  | bytes bs => some (quotedBytes bs)
  | array items => (shownItems? items).map fun texts => "[" ++ commaSeparated texts ++ "]"
  | object members =>
    (shownMembers? members).map fun texts => "\x7b" ++ commaSeparated texts ++ "\x7d"

def shownItems? : List Value → Option (List String)
  | [] => some []
  | v :: vs => do
    let shown ← shown? v
    let others ← shownItems? vs
    return shown :: others

def shownMembers? : List (Spelling × Value) → Option (List String)
  | [] => some []
  | (name, v) :: ms => do
    let shown ← shown? v
    let others ← shownMembers? ms
    return (quotedSpelling name ++ ": " ++ shown) :: others

end

/-- What a message says in place of a value that it cannot show. -/
def overlong : String :=
  "Exceeds the limit (4300 digits) for integer string conversion; " ++
    "use sys.set_int_max_str_digits() to increase the limit"

/-! ## Codes and contents -/

/-- The integer that a value equals: truth values count as 1 and 0. -/
def code? : Value → Option Int
  | int n => some n
  | bool b => some (if b then 1 else 0)
  | real x => x.toInt?
  | _ => none

/-- What a value holds one by one: the items of an array, the characters of a text, the numbers of
bytes, the names of an object. -/
def contents? : Value → Option (List Value)
  | array items => some items
  | text s => some (s.toCodes.map fun n => text (.ofCodes [n]))
  | bytes bs => some (bs.map fun b => int b.toNat)
  | object members => some (members.map fun (name, _) => text name)
  | null | bool _ | int _ | real _ => none

end Value

end Cadence
