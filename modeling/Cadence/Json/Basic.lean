import Cadence.Number.Shortest
import Cadence.Text.Spelling

/-!
# Json — values and their members

Integers and floating-point numbers are different values, told apart by their spelling. Strings and
names may hold halves of surrogate pairs.

- `Json`: the values
- `Json.member?`: the last member of a name
- `Json.distinct`: members without those that later ones replace
-/

namespace Cadence

open Number Text

inductive Json
  | null
  | bool (b : Bool)
  | int (n : Int)
  | real (x : Real64)
  | text (s : Spelling)
  | array (items : List Json)
  | object (members : List (Spelling × Json))
  deriving Repr, Inhabited

namespace Json

/-! ## Members -/

abbrev Members := List (Spelling × Json)

/-- The value of the last member of a name. -/
def lookup (name : Spelling) (members : Members) : Option Json :=
  (members.reverse.find? fun m => m.1 == name).map (·.2)

def member? (name : Spelling) : Json → Option Json
  | object members => lookup name members
  | _ => none

/-- One member a name, at the place of its first member and with the value of its last. -/
def distinct : Members → Members
  | [] => []
  | (name, j) :: ms =>
    (name, (lookup name ms).getD j) :: (distinct ms).filter fun m => m.1 != name

end Json

end Cadence
