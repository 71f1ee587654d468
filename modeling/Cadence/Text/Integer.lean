import Cadence.Text.DecimalDigit
import Cadence.Text.Digits
import Cadence.Text.Quoted

/-!
# Integer — integers written in the digits of any script

A text spells an integer when it is a sign, which may be absent, and digits, among which single
underscores may stand. At most 4300 digits are read, leading zeros included.

- `integer`: reads a trimmed text
- `IntegerError`: why a text was refused
-/

namespace Cadence
namespace Text

/-- The greatest number of digits of an integer in a text. -/
def digitLimit : Nat := 4300

inductive IntegerError
  | invalid (text : List Char)
  | tooLong (digits : Nat)
  deriving DecidableEq, Repr

/-- A message quotes at most 200 characters. -/
def IntegerError.message : IntegerError → String
  | invalid text =>
    "invalid literal for int() with base 10: " ++
      String.ofList ((quoted (String.ofList text)).toList.take 200)
  | tooLong digits =>
    "Exceeds the limit (4300 digits) for integer string conversion: value has " ++
      toString digits ++ " digits; use sys.set_int_max_str_digits() to increase the limit"

/-- Drops an underscore in front of a digit. -/
def dropJoint : List Char → List Char
  | '_' :: c :: cs => if (decimalValue? c).isSome then c :: cs else '_' :: c :: cs
  | cs => cs

theorem length_dropJoint_le (cs : List Char) : (dropJoint cs).length ≤ cs.length := by
  unfold dropJoint
  split
  · split <;> simp
  · exact Nat.le_refl _

/-- The values of a run of digits, and what follows the run. An underscore belongs to the run when a
digit stands on both sides. -/
def digitRun : List Char → List Nat × List Char
  | [] => ([], [])
  | c :: cs =>
    match decimalValue? c with
    | none => ([], c :: cs)
    | some d =>
      let (ds, rest) := digitRun (dropJoint cs)
      (d :: ds, rest)
  termination_by cs => cs.length
  decreasing_by
    have := length_dropJoint_le cs
    simp only [List.length_cons]
    omega

def valueOfDigits (ds : List Nat) : Nat := ds.foldl (fun n d => 10 * n + d) 0

def integer (text : List Char) : Except IntegerError Int :=
  let (negative, unsigned) :=
    match text with
    | '-' :: cs => (true, cs)
    | '+' :: cs => (false, cs)
    | cs => (false, cs)
  let (digits, rest) := digitRun unsigned
  if digitLimit < digits.length then .error (.tooLong digits.length)
  else if digits.isEmpty || !rest.isEmpty then .error (.invalid text)
  else .ok (if negative then -(valueOfDigits digits : Int) else valueOfDigits digits)

end Text
end Cadence
