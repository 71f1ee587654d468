import Cadence.Json.Reader
import Cadence.Text.Blank

/-!
# Integer — integers that clients write as texts

The plain form is a minus sign, which may be absent, and digits without leading zeros. Any other
text is cleaned first: of white space around it, of a plus sign, and then, behind the minus sign if
there is one, of leading zeros, a fraction of zeros and single underscores. What is left has to be
plain.

- `plain?`: reads the plain form
- `cleaned?`: the text without what does not matter
- `integerOfText`: reads both
-/

namespace Cadence
namespace Service

open Text

inductive IntegerError
  | malformed
  | tooLong
  deriving DecidableEq, Repr

/-! ## Plain form -/

/-- Whether a text is digits that do not start with a zero, or a zero alone. -/
def isPlainNumber (cs : List Char) : Bool :=
  !cs.isEmpty && cs.all isDigit && (cs.head? != some '0' || cs.length == 1)

def plain? (cs : List Char) : Option Int :=
  let (negative, ds) := splitMinus cs
  if isPlainNumber ds then some (if negative then -(valueOf ds : Int) else valueOf ds) else none

/-- Whether a text starts like a plain integer of more than 4300 digits. -/
def startsTooLong (cs : List Char) : Bool :=
  let ds := (splitMinus cs).2.takeWhile isDigit
  Json.integerDigits < ds.length && ds.head? != some '0'

/-! ## Cleaning -/

/-- Drops a plus sign, unless a minus sign follows it. -/
def withoutPlus? (cs : List Char) : Option (List Char) :=
  match cs with
  | '+' :: '-' :: _ => none
  | '+' :: cs => some cs
  | cs => some cs

/-- Drops zeros and underscores after a leading zero, up to a digit or a minus sign. In front of a
point, and at the end, the last one stays. -/
def afterZeros? (last : Char) : List Char → Option (List Char)
  | [] => some [last]
  | c :: cs =>
    if c = '0' ∨ c = '_' then afterZeros? c cs
    else if isDigit c ∨ c = '-' then some (c :: cs)
    else if c = '.' then some (last :: c :: cs)
    else none

/-- Drops the zeros in front of a number. -/
def withoutZeros? (cs : List Char) : Option (List Char) :=
  match cs with
  | '0' :: cs => afterZeros? '0' cs
  | c :: _ => if isDigit c then some cs else none
  | [] => none

/-- Drops a point and the zeros after it, of which there is at least one. -/
def withoutFraction (cs : List Char) : List Char :=
  let fraction := (cs.dropWhile (· != '.')).drop 1
  if !fraction.isEmpty && fraction.all (· == '0') then cs.takeWhile (· != '.') else cs

/-- Whether two underscores stand side by side. -/
def hasDoubleJoint (cs : List Char) : Bool := (cs.zip (cs.drop 1)).contains ('_', '_')

/-- Drops underscores, unless one is at an end or beside another. -/
def withoutJoints (cs : List Char) : List Char :=
  if cs.head? == some '_' || cs.getLast? == some '_' || hasDoubleJoint cs then cs
  else cs.filter (· != '_')

def cleanedNumber? (cs : List Char) : Option (List Char) :=
  (withoutZeros? cs).map fun cs => withoutJoints (withoutFraction cs)

def cleaned? (cs : List Char) : Option (List Char) := do
  match ← withoutPlus? (trim isSpace cs) with
  | '-' :: cs => return '-' :: (← cleanedNumber? cs)
  | cs => cleanedNumber? cs

/-! ## Reader -/

/-- Reads an integer. A text that turns out to be too long only when it is cleaned counts as
malformed. -/
def integerOfText (text : String) : Except IntegerError Int :=
  let cs := text.toList
  -- Only the digits of the raw text can be too many, whatever comes after them.
  if startsTooLong cs then .error .tooLong
  else
    match plain? cs with
    | some n => .ok n
    | none =>
      match ((cleaned? cs).filter (!startsTooLong ·)).bind plain? with
      | some n => .ok n
      | none => .error .malformed

end Service
end Cadence
