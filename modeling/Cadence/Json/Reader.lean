import Cadence.Json.Basic

/-!
# Reader — JSON text to values

The grammar is that of JSON with three more literals, `NaN`, `Infinity` and `-Infinity`. A number is
an integer unless it has a fraction or an exponent. What a text may hold beyond the grammar is a
`Dialect`. The text is read as code points, because strings may hold lone halves of surrogate pairs
as they are.

- `read`, `readCodes`: the value of a whole text
- `Dialect`: how deep values nest, how long numbers are, and whether strings may hold lone halves
- `Fault`: the first thing that stops the reader
-/

namespace Cadence
namespace Json

open Number Text

structure Dialect where
  /-- Greatest number of arrays and objects that stand inside each other, the outermost included. -/
  maxDepth : Nat
  /-- Whether an array or object without contents counts as a level. -/
  emptyCounts : Bool
  /-- Whether the digits of a floating-point number in front of its point are limited like an
  integer's. -/
  limitsReals : Bool
  /-- Whether a string may hold a lone half of a surrogate pair. -/
  halves : Bool
  deriving DecidableEq, Repr

inductive Fault
  | malformed
  | tooDeep
  /-- A number of more than 4300 digits in front of its point. -/
  | tooLong
  deriving DecidableEq, Repr

/-- Reads the front of a text and returns what follows as well. -/
abbrev Reader (α : Type) : Type := List Nat → Except Fault (α × List Nat)

/-! ## Code points of the grammar -/

namespace Mark

@[match_pattern] abbrev quote : Nat := 0x22
@[match_pattern] abbrev comma : Nat := 0x2c
@[match_pattern] abbrev colon : Nat := 0x3a
@[match_pattern] abbrev leftBracket : Nat := 0x5b
@[match_pattern] abbrev backslash : Nat := 0x5c
@[match_pattern] abbrev rightBracket : Nat := 0x5d
@[match_pattern] abbrev letterU : Nat := 0x75
@[match_pattern] abbrev leftBrace : Nat := 0x7b
@[match_pattern] abbrev rightBrace : Nat := 0x7d

end Mark

def isBlank (n : Nat) : Bool := n = 0x20 || n = 0x9 || n = 0xa || n = 0xd

def skipBlanks (ns : List Nat) : List Nat := ns.dropWhile isBlank

/-! ## Words -/

def words : List (String × Json) :=
  [("true", .bool true), ("false", .bool false), ("null", .null), ("NaN", .real .nan),
    ("Infinity", .real (.infinite false)), ("-Infinity", .real (.infinite true))]

/-- Reads a word, which stands for a value. -/
def word? (ns : List Nat) : Option (Json × List Nat) :=
  words.findSome? fun (word, j) =>
    if (codesOf word).isPrefixOf ns then some (j, ns.drop word.length) else none

/-! ## Numbers -/

def integerDigits : Nat := 4300

/-- Reads a point and at least one digit; without both there is no fraction. -/
def fraction (cs : List Char) : List Char × List Char :=
  match cs with
  | '.' :: ds =>
    if (ds.takeWhile isDigit).isEmpty then ([], cs)
    else (ds.takeWhile isDigit, ds.dropWhile isDigit)
  | _ => ([], cs)

/-- The number that a text spells. A leading zero is the whole integer part. The number may be too
long even if something else follows it. -/
def number (d : Dialect) (cs : List Char) : Except Fault Json := do
  let (negative, cs) := splitMinus cs
  let whole := cs.takeWhile isDigit
  if whole.isEmpty || (whole.head? == some '0' && whole.length != 1) then
    throw .malformed
  let start := cs.dropWhile isDigit
  let (frac, rest) := fraction start
  let (exponent, rest) := (Real64.exponent? rest).getD (0, rest)
  let isInteger := rest.length == start.length
  -- The digits are counted before anything that follows is refused.
  if integerDigits < whole.length && (isInteger || d.limitsReals) then
    throw .tooLong
  if !rest.isEmpty then
    throw .malformed
  if isInteger then return .int (if negative then -(valueOf whole : Int) else valueOf whole)
  else return .real (.ofDecimal negative (valueOf (whole ++ frac)) (exponent - frac.length))

/-- Digits, signs, points and the letters of exponents. -/
def isNumeral (n : Nat) : Bool :=
  (0x30 ≤ n && n ≤ 0x39) || n = 0x2b || n = 0x2d || n = 0x2e || n = 0x45 || n = 0x65

/-- Reads all that can be part of a number as one. -/
def numeral (d : Dialect) : Reader Json := fun ns => do
  let j ← number d ((ns.takeWhile isNumeral).map Char.ofNat)
  return (j, ns.dropWhile isNumeral)

/-! ## Strings -/

/-- Splits the text after an opening quote at the closing one. -/
def splitString : List Nat → Option (List Nat × List Nat)
  | [] => none
  | Mark.quote :: ns => some ([], ns)
  | Mark.backslash :: n :: ns =>
    -- Whatever stands behind a backslash, a quote as well, belongs to the string.
    (splitString ns).map fun (body, rest) => (Mark.backslash :: n :: body, rest)
  | n :: ns =>
    if n < 0x20 then none
    else (splitString ns).map fun (body, rest) => (n :: body, rest)

def hexValue? (c : Char) : Option Nat :=
  if '0' ≤ c ∧ c ≤ '9' then some (c.toNat - 48)
  else if 'a' ≤ c ∧ c ≤ 'f' then some (c.toNat - 87)
  else if 'A' ≤ c ∧ c ≤ 'F' then some (c.toNat - 55)
  else none

/-- The code point that four hexadecimal digits spell. -/
def hexCode? (digits : List Nat) : Option Nat :=
  digits.foldlM (fun n d => (hexValue? (Char.ofNat d)).map (16 * n + ·)) 0

/-- The code point that a backslash and a character stand for. -/
def shortEscape? (c : Char) : Option Nat :=
  match c with
  | '"' => some 0x22
  | '\\' => some 0x5c
  | '/' => some 0x2f
  | 'b' => some 8
  | 'f' => some 12
  | 'n' => some 10
  | 'r' => some 13
  | 't' => some 9
  | _ => none

/-- A code point in a string, as it is or as an escape. -/
structure Written where
  code : Nat
  escaped : Bool
  deriving DecidableEq, Repr

def unescape : List Nat → Option (List Written)
  | [] => some []
  | Mark.backslash :: Mark.letterU :: a :: b :: c :: d :: ns => do
    return ⟨← hexCode? [a, b, c, d], true⟩ :: (← unescape ns)
  | Mark.backslash :: n :: ns => do
    return ⟨← shortEscape? (Char.ofNat n), true⟩ :: (← unescape ns)
  | n :: ns => do return ⟨n, false⟩ :: (← unescape ns)

/-- Joins the halves of surrogate pairs that are both escaped. -/
def joinEscaped : List Written → List Nat
  | v :: w :: ws =>
    if v.escaped && w.escaped && isHighHalf v.code && isLowHalf w.code then
      pairOf v.code w.code :: joinEscaped ws
    else v.code :: joinEscaped (w :: ws)
  | ws => ws.map Written.code

/-- Reads a string after its opening quote. -/
def spelling (d : Dialect) : Reader Spelling := fun ns => do
  let some (body, rest) := splitString ns | throw .malformed
  let some written := unescape body | throw .malformed
  let s := Spelling.ofCodes (joinEscaped written)
  if s.isText || d.halves then return (s, rest) else throw .malformed

/-! ## Arrays and objects -/

/-- Reads items up to the closing bracket, with a comma between two of them. -/
def items {α : Type} (item : Reader α) (close : Nat) : Nat → Reader (List α)
  | 0, _ => .error .malformed
  | fuel + 1, ns => do
    let (x, ns) ← item ns
    match skipBlanks ns with
    | Mark.comma :: ns =>
      let (xs, ns) ← items item close fuel ns
      return (x :: xs, ns)
    | n :: ns => if n = close then return ([x], ns) else throw .malformed
    | [] => throw .malformed

/-- What follows a closing bracket, if nothing but blanks is in front of it. -/
def closed? (close : Nat) (ns : List Nat) : Option (List Nat) :=
  match skipBlanks ns with
  | n :: rest => if n = close then some rest else none
  | [] => none

/-- Reads what stands between two brackets, after the first. Without a reader of items no level is
left for them. Each item takes at least one code point. -/
def bracketed {α : Type} (d : Dialect) (item? : Option (Reader α)) (close : Nat) :
    Reader (List α) := fun ns =>
  match item?, closed? close ns with
  | some _, some rest => .ok ([], rest)
  | some item, none => items item close ns.length ns
  | none, some rest => if d.emptyCounts then .error .tooDeep else .ok ([], rest)
  | none, none => .error .tooDeep

/-- Reads a name, a colon and a value. -/
def member (d : Dialect) (value : Reader Json) : Reader (Spelling × Json) := fun ns => do
  let Mark.quote :: ns := skipBlanks ns | throw .malformed
  let (name, ns) ← spelling d ns
  let Mark.colon :: ns := skipBlanks ns | throw .malformed
  let (j, ns) ← value ns
  return ((name, j), ns)

/-! ## Values -/

/-- Reads a value. The inner reader takes the values that it holds; without one no level is left. -/
def outermost (d : Dialect) (inner? : Option (Reader Json)) : Reader Json := fun ns =>
  match skipBlanks ns with
  | Mark.quote :: ns => do
    let (s, ns) ← spelling d ns
    return (.text s, ns)
  | Mark.leftBracket :: ns => do
    let (js, ns) ← bracketed d inner? Mark.rightBracket ns
    return (.array js, ns)
  | Mark.leftBrace :: ns => do
    let (ms, ns) ← bracketed d (inner?.map (member d)) Mark.rightBrace ns
    return (.object ms, ns)
  | ns =>
    match word? ns with
    | some found => .ok found
    | none => numeral d ns

/-- Reads a value that may hold `depth` levels of arrays and objects. -/
def value (d : Dialect) : Nat → Reader Json
  | 0 => outermost d none
  | depth + 1 => outermost d (some (value d depth))

/-- The value of a text that holds nothing else but blanks. -/
def readCodes (d : Dialect) (ns : List Nat) : Except Fault Json := do
  let (j, rest) ← value d d.maxDepth ns
  if (skipBlanks rest).isEmpty then return j else throw .malformed

def read (d : Dialect) (text : String) : Except Fault Json := readCodes d (codesOf text)

end Json
end Cadence
