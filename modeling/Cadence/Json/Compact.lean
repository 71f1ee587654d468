import Cadence.Json.Basic
import Cadence.Text.Quoted

/-!
# Compact — JSON text without blanks

Members keep their order. Strings escape quotes, backslashes, control characters and lone halves of
surrogate pairs.
-/

namespace Cadence
namespace Json

open Number Text

def escaped (c : Char) : List Char :=
  if c = '"' ∨ c = '\\' then ['\\', c]
  else if c = '\n' then ['\\', 'n']
  else if c = '\r' then ['\\', 'r']
  else if c = '\t' then ['\\', 't']
  else if c = Char.ofNat 8 then ['\\', 'b']
  else if c = Char.ofNat 12 then ['\\', 'f']
  else if c.toNat < 0x20 then '\\' :: 'u' :: hexPadded 4 c.toNat
  else [c]

def escapedCode (n : Nat) : List Char :=
  if isHalf n then '\\' :: 'u' :: hexPadded 4 n else escaped (Char.ofNat n)

def string (s : Spelling) : List Char := '"' :: s.toCodes.flatMap escapedCode ++ ['"']

def integer (n : Int) : List Char :=
  if n < 0 then '-' :: decimal n.natAbs else decimal n.natAbs

/-- Infinities and not-a-number have their names; finite numbers are written as in messages. -/
def realLayout : Layout := { Layout.message with nan := "NaN", infinity := "Infinity" }

mutual

def compactChars : Json → List Char
  | null => "null".toList
  | bool true => "true".toList
  | bool false => "false".toList
  | int n => integer n
  | real x => (x.text realLayout).toList
  | text s => string s
  | array items => '[' :: compactItems items
  | object members => '\x7b' :: compactMembers members

def compactItems : List Json → List Char
  | [] => [']']
  | [j] => compactChars j ++ [']']
  | j :: js => compactChars j ++ ',' :: compactItems js

def compactMembers : Members → List Char
  | [] => ['\x7d']
  | [(name, j)] => string name ++ ':' :: compactChars j ++ ['\x7d']
  | (name, j) :: ms => string name ++ ':' :: compactChars j ++ ',' :: compactMembers ms

end

def compact (j : Json) : String := String.ofList j.compactChars

end Json
end Cadence
