import Cadence.Text.Printable
import Cadence.Text.Spelling

/-!
# Quoted — texts and bytes as messages quote them

The quotes are single, unless what they hold has single quotes and no double one. Backslashes, the
quote in use and whatever has no visible form are escaped. Bytes are quoted after a `b`, and only
those of ASCII are visible.

- `quoted`, `quotedSpelling`: a text
- `quotedBytes`: a sequence of bytes
-/

namespace Cadence
namespace Text

def hexDigit (n : Nat) : Char := (Nat.digitChar (n % 16))

/-- The last `width` hexadecimal digits of `n`. -/
def hexPadded : Nat → Nat → List Char
  | 0, _ => []
  | width + 1, n => hexPadded width (n / 16) ++ [hexDigit n]

def quoteFor (codes : List Nat) : Char :=
  if codes.contains '\''.toNat && !codes.contains '"'.toNat then '"' else '\''

def quotedCode (visible : Nat → Bool) (quote : Char) (n : Nat) : List Char :=
  if n = quote.toNat ∨ n = '\\'.toNat then ['\\', Char.ofNat n]
  else if n = '\n'.toNat then ['\\', 'n']
  else if n = '\r'.toNat then ['\\', 'r']
  else if n = '\t'.toNat then ['\\', 't']
  else if visible n then [Char.ofNat n]
  else if n < 0x100 then '\\' :: 'x' :: hexPadded 2 n
  else if n < 0x10000 then '\\' :: 'u' :: hexPadded 4 n
  else '\\' :: 'U' :: hexPadded 8 n

def quotedCodes (visible : Nat → Bool) (codes : List Nat) : List Char :=
  let quote := quoteFor codes
  quote :: codes.flatMap (quotedCode visible quote) ++ [quote]

def quotedSpelling (s : Spelling) : String := String.ofList (quotedCodes isPrintable s.toCodes)

def quoted (text : String) : String := quotedSpelling (.chars text)

/-- ASCII characters from the space on, without the last one. -/
def isVisibleAscii (n : Nat) : Bool := 0x20 ≤ n && n < 0x7f

def quotedBytes (bytes : List UInt8) : String :=
  String.ofList ('b' :: quotedCodes isVisibleAscii (bytes.map UInt8.toNat))

end Text
end Cadence
