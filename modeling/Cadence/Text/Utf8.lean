/-!
# Utf8 — characters of bytes, whatever the bytes are

A character of UTF-8 is a leading byte and up to three more, each in a range that the leading byte
sets. Where a byte does not fit, what was read of the character so far is replaced as a whole, and
the byte is read again as the first of another one.

- `decodeUtf8`: the characters of some bytes
- `Unfinished`: the part of a character that has been read
-/

namespace Cadence
namespace Text

/-- The character that stands for bytes that are none. -/
def replacement : Char := Char.ofNat 0xfffd

/-- The bits of a character read so far, and the ranges of the bytes that are missing. -/
structure Unfinished where
  bits : Nat
  next : Nat × Nat
  later : List (Nat × Nat)
  deriving DecidableEq, Repr

/-- Bytes after the first, unless the first sets a smaller range. -/
def anyLater : Nat × Nat := (0x80, 0xbf)

/-- What a leading byte starts; the smaller ranges leave out spellings that are too long, halves of
surrogate pairs and numbers above U+10FFFF. -/
def leading? (b : Nat) : Option Unfinished :=
  if 0xc2 ≤ b ∧ b ≤ 0xdf then some ⟨b % 32, anyLater, []⟩
  else if b = 0xe0 then some ⟨b % 16, (0xa0, 0xbf), [anyLater]⟩
  else if b = 0xed then some ⟨b % 16, (0x80, 0x9f), [anyLater]⟩
  else if 0xe1 ≤ b ∧ b ≤ 0xef then some ⟨b % 16, anyLater, [anyLater]⟩
  else if b = 0xf0 then some ⟨b % 8, (0x90, 0xbf), [anyLater, anyLater]⟩
  else if 0xf1 ≤ b ∧ b ≤ 0xf3 then some ⟨b % 8, anyLater, [anyLater, anyLater]⟩
  else if b = 0xf4 then some ⟨b % 8, (0x80, 0x8f), [anyLater, anyLater]⟩
  else none

/-- The characters that a byte completes, and what it leaves unfinished. -/
abbrev Decoded := List Char × Option Unfinished

def firstByte (b : Nat) : Decoded :=
  if b < 0x80 then ([Char.ofNat b], none)
  else
    match leading? b with
    | some u => ([], some u)
    | none => ([replacement], none)

def laterByte (u : Unfinished) (b : Nat) : Decoded :=
  if u.next.1 ≤ b ∧ b ≤ u.next.2 then
    let bits := 64 * u.bits + b % 64
    match u.later with
    | [] => ([Char.ofNat bits], none)
    | next :: later => ([], some ⟨bits, next, later⟩)
  else
    let (cs, rest) := firstByte b
    (replacement :: cs, rest)

def decodeFrom : Option Unfinished → List UInt8 → List Char
  | none, [] => []
  | some _, [] => [replacement]
  | none, b :: bs => let (cs, u) := firstByte b.toNat; cs ++ decodeFrom u bs
  | some u, b :: bs => let (cs, u) := laterByte u b.toNat; cs ++ decodeFrom u bs

def decodeUtf8 (bytes : List UInt8) : List Char := decodeFrom none bytes

end Text
end Cadence
