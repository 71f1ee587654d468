import Cadence.Text.Spelling

/-!
# Encoding — code points of bytes

Bytes of JSON text start with a character of ASCII, mostly with two. Where the zeros among the first
four bytes stand tells the width of the units and the order of their bytes.

- `Encoding.detect`: the encoding of some bytes
- `Encoding.decode?`: their code points; halves of surrogate pairs pass
-/

namespace Cadence
namespace Text

inductive ByteOrder
  | big
  | little
  deriving DecidableEq, Repr

/-- The number that bytes spell, the first of them the highest or the lowest. -/
def ByteOrder.number (order : ByteOrder) (bytes : List UInt8) : Nat :=
  match order with
  | big => bytes.foldl (fun n b => 256 * n + b.toNat) 0
  | little => bytes.foldr (fun b n => 256 * n + b.toNat) 0

inductive Encoding
  | utf8
  | utf16 (order : ByteOrder)
  | utf32 (order : ByteOrder)
  deriving DecidableEq, Repr

namespace Encoding

def detect : List UInt8 → Encoding
  | a :: b :: c :: d :: _ =>
    if a = 0 then if b = 0 then utf32 .big else utf16 .big
    else if b = 0 then if c = 0 ∧ d = 0 then utf32 .little else utf16 .little
    else utf8
  | [a, b] => if a = 0 then utf16 .big else if b = 0 then utf16 .little else utf8
  | _ => utf8

end Encoding

/-! ## Decoding -/

def units16? (order : ByteOrder) : List UInt8 → Option (List Nat)
  | [] => some []
  | a :: b :: bytes => (units16? order bytes).map (order.number [a, b] :: ·)
  | [_] => none

def units32? (order : ByteOrder) : List UInt8 → Option (List Nat)
  | [] => some []
  | a :: b :: c :: d :: bytes => do
    let n := order.number [a, b, c, d]
    if 0x10ffff < n then none
    return n :: (← units32? order bytes)
  | _ => none

/-- The code points of a text in UTF-8 whose bytes are read in an encoding. -/
def Encoding.decode? (e : Encoding) (text : String) : Option (List Nat) :=
  match e with
  | utf8 => some (codesOf text)
  | utf16 order => (units16? order text.toUTF8.data.toList).map joined
  | utf32 order => units32? order text.toUTF8.data.toList

end Text
end Cadence
