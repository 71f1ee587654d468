/-!
# Spelling — texts and near-texts made of code points

Code points from U+D800 to U+DFFF are halves of surrogate pairs. A half after its partner stands for
one character with it. A half that is left alone is no character, so what holds one is no text.

- `codesOf`: the code points of a text
- `joined`: joins the pairs in a list of code points
- `Spelling`: a text, or code points with a lone half among them
-/

namespace Cadence
namespace Text

def codesOf (text : String) : List Nat := text.toList.map Char.toNat

/-! ## Surrogate pairs -/

def isHighHalf (n : Nat) : Bool := 0xd800 ≤ n && n ≤ 0xdbff

def isLowHalf (n : Nat) : Bool := 0xdc00 ≤ n && n ≤ 0xdfff

def isHalf (n : Nat) : Bool := isHighHalf n || isLowHalf n

/-- The code point that a high and a low half stand for. -/
def pairOf (high low : Nat) : Nat := 0x10000 + (high - 0xd800) * 0x400 + (low - 0xdc00)

/-- Joins each high half with the low half after it. -/
def joined : List Nat → List Nat
  | h :: l :: ns =>
    if isHighHalf h && isLowHalf l then pairOf h l :: joined ns else h :: joined (l :: ns)
  | ns => ns

/-! ## Spellings -/

inductive Spelling
  | chars (text : String)
  | codes (points : List Nat)
  deriving DecidableEq, Repr

namespace Spelling

instance : Coe String Spelling := ⟨chars⟩

/-- A text, unless a code point is half of a pair. -/
def ofCodes (points : List Nat) : Spelling :=
  if points.any isHalf then codes points else chars (String.ofList (points.map Char.ofNat))

def toCodes : Spelling → List Nat
  | chars text => codesOf text
  | codes points => points

def isText : Spelling → Bool
  | chars _ => true
  | codes _ => false

end Spelling

end Text
end Cadence
