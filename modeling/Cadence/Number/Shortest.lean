import Cadence.Number.Real

/-!
# Shortest — the shortest decimal that reads back

Among the decimals that round to a number, the written one has the fewest digits and is the nearest
of those. For each digit count only the two neighbours of the number on that decimal grid are tried.

- `shortest`: the digits and the place of the point
- `Layout`: the decisions of a written form
- `Real64.text`: the form used in messages
-/

namespace Cadence
namespace Number

open Text

/-! ## Digits -/

/-- A positive number between the bounds of the interval that rounds to it, all over one
denominator. The bounds themselves round to it when `closed`. -/
structure Interval where
  low : Nat
  mid : Nat
  high : Nat
  den : Nat
  closed : Bool

/-- The interval around `mantissa * 2 ^ exponent`. Below a power of two the numbers lie twice as
dense. -/
def Interval.around (mantissa : Nat) (exponent : Int) : Interval :=
  -- The bounds lie halfway to the neighbours. In quarters of a unit all three are integers.
  let gap := if mantissa = Nat.pow 2 52 ∧ Real64.leastExponent < exponent then 1 else 2
  let up := if exponent < 2 then 1 else Nat.pow 2 (exponent - 2).toNat
  let down := if exponent < 2 then Nat.pow 2 (2 - exponent).toNat else 1
  { low := (4 * mantissa - gap) * up
    mid := 4 * mantissa * up
    high := (4 * mantissa + 2) * up
    den := down
    closed := mantissa % 2 = 0 }

/-- Whether `num / den` lies in the interval. -/
def Interval.holds (i : Interval) (num den : Nat) : Bool :=
  if i.closed then i.low * den ≤ num * i.den && num * i.den ≤ i.high * den
  else i.low * den < num * i.den && num * i.den < i.high * den

/-- The exponent of the first digit: the greatest `e` with `10 ^ e` at most `num / den`. -/
def leadingExponent (num den : Nat) : Int :=
  if den ≤ num then ((decimal (num / den)).length : Int) - 1
  else
    -- No positive number of 64 bits is below 10 ^ -399.
    match (List.range 400).find? fun j => den ≤ num * Nat.pow 10 j with
    | some j => -(j : Int)
    | none => 0

/-- The nearest decimal of `count` digits inside the interval, as its digits and its last exponent.
-/
def Interval.onGrid? (i : Interval) (lead : Int) (count : Nat) : Option (Nat × Int) :=
  let last := lead - count + 1
  let up := if last < 0 then 1 else Nat.pow 10 last.toNat
  let down := if last < 0 then Nat.pow 10 (-last).toNat else 1
  let below := i.mid * down / (i.den * up)
  let rest := i.mid * down % (i.den * up)
  let lower := i.holds (below * up) down
  let upper := i.holds ((below + 1) * up) down
  let nearerAbove := i.den * up < 2 * rest ∨ (i.den * up = 2 * rest ∧ below % 2 = 1)
  if lower ∧ upper then some (if nearerAbove then below + 1 else below, last)
  else if lower then some (below, last)
  else if upper then some (below + 1, last)
  else none

/-- The shortest decimal that rounds to `mantissa * 2 ^ exponent`: its digits, and the exponent of a
point in front of them. -/
def shortest (mantissa : Nat) (exponent : Int) : List Char × Int :=
  let i := Interval.around mantissa exponent
  let lead := leadingExponent i.mid i.den
  -- Seventeen digits tell any two numbers of 64 bits apart.
  match (List.range 17).findSome? fun k => i.onGrid? lead (k + 1) with
  | some (digits, last) =>
    let ds := decimal digits
    let kept := (ds.reverse.dropWhile (· == '0')).reverse
    (kept, last + ds.length)
  | none => ([], 0)

/-! ## Written form -/

/-- Decisions of a written form. -/
structure Layout where
  /-- Exponents of the point up to this one, or above `pointUpTo`, are written out. -/
  pointAbove : Int
  pointUpTo : Int
  /-- Least number of digits of a written exponent. -/
  exponentWidth : Nat
  nan : String
  infinity : String

/-- Messages write the point in place from 0.0001 up to sixteen digits, keep one decimal place, and
give exponents a sign and at least two digits. -/
def Layout.message : Layout := ⟨-4, 16, 2, "nan", "inf"⟩

namespace Layout

def inPlace (digits : List Char) (point : Int) : List Char :=
  if point ≤ 0 then '0' :: '.' :: (List.replicate (-point).toNat '0' ++ digits)
  else
    let whole := digits.take point.toNat
    let fraction := digits.drop point.toNat
    whole ++ List.replicate (point.toNat - whole.length) '0' ++
      '.' :: (if fraction.isEmpty then ['0'] else fraction)

def withExponent (l : Layout) (digits : List Char) (point : Int) : List Char :=
  let size := (point - 1).natAbs
  let written := decimal size
  digits.take 1 ++ (if digits.length ≤ 1 then [] else '.' :: digits.drop 1) ++
    ['e', if point < 1 then '-' else '+'] ++
    List.replicate (l.exponentWidth - written.length) '0' ++ written

def finite (l : Layout) (mantissa : Nat) (exponent : Int) : List Char :=
  if mantissa = 0 then ['0', '.', '0']
  else
    let (digits, point) := shortest mantissa exponent
    if l.pointAbove < point ∧ point ≤ l.pointUpTo then inPlace digits point
    else l.withExponent digits point

end Layout

def Real64.text (l : Layout) (x : Real64) : String :=
  let signed (negative : Bool) (s : String) : String := if negative then "-" ++ s else s
  match x with
  | nan => l.nan
  | infinite negative => signed negative l.infinity
  | finite negative mantissa exponent =>
    signed negative (String.ofList (l.finite mantissa exponent))

end Number
end Cadence
