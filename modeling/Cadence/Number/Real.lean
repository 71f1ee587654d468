import Cadence.Text.Blank
import Cadence.Text.DecimalDigit
import Cadence.Text.Digits

/-!
# Real — binary floating-point numbers, exactly

A finite number is an integer below 2^53 times a power of two. Reading a decimal rounds to the
nearest such number, a half to the even one, in exact integer arithmetic.

- `Real64`: the numbers, with infinities and not-a-number
- `Real64.ofDecimal`, `Real64.ofRat`: the number nearest to a decimal or to a rational
- `Real64.toRat?`: the exact value
- `Real64.ofText?`: reads a written number, an infinity or not-a-number
-/

namespace Cadence
namespace Number

open Text

/-- Finite values are `mantissa * 2 ^ exponent`, with the smallest exponent from -1074 on that keeps
the mantissa below 2^53. -/
inductive Real64
  | nan
  | infinite (negative : Bool)
  | finite (negative : Bool) (mantissa : Nat) (exponent : Int)
  deriving DecidableEq, Repr

/-- The integer nearest to `num / den`; of two, the even one. -/
def roundDiv (num den : Nat) : Nat :=
  let q := num / den
  let twice := 2 * (num % den)
  if twice < den then q
  else if den < twice then q + 1
  else if q % 2 = 0 then q
  else q + 1

namespace Real64

def leastExponent : Int := -1074

def greatestExponent : Int := 971

/-- A rounded mantissa and its exponent, carried into the canonical form. -/
def carry (negative : Bool) (mantissa : Nat) (exponent : Int) : Real64 :=
  let (mantissa, exponent) :=
    if mantissa = Nat.pow 2 53 then (Nat.pow 2 52, exponent + 1) else (mantissa, exponent)
  if greatestExponent < exponent then .infinite negative
  else .finite negative mantissa exponent

/-- The number nearest to `num / den`, both positive. -/
def ofRatio (negative : Bool) (num den : Nat) : Real64 :=
  let shift (e : Int) : Nat × Nat :=
    if e < 0 then (num * Nat.pow 2 (-e).toNat, den) else (num, den * Nat.pow 2 e.toNat)
  let coarse := (num.log2 : Int) - den.log2 - 53
  let (n, d) := shift coarse
  let fitting := if n / d < Nat.pow 2 53 then coarse else coarse + 1
  let exponent := max fitting leastExponent
  let (n, d) := shift exponent
  carry negative (roundDiv n d) exponent

/-- The number nearest to `digits * 10 ^ exponent`. Exponents far outside the range of the format
decide the result by themselves. -/
def ofDecimal (negative : Bool) (digits : Nat) (exponent : Int) : Real64 :=
  let size := ((decimal digits).length : Int) + exponent
  if digits = 0 ∨ size < -400 then .finite negative 0 leastExponent
  else if 400 < size then .infinite negative
  else if exponent < 0 then ofRatio negative digits (Nat.pow 10 (-exponent).toNat)
  else ofRatio negative (digits * Nat.pow 10 exponent.toNat) 1

/-- The number nearest to a rational. -/
def ofRat (q : Rat) : Real64 :=
  if q = 0 then .finite false 0 leastExponent else ofRatio (q < 0) q.num.natAbs q.den

/-- The exact value of a finite number. -/
def toRat? : Real64 → Option Rat
  | finite negative mantissa exponent =>
    let size : Rat :=
      if exponent < 0 then mkRat mantissa (Nat.pow 2 (-exponent).toNat)
      else ((mantissa * Nat.pow 2 exponent.toNat : Nat) : Rat)
    some (if negative then -size else size)
  | _ => none

/-- The integer that a number equals. -/
def toInt? (x : Real64) : Option Int := do
  let r ← x.toRat?
  if r.den = 1 then some r.num else none

/-! ## Reading -/

/-- Reads an exponent: nothing, or `e` with an optional sign and at least one digit. -/
def exponent? (cs : List Char) : Option (Int × List Char) :=
  let signed (sign : Int) (cs : List Char) : Option (Int × List Char) :=
    match cs.takeWhile isDigit with
    | [] => none
    | ds => some (sign * valueOf ds, cs.dropWhile isDigit)
  match cs with
  | 'e' :: cs | 'E' :: cs =>
    match cs with
    | '-' :: cs => signed (-1) cs
    | '+' :: cs => signed 1 cs
    | cs => signed 1 cs
  | cs => some (0, cs)

def unsigned? (negative : Bool) (cs : List Char) : Option Real64 := do
  let whole := cs.takeWhile isDigit
  let cs := cs.dropWhile isDigit
  let (fraction, cs) :=
    match cs with
    | '.' :: cs => (cs.takeWhile isDigit, cs.dropWhile isDigit)
    | cs => ([], cs)
  if whole.isEmpty && fraction.isEmpty then none
  else
    let (exponent, []) ← exponent? cs | none
    return ofDecimal negative (valueOf (whole ++ fraction)) (exponent - fraction.length)

def magnitude? (negative : Bool) (cs : List Char) : Option Real64 :=
  let word := String.ofList (cs.map Char.toLower)
  if word = "inf" ∨ word = "infinity" then some (.infinite negative)
  else if word = "nan" then some .nan
  else unsigned? negative cs

/-- Reads a sign, which may be absent, and a magnitude. -/
def signed? (cs : List Char) : Option Real64 :=
  match cs with
  | '-' :: cs => magnitude? true cs
  | '+' :: cs => magnitude? false cs
  | cs => magnitude? false cs

/-- A decimal digit of any script as the one of ASCII. -/
def plainDigit (c : Char) : Char := (decimalValue? c).elim c digitChar

/-- Drops the underscores; each of them stands between two digits. `inside` tells whether a digit
came last. -/
def withoutJoints? (inside : Bool) : List Char → Option (List Char)
  | [] => some []
  | '_' :: cs =>
    if inside && cs.head?.any isDigit then withoutJoints? false cs else none
  | c :: cs => (withoutJoints? (isDigit c) cs).map (c :: ·)

/-- Reads a text, around which white space may stand. -/
def ofText? (text : String) : Option Real64 :=
  (withoutJoints? false ((trim isBlank text.toList).map plainDigit)).bind signed?

end Real64

end Number
end Cadence
