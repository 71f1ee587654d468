import Cadence.Calendar.Moment
import Cadence.Number.Real

/-!
# Stamp — dates as clients write them

A date is written as such, as a date and a time of day that is midnight, or as a number of seconds
since 1970-01-01, beyond twenty thousand million as one of milliseconds. Zones may be given and do
not matter.

- `dateOfText`, `dateOfInteger`, `dateOfReal`: read a date
- `StampError`: no date, a time that is not midnight, or the year 0
-/

namespace Cadence
namespace Service

open Calendar Number Text

inductive StampError
  | malformed
  | notMidnight
  | yearZero
  deriving DecidableEq, Repr

/-! ## Times of day -/

/-- Digits of a second's fraction, cut after six, in microseconds. -/
def microseconds (ds : List Char) : Nat :=
  valueOf ((ds ++ List.replicate 6 '0').take 6)

/-- Reads `HH:MM`, perhaps with seconds, perhaps with a fraction of them. -/
def clock? (cs : List Char) : Option (Clock × List Char) := do
  let (hour, cs) ← fixed? 2 cs
  let ':' :: cs := cs | none
  let (minute, cs) ← fixed? 2 cs
  if 23 < hour ∨ 59 < minute then none
  match cs with
  | ':' :: cs =>
    let (second, cs) ← fixed? 2 cs
    if 59 < second then none
    match cs with
    | '.' :: cs | ',' :: cs =>
      let ds := cs.takeWhile isDigit
      if ds.isEmpty then none
      return (⟨hour, minute, second, microseconds ds⟩, cs.dropWhile isDigit)
    | cs => return (⟨hour, minute, second, 0⟩, cs)
  | cs => return (⟨hour, minute, 0, 0⟩, cs)

/-- Whether a text is a distance from universal time below one day. -/
def isDistance (cs : List Char) : Bool :=
  match fixed? 2 cs with
  | none => false
  | some (hour, cs) =>
    match fixed? 2 (if cs.head? = some ':' then cs.drop 1 else cs) with
    | some (minute, []) => hour < 24 && minute < 60
    | _ => false

/-- Whether a text is a time zone, which may be absent. -/
def isZone (cs : List Char) : Bool :=
  match cs with
  | [] | ['Z'] | ['z'] => true
  | '+' :: cs | '-' :: cs | '−' :: cs => isDistance cs
  | _ => false

/-! ## Dates -/

/-- The date that a year, a month and a day name; the year 0 has days, but no dates. -/
def dateOfCivil (year month day : Nat) : Except StampError Date :=
  match Date.ofCivil? year month day with
  | some d => .ok d
  | none =>
    if year = 0 ∧ 1 ≤ month ∧ month ≤ 12 ∧ 1 ≤ day ∧ day ≤ monthLength 0 month then .error .yearZero
    else .error .malformed

/-- Reads what follows a date: a separator, a time and a zone. -/
def isMidnight? (cs : List Char) : Option Bool := do
  let sep :: cs := cs | none
  if ¬['T', 't', ' ', '_'].contains sep then none
  let (t, cs) ← clock? cs
  if !isZone cs then none
  return t == ⟨0, 0, 0, 0⟩

/-- Days from 0001-01-01 to 1970-01-01. -/
def unixEpoch : Int := (daysBeforeYear 1969 : Int)

/-- The date whose midnight lies some microseconds after that of 1970-01-01. -/
def dateOfMicros (micros : Int) : Except StampError Date :=
  let day := unixEpoch + micros / 86400000000
  -- The year 0 is a leap year.
  if day < -366 ∨ (dayCount : Int) ≤ day then .error .malformed
  else if micros % 86400000000 ≠ 0 then .error .notMidnight
  else
    match Date.ofSerial? day with
    | some d => .ok d
    | none => .error .yearZero

/-- Greatest number that counts seconds. -/
def watershed : Nat := 20000000000

def dateOfInteger (n : Int) : Except StampError Date :=
  dateOfMicros (if watershed < n.natAbs then n * 1000 else n * 1000000)

/-- The value of the floating-point number nearest to `q`. -/
def rounded (q : Rat) : Rat := (Real64.ofRat q).toRat?.getD q

/-- A floating-point number of seconds or milliseconds in microseconds. What exceeds the whole
seconds is rounded to microseconds, a half up; each step of that is a floating-point computation. -/
def microsOfReal (q : Rat) : Int :=
  let unit : Nat := if (watershed : Rat) < q ∨ q < -(watershed : Rat) then 1000 else 1
  let whole := (q / unit).floor
  let excess := rounded (q - whole * unit)
  whole * 1000000 + (rounded (excess * (1000000 / unit)) + 1 / 2).floor

def dateOfReal (x : Real64) : Except StampError Date :=
  match x.toRat? with
  | some q => dateOfMicros (microsOfReal q)
  | none => .error .malformed

/-- Reads an integer, or a floating-point number if there is a point in front of the first other
character that is no digit. -/
def dateOfNumeral (cs : List Char) : Except StampError Date :=
  let (negative, ds) :=
    match cs with
    | '-' :: cs => (true, cs)
    | '+' :: cs => (false, cs)
    | cs => (false, cs)
  match ds.dropWhile isDigit with
  | [] =>
    if ds.isEmpty then .error .malformed
    else dateOfInteger (if negative then -(valueOf ds : Int) else valueOf ds)
  | '.' :: _ => ((Real64.unsigned? negative ds).map dateOfReal).getD (.error .malformed)
  | _ => .error .malformed

def dateOfText (text : String) : Except StampError Date :=
  let cs := text.toList
  -- A text that only begins like a date is read as a number, and refused as one.
  match civil? cs with
  | none => dateOfNumeral cs
  | some ((year, month, day), rest) =>
    match rest with
    | [] => dateOfCivil year month day
    | rest =>
      match isMidnight? rest with
      | none => dateOfNumeral cs
      | some midnight =>
        match dateOfCivil year month day with
        | .error .malformed => .error .malformed
        | d => if midnight then d else .error .notMidnight

end Service
end Cadence
