import Cadence.Calendar.Date
import Cadence.Text.Digits

/-!
# Moment — dates with or without a time of day, and their written form

A date is written `YYYY-MM-DD`. A time of day follows it after a `T` as `HH:MM:SS`, with six digits
of a second's fraction when that is not zero.

- `Moment`: a date and perhaps a time of day
- `Date.iso`, `Moment.iso`: the written forms
- `Date.ofIso?`, `Moment.ofIso?`: their readers
-/

namespace Cadence
namespace Calendar

open Text

structure Clock where
  hour : Nat
  minute : Nat
  second : Nat
  micro : Nat
  deriving DecidableEq, Repr

structure Moment where
  date : Date
  clock : Option Clock := none
  deriving DecidableEq, Repr

/-! ## Written forms -/

def Date.iso (d : Date) : String :=
  String.ofList
    (padded 4 d.year ++ '-' :: padded 2 d.month.number ++ '-' :: padded 2 d.day)

def Clock.iso (t : Clock) : String :=
  String.ofList
    (padded 2 t.hour ++ ':' :: padded 2 t.minute ++ ':' :: padded 2 t.second ++
      if t.micro = 0 then [] else '.' :: padded 6 t.micro)

def Moment.iso (m : Moment) : String :=
  match m.clock with
  | none => m.date.iso
  | some t => m.date.iso ++ "T" ++ t.iso

/-! ## Readers -/

/-- Reads `YYYY-MM-DD` as three numbers, whether or not they name a date. -/
def civil? (cs : List Char) : Option ((Nat × Nat × Nat) × List Char) := do
  let (year, cs) ← fixed? 4 cs
  let '-' :: cs := cs | none
  let (month, cs) ← fixed? 2 cs
  let '-' :: cs := cs | none
  let (day, cs) ← fixed? 2 cs
  return ((year, month, day), cs)

def Date.ofIso? (text : String) : Option Date := do
  let ((year, month, day), []) ← civil? text.toList | none
  Date.ofCivil? year month day

def Clock.ofIso? (cs : List Char) : Option Clock := do
  let (hour, cs) ← fixed? 2 cs
  let ':' :: cs := cs | none
  let (minute, cs) ← fixed? 2 cs
  let ':' :: cs := cs | none
  let (second, cs) ← fixed? 2 cs
  match cs with
  | [] => return ⟨hour, minute, second, 0⟩
  | '.' :: cs =>
    let (micro, []) ← fixed? 6 cs | none
    return ⟨hour, minute, second, micro⟩
  | _ => none

def Moment.ofIso? (text : String) : Option Moment := do
  let ((year, month, day), cs) ← civil? text.toList
  let date ← Date.ofCivil? year month day
  match cs with
  | [] => return ⟨date, none⟩
  | 'T' :: cs => return ⟨date, some (← Clock.ofIso? cs)⟩
  | _ => none

end Calendar
end Cadence
