/-!
# Digits — decimal numbers in ASCII

- `decimal`: a natural number without leading zeros
- `padded`: a natural number at a fixed width
- `fixed?`: reads a number of a fixed width and returns what follows
- `valueOf`: the number a run of digits spells
- `splitMinus`: takes a minus sign off a text
-/

namespace Cadence
namespace Text

def isDigit (c : Char) : Bool := '0' ≤ c && c ≤ '9'

def digitValue (c : Char) : Nat := c.toNat - '0'.toNat

def digitChar (n : Nat) : Char := Char.ofNat ('0'.toNat + n % 10)

def valueOf (digits : List Char) : Nat := Nat.ofDigitChars 10 digits 0

def decimal (n : Nat) : List Char := Nat.toDigits 10 n

theorem valueOf_decimal (n : Nat) : valueOf (decimal n) = n :=
  Nat.ofDigitChars_toDigits (by decide) (by decide)

/-- Whether a minus sign is in front, and what follows it. -/
def splitMinus (cs : List Char) : Bool × List Char :=
  match cs with
  | '-' :: cs => (true, cs)
  | cs => (false, cs)

/-- How many numbers `width` digits can write. -/
def capacity : Nat → Nat
  | 0 => 1
  | width + 1 => 10 * capacity width

/-- The last `width` digits of `n`. -/
def padded : Nat → Nat → List Char
  | 0, _ => []
  | width + 1, n => padded width (n / 10) ++ [digitChar n]

def fixedFrom (value : Nat) : Nat → List Char → Option (Nat × List Char)
  | 0, cs => some (value, cs)
  | _ + 1, [] => none
  | width + 1, c :: cs =>
    if isDigit c then fixedFrom (10 * value + digitValue c) width cs else none

/-- Reads exactly `width` digits. -/
def fixed? (width : Nat) (cs : List Char) : Option (Nat × List Char) := fixedFrom 0 width cs

theorem isDigit_digitChar (n : Nat) : isDigit (digitChar n) = true := by
  have h : n % 10 < 10 := Nat.mod_lt _ (by decide)
  unfold digitChar
  generalize n % 10 = r at *
  match r, h with
  | 0, _ | 1, _ | 2, _ | 3, _ | 4, _ | 5, _ | 6, _ | 7, _ | 8, _ | 9, _ => decide

theorem digitValue_digitChar (n : Nat) : digitValue (digitChar n) = n % 10 := by
  have h : n % 10 < 10 := Nat.mod_lt _ (by decide)
  unfold digitChar
  generalize n % 10 = r at *
  match r, h with
  | 0, _ | 1, _ | 2, _ | 3, _ | 4, _ | 5, _ | 6, _ | 7, _ | 8, _ | 9, _ => decide

theorem mod_capacity_succ (width n : Nat) :
    n % capacity (width + 1) = 10 * (n / 10 % capacity width) + n % 10 := by
  rw [capacity, Nat.mod_mul]
  omega

theorem fixedFrom_append (value width width' n : Nat) (cs : List Char) :
    fixedFrom value (width + width') (padded width n ++ cs) =
      fixedFrom (capacity width * value + n % capacity width) width' cs := by
  induction width generalizing n cs width' with
  | zero => simp [padded, capacity, Nat.mod_one]
  | succ width ih =>
    rw [padded, List.append_assoc, Nat.add_assoc, Nat.add_comm 1 width', ih]
    simp only [List.singleton_append, fixedFrom, isDigit_digitChar, digitValue_digitChar, if_true]
    rw [mod_capacity_succ, Nat.mul_add, ← Nat.mul_assoc, Nat.add_assoc]
    rfl

/-- A number that fits reads back. -/
theorem fixed?_padded {width n : Nat} (h : n < capacity width) (cs : List Char) :
    fixed? width (padded width n ++ cs) = some (n, cs) := by
  have := fixedFrom_append 0 width 0 n cs
  rw [Nat.add_zero] at this
  rw [fixed?, this, Nat.mod_eq_of_lt h]
  simp [fixedFrom]

end Text
end Cadence
