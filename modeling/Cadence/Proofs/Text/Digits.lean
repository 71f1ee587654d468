import Cadence.Text.Digits

/-!
# Digits — how long a number is, and how large its digits make it

- `isDigit_of_mem_decimal`, `head?_decimal`: a written number is made of digits, without leading
  zeros
- `valueOf_lt`: digits spell a number below their capacity
- `length_decimal_le_iff`, `length_decimal_capacity`: and a number below a capacity has no more
  digits
-/

namespace Cadence
namespace Text

theorem isDigit_of_mem_decimal {n : Nat} {c : Char} (h : c ∈ decimal n) : isDigit c = true :=
  Nat.isDigit_of_mem_toDigits (b := 10) (by decide) (by decide) h

theorem decimal_ne_nil (n : Nat) : decimal n ≠ [] := Nat.toDigits_ne_nil

theorem capacity_eq_pow (width : Nat) : capacity width = Nat.pow 10 width := by
  induction width with
  | zero => rfl
  | succ width ih =>
    rw [capacity, ih]
    exact Nat.mul_comm 10 (Nat.pow 10 width)

theorem capacity_mono {v w : Nat} (h : v ≤ w) : capacity v ≤ capacity w := by
  rw [capacity_eq_pow, capacity_eq_pow]
  exact Nat.pow_le_pow_right (by decide) h

theorem length_decimal_le_iff {n k : Nat} (h : 0 < k) :
    (decimal n).length ≤ k ↔ n < capacity k := by
  rw [capacity_eq_pow]
  exact Nat.length_toDigits_le_iff (by decide) h

/-- The least number beyond a capacity has one digit more. -/
theorem length_decimal_capacity {k : Nat} (h : 0 < k) : (decimal (capacity k)).length = k + 1 := by
  have hpos : 0 < capacity k := by
    rw [capacity_eq_pow]
    exact Nat.pow_pos (by decide)
  have hle : (decimal (capacity k)).length ≤ k + 1 :=
    (length_decimal_le_iff (by omega)).2 (by rw [capacity]; omega)
  have hlt : ¬(decimal (capacity k)).length ≤ k := by
    rw [length_decimal_le_iff h]
    exact Nat.lt_irrefl _
  omega

/-- Only zero begins with the digit zero. -/
theorem head?_decimal {n : Nat} (h : n ≠ 0) : (decimal n).head? ≠ some '0' := by
  induction n using Nat.strongRecOn with
  | ind n ih =>
    unfold decimal at ih ⊢
    rw [Nat.toDigits_eq_if (by decide)]
    split
    · simpa using h
    · -- The first digit is that of the number without its last digit.
      rw [List.head?_append, Option.or_of_isSome (by simp)]
      exact ih (n / 10) (by omega) (by omega)

theorem digitValue_le {c : Char} (h : isDigit c = true) : c.toNat - '0'.toNat ≤ 9 := by
  simp only [isDigit, Bool.and_eq_true, decide_eq_true_eq, Char.le_def, UInt32.le_iff_toNat_le] at h
  have hnine : c.toNat ≤ '9'.toNat := h.2
  exact Nat.sub_le_sub_right hnine '0'.toNat

theorem valueOf_lt {cs : List Char} (h : ∀ c ∈ cs, isDigit c = true) :
    valueOf cs < capacity cs.length := by
  induction cs with
  | nil => exact Nat.one_pos
  | cons c cs ih =>
    have hc : c.toNat - '0'.toNat ≤ 9 := digitValue_le (h c List.mem_cons_self)
    have hcs : valueOf cs < capacity cs.length := ih fun x hx => h x (List.mem_cons_of_mem c hx)
    -- The first digit counts the full capacities of the digits after it.
    have hcons : valueOf (c :: cs) = capacity cs.length * (c.toNat - '0'.toNat) + valueOf cs := by
      unfold valueOf
      rw [Nat.ofDigitChars_cons, Nat.ofDigitChars_eq_ofDigitChars_zero, capacity_eq_pow,
        Nat.mul_zero, Nat.zero_add]
      rfl
    have hmul : capacity cs.length * (c.toNat - '0'.toNat) ≤ capacity cs.length * 9 :=
      Nat.mul_le_mul_left _ hc
    rw [hcons, List.length_cons, capacity]
    omega

end Text
end Cadence
