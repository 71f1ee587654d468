import Cadence.Json.Compact
import Cadence.Proofs.Except
import Cadence.Proofs.Json.Accepted
import Cadence.Proofs.Json.Compact
import Cadence.Service.Field

/-!
# Integer — the integers that requests can write

Whatever spelling a client chooses, an integer that is read has at most 4300 digits. Each integer of
that size has its decimal spelling.

- `Short`: integers within the limit of digits
- `integerOfText_integer`: the decimal spelling of an integer reads back
- `short_of_integer`: what is read is short
-/

namespace Cadence
namespace Service

open Json Number Text

/-- An integer of at most 4300 digits. -/
def Short (n : Int) : Prop := (decimal n.natAbs).length ≤ integerDigits

theorem short_of_natAbs_lt {n : Int} (h : n.natAbs < capacity 19) : Short n := by
  have hlength : (decimal n.natAbs).length ≤ 19 := (length_decimal_le_iff (by decide)).2 h
  exact Nat.le_trans hlength (by decide)

/-! ## Plain integers -/

theorem isPlainNumber_iff {ds : List Char} :
    isPlainNumber ds = true ↔
      ds ≠ [] ∧ (∀ c ∈ ds, isDigit c = true) ∧ (ds.head? = some '0' → ds.length = 1) := by
  simp only [isPlainNumber, Bool.and_eq_true, Bool.or_eq_true, Bool.not_eq_true', bne_iff_ne,
    beq_iff_eq, List.isEmpty_eq_false_iff, List.all_eq_true, and_assoc, ne_eq,
    ← Decidable.imp_iff_not_or]

theorem startsTooLong_eq_false_iff {cs ds : List Char} {negative : Bool}
    (hsplit : splitMinus cs = (negative, ds)) (hdigits : ∀ c ∈ ds, isDigit c = true) :
    startsTooLong cs = false ↔ (ds.head? ≠ some '0' → ds.length ≤ integerDigits) := by
  have htake : ds.takeWhile isDigit = ds := List.takeWhile_eq_self_iff.2 hdigits
  rw [startsTooLong, hsplit, htake, Bool.and_eq_false_iff, decide_eq_false_iff_not, Nat.not_lt,
    bne_eq_false_iff_eq]
  exact Decidable.or_iff_not_imp_right

theorem short_of_plain {cs : List Char} {n : Int} (hlong : startsTooLong cs = false)
    (h : plain? cs = some n) : Short n := by
  rcases hsplit : splitMinus cs with ⟨negative, ds⟩
  simp only [plain?, hsplit] at h
  split at h
  · rename_i hplain
    cases h
    rcases isPlainNumber_iff.1 hplain with ⟨-, hdigits, hzero⟩
    have hlength : ds.length ≤ integerDigits := by
      by_cases hhead : ds.head? = some '0'
      · rw [hzero hhead]
        decide
      · exact (startsTooLong_eq_false_iff hsplit hdigits).1 hlong hhead
    have hshort := length_decimal_valueOf (k := integerDigits) (by decide) hdigits hlength
    cases negative with
    | true => simpa [Short] using hshort
    | false => simpa [Short] using hshort
  · cases h

theorem short_of_integerOfText {text : String} {n : Int} (h : integerOfText text = .ok n) :
    Short n := by
  unfold integerOfText at h
  simp only at h
  split at h
  · cases h
  · rename_i hlong
    split at h
    · rename_i hplain
      cases h
      exact short_of_plain (Bool.eq_false_iff.2 hlong) hplain
    · split at h
      · -- The digits are counted again after the text is cleaned.
        rename_i hclean
        cases h
        rcases Option.bind_eq_some_iff.1 hclean with ⟨cs, hfilter, hplain⟩
        rcases Option.filter_eq_some_iff.1 hfilter with ⟨-, hlong'⟩
        exact short_of_plain (by simpa using hlong') hplain
      · cases h

/-- The decimal spelling of an integer reads back. -/
theorem integerOfText_integer {n : Int} (h : Short n) :
    integerOfText (String.ofList (Json.integer n)) = .ok n := by
  have hsplit : splitMinus (Json.integer n) = (decide (n < 0), decimal n.natAbs) := by
    have hsigned := Json.splitMinus_integer n []
    rwa [List.append_nil, List.append_nil] at hsigned
  have hdigits : ∀ c ∈ decimal n.natAbs, isDigit c = true := fun _ hc => isDigit_of_mem_decimal hc
  have hlong : startsTooLong (Json.integer n) = false :=
    (startsTooLong_eq_false_iff hsplit hdigits).2 fun _ => h
  have hplain : plain? (Json.integer n) = some n := by
    have hnumber : isPlainNumber (decimal n.natAbs) = true := by
      rw [isPlainNumber_iff]
      refine ⟨decimal_ne_nil _, hdigits, ?_⟩
      intro hzero
      -- Only zero begins with the digit zero.
      have hn : n.natAbs = 0 := Classical.byContradiction fun hne => head?_decimal hne hzero
      rw [hn]
      decide
    simp only [plain?, hsplit, hnumber, valueOf_decimal, if_true, Option.some.injEq,
      decide_eq_true_eq]
    split <;> omega
  rw [integerOfText, String.toList_ofList, hlong, hplain]
  rfl

/-! ## Integers of a body -/

theorem short_of_integerOfReal {x : Real64} {n : Int} (h : integerOfReal x = .ok n) : Short n := by
  unfold integerOfReal at h
  split at h
  · cases h
  · split at h
    · cases h
    · split at h
      · cases h
      · rename_i hrange
        cases h
        apply short_of_natAbs_lt
        have hcapacity : capacity 19 = 10000000000000000000 := by decide
        omega

/-- What is read from a value is short, if the value itself is not a long integer. -/
theorem short_of_integer {j : Json} {n : Int} (hj : ∀ m : Int, j = .int m → Short m)
    (h : integer j = .ok n) : Short n := by
  cases j with
  | int m =>
    cases h
    exact hj n rfl
  | bool b =>
    cases h
    cases b <;> exact short_of_natAbs_lt (by decide)
  | real x => exact short_of_integerOfReal h
  | text spelling =>
    cases spelling with
    | chars text => exact short_of_integerOfText (mapError_eq_ok_iff.1 h)
    | codes points => cases h
  | null | array js | object ms => cases h

end Service
end Cadence
