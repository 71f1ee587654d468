import Mathlib.Data.List.Infix
import Cadence.Settings

/-!
# Case — texts in lower and in upper case

The program changes the case of ASCII letters, and of two more letters on the way to upper case.
Unicode has case for many other letters, and its rules look at whole texts: one letter may become
several, and a sigma is written as its place in the word asks. `LowerCase` and `UpperCase` collect
what these rules say about letters of ASCII and about digits. What is read off a text is then the
same for every function that follows them.

- `LowerCase`, `UpperCase`: functions that change case
- `LowerCase.eq_map_toLower`, `UpperCase.flatMap_eq_iff`: where they agree with what the program
  does
- `lowerCase_toLower`, `upperCase_capital`: what the program does is an instance
-/

namespace Cadence
namespace Text

variable {c : Char} {cs : List Char}

/-! ## Letters of ASCII -/

theorem toLower_cases (c : Char) :
    c.toLower = c ∨ 65 ≤ c.toNat ∧ c.toNat ≤ 90 ∧ c.toLower.toNat = c.toNat + 32 := by
  unfold Char.toLower
  split
  · rename_i h
    have hlow : 65 ≤ c.toNat := UInt32.le_iff_toNat_le.1 h.1
    have hhigh : c.toNat ≤ 90 := UInt32.le_iff_toNat_le.1 h.2
    refine .inr ⟨hlow, hhigh, ?_⟩
    show (c.val + ('a'.val - 'A'.val)).toNat = c.toNat + 32
    rw [UInt32.toNat_add]
    exact Nat.mod_eq_of_lt (by show c.toNat + 32 < 2 ^ 32; omega)
  · exact .inl rfl

theorem toUpper_of_foreign (h : 128 ≤ c.toNat) : c.toUpper = c := by
  unfold Char.toUpper
  rw [dif_neg]
  rintro ⟨-, hhigh⟩
  have hletter : c.toNat ≤ 122 := UInt32.le_iff_toNat_le.1 hhigh
  omega

theorem toLower_of_foreign (h : 128 ≤ c.toNat) : c.toLower = c := by
  rcases toLower_cases c with hsame | ⟨-, hletter, -⟩
  · exact hsame
  · omega

theorem isBlank_of_letter (hlow : 65 ≤ c.toNat) (hhigh : c.toNat ≤ 122) : isBlank c = false := by
  simp only [isBlank, isSpace, Bool.or_eq_false_iff, Bool.and_eq_false_iff, decide_eq_false_iff_not,
    beq_eq_false_iff_ne]
  omega

theorem zeros_apart_from_letters :
    decimalZeros.all (fun z => z + 10 ≤ 65 || 122 < z) = true := by decide

theorem digits_apart_from_letters :
    otherDigits.all (fun r => r.2 < 65 || 122 < r.1) = true := by decide

theorem isAnyDigit_of_letter (hlow : 65 ≤ c.toNat) (hhigh : c.toNat ≤ 122) :
    isAnyDigit c = false := by
  have hdecimal : decimalValue? c = none := by
    rw [decimalValue?, Option.map_eq_none_iff, List.find?_eq_none]
    intro z hz
    have hapart := List.all_eq_true.1 zeros_apart_from_letters z hz
    simp only [Bool.or_eq_true, Bool.and_eq_true, decide_eq_true_eq] at hapart ⊢
    omega
  rw [isAnyDigit, hdecimal, Option.isSome_none, Bool.false_or, List.any_eq_false]
  intro r hr
  have hapart := List.all_eq_true.1 digits_apart_from_letters r hr
  simp only [Bool.or_eq_true, Bool.and_eq_true, decide_eq_true_eq] at hapart ⊢
  omega

theorem isBlank_toLower (c : Char) : isBlank c.toLower = isBlank c := by
  rcases toLower_cases c with hsame | ⟨hlow, hhigh, hmoved⟩
  · rw [hsame]
  · rw [isBlank_of_letter hlow (by omega), isBlank_of_letter (by omega) (by omega)]

theorem isAnyDigit_toLower (c : Char) : isAnyDigit c.toLower = isAnyDigit c := by
  rcases toLower_cases c with hsame | ⟨hlow, hhigh, hmoved⟩
  · rw [hsame]
  · rw [isAnyDigit_of_letter hlow (by omega), isAnyDigit_of_letter (by omega) (by omega)]

theorem toLower_of_isAnyDigit (h : isAnyDigit c = true) : c.toLower = c := by
  rcases toLower_cases c with hsame | ⟨hlow, hhigh, -⟩
  · exact hsame
  · rw [isAnyDigit_of_letter hlow (by omega)] at h
    cases h

theorem map_toLower_of_digits (h : cs.all isAnyDigit = true) : cs.map Char.toLower = cs := by
  refine (List.map_congr_left fun c hc => ?_).trans (List.map_id cs)
  exact toLower_of_isAnyDigit (List.all_eq_true.1 h c hc)

theorem foreign_or_ascii (cs : List Char) :
    (∃ c ∈ cs, 128 ≤ c.toNat) ∨ ∀ c ∈ cs, c.toNat < 128 := by
  by_cases h : ∃ c ∈ cs, 128 ≤ c.toNat
  · exact .inl h
  · exact .inr fun c hc => Nat.lt_of_not_le fun hforeign => h ⟨c, hc, hforeign⟩

/-! ## Lower case -/

/-- A change of texts to lower case. Of the letters outside ASCII, only the sign of the kelvin
becomes a letter of ASCII. Digits have no case. -/
structure LowerCase (lower : List Char → List Char) : Prop where
  ascii {cs : List Char} : (∀ c ∈ cs, c.toNat < 128) → lower cs = cs.map Char.toLower
  foreign {c : Char} {cs : List Char} :
    c ∈ cs → 128 ≤ c.toNat → (∃ d ∈ lower cs, 128 ≤ d.toNat) ∨ 'k' ∈ lower cs
  digits {cs : List Char} : cs.all isAnyDigit = true → lower cs = cs
  of_digits {cs : List Char} : (lower cs).all isAnyDigit = true → cs.all isAnyDigit = true

theorem lowerCase_toLower : LowerCase (List.map Char.toLower) where
  ascii _ := rfl
  foreign hc hforeign := by
    refine .inl ⟨_, List.mem_map_of_mem hc, ?_⟩
    rw [toLower_of_foreign hforeign]
    exact hforeign
  digits := map_toLower_of_digits
  of_digits h := by
    rw [List.all_map] at h
    rwa [← funext isAnyDigit_toLower]

section
variable {lower : List Char → List Char} (h : LowerCase lower)
include h

theorem LowerCase.all_digits_iff : (lower cs).all isAnyDigit = true ↔ cs.all isAnyDigit = true :=
  ⟨h.of_digits, fun hcs => by rwa [h.digits hcs]⟩

theorem LowerCase.eq_nil_iff : lower cs = [] ↔ cs = [] := by
  rcases foreign_or_ascii cs with ⟨c, hc, hforeign⟩ | hascii
  · refine iff_of_false ?_ (List.ne_nil_of_mem hc)
    rcases h.foreign hc hforeign with ⟨d, hd, -⟩ | hk
    · exact List.ne_nil_of_mem hd
    · exact List.ne_nil_of_mem hk
  · rw [h.ascii hascii, List.map_eq_nil_iff]

/-- Texts in ASCII without a k come from texts in ASCII. -/
theorem LowerCase.eq_map_toLower (hascii : ∀ d ∈ lower cs, d.toNat < 128) (hk : 'k' ∉ lower cs) :
    lower cs = cs.map Char.toLower := by
  rcases foreign_or_ascii cs with ⟨c, hc, hforeign⟩ | hplain
  · rcases h.foreign hc hforeign with ⟨d, hd, hlarge⟩ | hmem
    · exact absurd (hascii d hd) (Nat.not_lt.2 hlarge)
    · exact absurd hmem hk
  · exact h.ascii hplain

theorem LowerCase.eq_map_toLower_of_ascii (hascii : ∀ d ∈ cs.map Char.toLower, d.toNat < 128) :
    lower cs = cs.map Char.toLower := by
  refine h.ascii fun c hc => ?_
  by_contra hforeign
  have hlarge := hascii _ (List.mem_map_of_mem hc)
  rw [toLower_of_foreign (Nat.not_lt.1 hforeign)] at hlarge
  exact hforeign hlarge

end

/-! ## Upper case -/

/-- What sharp s and the ligatures become. -/
def ligatures : List (List Char) :=
  [['S', 'S'], ['F', 'F'], ['F', 'I'], ['F', 'L'], ['F', 'F', 'I'], ['F', 'F', 'L'], ['S', 'T']]

/-- A change of letters to upper case. Of the letters outside ASCII, only dotless i, long s, sharp s
and the ligatures become letters of ASCII. -/
structure UpperCase (upper : Char → List Char) : Prop where
  ascii {c : Char} : c.toNat < 128 → upper c = [c.toUpper]
  dotless : upper 'ı' = ['I']
  long : upper 'ſ' = ['S']
  foreign {c : Char} :
    128 ≤ c.toNat → c ≠ 'ı' → c ≠ 'ſ' → (∃ d ∈ upper c, 128 ≤ d.toNat) ∨ upper c ∈ ligatures

theorem capital_of_foreign (h : 128 ≤ c.toNat) (hi : c ≠ 'ı') (hs : c ≠ 'ſ') : capital c = c := by
  rw [capital, if_neg hi, if_neg hs, toUpper_of_foreign h]

theorem capital_of_ascii (h : c.toNat < 128) : capital c = c.toUpper := by
  have hi : c ≠ 'ı' := by
    rintro rfl
    exact absurd h (by decide)
  have hs : c ≠ 'ſ' := by
    rintro rfl
    exact absurd h (by decide)
  rw [capital, if_neg hi, if_neg hs]

theorem upperCase_capital : UpperCase (fun c => [capital c]) where
  ascii h := by rw [capital_of_ascii h]
  dotless := rfl
  long := rfl
  foreign h hi hs := by
    refine .inl ⟨_, List.mem_singleton_self _, ?_⟩
    rw [capital_of_foreign h hi hs]
    exact h

section
variable {upper : Char → List Char} (h : UpperCase upper)
include h

theorem UpperCase.cases (c : Char) :
    upper c = [capital c] ∨
      128 ≤ (capital c).toNat ∧ ((∃ d ∈ upper c, 128 ≤ d.toNat) ∨ upper c ∈ ligatures) := by
  by_cases hforeign : 128 ≤ c.toNat
  · by_cases hi : c = 'ı'
    · subst hi
      exact .inl h.dotless
    by_cases hs : c = 'ſ'
    · subst hs
      exact .inl h.long
    rw [capital_of_foreign hforeign hi hs]
    exact .inr ⟨hforeign, h.foreign hforeign hi hs⟩
  · rw [capital_of_ascii (Nat.not_le.1 hforeign)]
    exact .inl (h.ascii (Nat.not_le.1 hforeign))

/-- A word in ASCII without a ligature is the upper case of the same texts for all such functions.
-/
theorem UpperCase.flatMap_eq_iff {word : List Char} (hascii : ∀ d ∈ word, d.toNat < 128)
    (hligatures : ∀ s ∈ ligatures, ¬ s <:+: word) :
    cs.flatMap upper = word ↔ cs.map capital = word := by
  by_cases hsame : ∀ c ∈ cs, upper c = [capital c]
  · rw [List.flatMap_congr hsame, List.map_eq_flatMap]
  · -- Some letter keeps both of them from being the word.
    push Not at hsame
    rcases hsame with ⟨c, hc, hother⟩
    rcases (h.cases c).resolve_left hother with ⟨hlarge, hupper⟩
    refine iff_of_false ?_ ?_
    · rintro rfl
      rcases hupper with ⟨d, hd, hforeign⟩ | hligature
      · exact Nat.not_lt.2 hforeign (hascii d (List.mem_flatMap.2 ⟨c, hc, hd⟩))
      · exact hligatures _ hligature (List.infix_flatMap_of_mem hc upper)
    · rintro rfl
      exact Nat.not_lt.2 hlarge (hascii _ (List.mem_map_of_mem hc))

end

end Text
end Cadence
