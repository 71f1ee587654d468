import Cadence.Proofs.Json.Spelling

/-!
# Real — the texts of floating-point numbers, and that the reader takes them

A number is a floating-point number when it is written with a fraction, an exponent or both, even if
its value is whole. So no text of an integer is one of a floating-point number.

- `SpellsFraction`, `SpellsExponent`: what may follow the digits in front of the point
- `SpellsReal`, `numeral_of_spellsReal`: floating-point numbers
-/

namespace Cadence
namespace Json

open Number Text

/-! ## Fractions and exponents -/

/-- The digits of a fraction, and its text: a point and the digits. A fraction may be absent. -/
inductive SpellsFraction : List Char → List Char → Prop
  | absent : SpellsFraction [] []
  | present {ds : List Char} (nonempty : ds ≠ []) (digits : ∀ c ∈ ds, isDigit c = true) :
      SpellsFraction ds ('.' :: ds)

/-- A sign in front of the digits of an exponent, and what it multiplies them by. -/
inductive SpellsSign : Int → List Char → Prop
  | absent : SpellsSign 1 []
  | plus : SpellsSign 1 ['+']
  | minus : SpellsSign (-1) ['-']

/-- The value of an exponent, and its text: a letter, perhaps a sign, and digits. It may be absent.
-/
inductive SpellsExponent : Int → List Char → Prop
  | absent : SpellsExponent 0 []
  | present {letter : Char} {sign : Int} {signText ds : List Char}
    (isLetter : letter = 'e' ∨ letter = 'E')
      (signed : SpellsSign sign signText) (nonempty : ds ≠ [])
      (digits : ∀ c ∈ ds, isDigit c = true) :
      SpellsExponent (sign * valueOf ds) (letter :: (signText ++ ds))

theorem SpellsExponent.head {e : Int} {text : List Char} (h : SpellsExponent e text) :
    ∀ c ∈ text.head?, c = 'e' ∨ c = 'E' := by
  intro c hc
  cases h with
  | absent => cases hc
  | present isLetter signed nonempty digits =>
    cases hc
    exact isLetter

/-- No digit follows the digits of a number that goes on. -/
theorem SpellsFraction.head {frac fracText : List Char} (h : SpellsFraction frac fracText) {e : Int}
    {expText : List Char} (he : SpellsExponent e expText) :
    ∀ c ∈ (fracText ++ expText).head?, isDigit c = false := by
  intro c hc
  cases h with
  | absent =>
    rcases he.head c hc with rfl | rfl
    · decide
    · decide
  | present nonempty digits =>
    cases hc
    decide

theorem fraction_of_spells {frac fracText : List Char} (h : SpellsFraction frac fracText) {e : Int}
    {expText : List Char} (he : SpellsExponent e expText) :
    fraction (fracText ++ expText) = (frac, expText) := by
  cases h with
  | absent =>
    rw [List.nil_append]
    cases he with
    | absent => rfl
    | present isLetter signed nonempty digits =>
      rcases isLetter with rfl | rfl
      · rfl
      · rfl
  | present nonempty digits =>
    -- The digits of the fraction end where the exponent begins.
    have hstop : ∀ c ∈ expText.head?, isDigit c = false := SpellsFraction.absent.head he
    have htake : (frac ++ expText).takeWhile isDigit = frac := takeWhile_run digits hstop
    have hdrop : (frac ++ expText).dropWhile isDigit = expText := dropWhile_run digits hstop
    have hempty : frac.isEmpty = false := List.isEmpty_eq_false_iff.2 nonempty
    rw [List.cons_append, fraction, htake, hdrop, hempty]
    rfl

theorem exponent?_of_spells {e : Int} {text : List Char} (h : SpellsExponent e text) :
    Real64.exponent? text = some (e, []) := by
  cases h with
  | absent => rfl
  | @present letter sign signText ds isLetter signed nonempty digits =>
    rcases List.exists_cons_of_ne_nil nonempty with ⟨c, cs, rfl⟩
    have hdigit : isDigit c = true := digits c List.mem_cons_self
    have hplus : c ≠ '+' := by
      rintro rfl
      exact absurd hdigit (by decide)
    have hminus : c ≠ '-' := by
      rintro rfl
      exact absurd hdigit (by decide)
    have htake : (c :: cs).takeWhile isDigit = c :: cs := List.takeWhile_eq_self_iff.2 digits
    have hdrop : (c :: cs).dropWhile isDigit = [] := List.dropWhile_eq_nil_iff.2 digits
    rcases isLetter with rfl | rfl
    · cases signed with
      | absent => simp [Real64.exponent?, htake, hdrop, hplus, hminus]
      | plus => simp [Real64.exponent?, htake, hdrop]
      | minus => simp [Real64.exponent?, htake, hdrop]
    · cases signed with
      | absent => simp [Real64.exponent?, htake, hdrop, hplus, hminus]
      | plus => simp [Real64.exponent?, htake, hdrop]
      | minus => simp [Real64.exponent?, htake, hdrop]

/-! ## Floating-point numbers -/

/-- A text of a floating-point number. Where the dialect limits them, the digits in front of the
point are at most 4300. -/
def SpellsReal (d : Dialect) (x : Real64) (ns : List Nat) : Prop :=
  ∃ (negative : Bool) (m : Nat) (frac fracText : List Char) (e : Int) (expText : List Char),
    SpellsFraction frac fracText ∧ SpellsExponent e expText ∧ fracText ++ expText ≠ [] ∧
      (d.limitsReals = true → (decimal m).length ≤ integerDigits) ∧
      x = .ofDecimal negative (valueOf (decimal m ++ frac)) (e - frac.length) ∧
      ns = ((if negative then ['-'] else []) ++ (decimal m ++ (fracText ++ expText))).map Char.toNat

theorem number_real {d : Dialect} (negative : Bool) {m : Nat} {frac fracText expText : List Char}
    {e : Int} (hfrac : SpellsFraction frac fracText) (hexp : SpellsExponent e expText)
    (hreal : fracText ++ expText ≠ [])
    (hshort : d.limitsReals = true → (decimal m).length ≤ integerDigits) :
    number d ((if negative then ['-'] else []) ++ (decimal m ++ (fracText ++ expText))) =
      .ok (.real (.ofDecimal negative (valueOf (decimal m ++ frac)) (e - frac.length))) := by
  have hdigits : ∀ c ∈ decimal m, isDigit c = true := fun _ hc => isDigit_of_mem_decimal hc
  have hstop := hfrac.head hexp
  have htake := takeWhile_run hdigits hstop
  have hdrop := dropWhile_run hdigits hstop
  -- Something follows the digits, so the number is no integer.
  have hnotInteger : (([] : List Char).length == (fracText ++ expText).length) = false := by
    rw [beq_eq_false_iff_ne]
    intro hlength
    exact hreal (List.length_eq_zero_iff.1 hlength.symm)
  have hlong : (decide (integerDigits < (decimal m).length) && (false || d.limitsReals)) =
      false := by
    cases hlimits : d.limitsReals with
    | false => simp
    | true => simpa using hshort hlimits
  simp only [number, splitMinus_signed, htake, hdrop, wellFormed_decimal,
    fraction_of_spells hfrac hexp, exponent?_of_spells hexp, Option.getD_some, hnotInteger, hlong]
  rfl

theorem isNumeral_of_mem_fraction {frac fracText : List Char} (h : SpellsFraction frac fracText) :
    ∀ c ∈ fracText, isNumeral c.toNat = true := by
  intro c hc
  cases h with
  | absent => cases hc
  | present nonempty digits =>
    rcases List.mem_cons.1 hc with rfl | hc
    · decide
    · exact isNumeral_of_isDigit (digits c hc)

theorem isNumeral_of_mem_exponent {e : Int} {text : List Char} (h : SpellsExponent e text) :
    ∀ c ∈ text, isNumeral c.toNat = true := by
  intro c hc
  cases h with
  | absent => cases hc
  | present isLetter signed nonempty digits =>
    rcases List.mem_cons.1 hc with rfl | hc
    · rcases isLetter with rfl | rfl
      · decide
      · decide
    · rcases List.mem_append.1 hc with hsign | hdigit
      · cases signed with
        | absent => cases hsign
        | plus =>
          rw [List.mem_singleton.1 hsign]
          decide
        | minus =>
          rw [List.mem_singleton.1 hsign]
          decide
      · exact isNumeral_of_isDigit (digits c hdigit)

theorem numeral_of_spellsReal {d : Dialect} {x : Real64} {ns : List Nat} (h : SpellsReal d x ns)
    {rest : List Nat} (hrest : Ends rest) : numeral d (ns ++ rest) = .ok (.real x, rest) := by
  rcases h with ⟨negative, m, frac, fracText, e, expText, hfrac, hexp, hreal, hshort, rfl, rfl⟩
  refine numeral_append ?_ (number_real negative hfrac hexp hreal hshort) hrest
  intro c hc
  simp only [List.mem_append] at hc
  rcases hc with hsign | hdigit | hfraction | hexponent
  · exact isNumeral_of_mem_sign hsign
  · exact isNumeral_of_isDigit (isDigit_of_mem_decimal hdigit)
  · exact isNumeral_of_mem_fraction hfrac c hfraction
  · exact isNumeral_of_mem_exponent hexp c hexponent

/-- A text of a floating-point number begins as a number does, and it is no word. -/
theorem SpellsReal.begins {d : Dialect} {x : Real64} {ns : List Nat} (h : SpellsReal d x ns) :
    ∃ c tail, ns = c :: tail ∧ isNumeral c = true ∧ ∀ rest, word? (c :: (tail ++ rest)) = none := by
  rcases h with ⟨negative, m, frac, fracText, e, expText, -, -, -, -, -, rfl⟩
  exact begins_signed negative m (fracText ++ expText)

end Json
end Cadence
