import Cadence.Text.Integer

/-!
# Integer — the texts that spell integers

A text spells an integer when it is a sign, which may be absent, and digits of any scripts, at most
4300 of them. Leading zeros count as digits. A single underscore may stand between two digits.

- `Numeral`: digits with underscores among them, and their values
- `SpellsInteger`: the texts that spell an integer
- `integer_eq_ok_iff`: they are the ones that are read
-/

namespace Cadence
namespace Text

/-- Digits, with single underscores among them, and the values of the digits. -/
inductive Numeral : List Char → List Nat → Prop
  | last {c : Char} {d : Nat} (digit : decimalValue? c = some d) : Numeral [c] [d]
  | next {c : Char} {d : Nat} {cs : List Char} {ds : List Nat} (digit : decimalValue? c = some d)
      (rest : Numeral cs ds) : Numeral (c :: cs) (d :: ds)
  | joint {c : Char} {d : Nat} {cs : List Char} {ds : List Nat} (digit : decimalValue? c = some d)
      (rest : Numeral cs ds) : Numeral (c :: '_' :: cs) (d :: ds)

inductive SpellsInteger : List Char → Int → Prop
  | plain {cs : List Char} {ds : List Nat} (digits : Numeral cs ds)
    (short : ds.length ≤ digitLimit) :
      SpellsInteger cs (valueOfDigits ds)
  | plus {cs : List Char} {ds : List Nat} (digits : Numeral cs ds)
    (short : ds.length ≤ digitLimit) :
      SpellsInteger ('+' :: cs) (valueOfDigits ds)
  | minus {cs : List Char} {ds : List Nat} (digits : Numeral cs ds)
    (short : ds.length ≤ digitLimit) :
      SpellsInteger ('-' :: cs) (-(valueOfDigits ds : Int))

variable {c : Char} {cs rest : List Char} {d : Nat} {ds : List Nat} {n : Int}

/-! ## Runs of digits -/

theorem decimalValue?_underscore : decimalValue? '_' = none := by decide

theorem decimalValue?_plus : decimalValue? '+' = none := by decide

theorem decimalValue?_minus : decimalValue? '-' = none := by decide

theorem Numeral.head (h : Numeral cs ds) :
    ∃ c d rest, cs = c :: rest ∧ decimalValue? c = some d := by
  cases h with
  | last digit => exact ⟨_, _, _, rfl, digit⟩
  | next digit rest => exact ⟨_, _, _, rfl, digit⟩
  | joint digit rest => exact ⟨_, _, _, rfl, digit⟩

theorem Numeral.ne_nil (h : Numeral cs ds) : ds ≠ [] := by
  cases h <;> exact List.cons_ne_nil _ _

/-- A sign or an underscore does not begin a numeral. -/
theorem not_numeral_cons (hc : decimalValue? c = none) : ¬ Numeral (c :: cs) ds := by
  intro h
  rcases h.head with ⟨c', d, rest, hcons, hdigit⟩
  cases hcons
  rw [hc] at hdigit
  cases hdigit

theorem dropJoint_of_digit (hc : decimalValue? c = some d) : dropJoint (c :: cs) = c :: cs := by
  have hne : c ≠ '_' := by
    rintro rfl
    rw [decimalValue?_underscore] at hc
    cases hc
  unfold dropJoint
  split
  · rename_i heq
    cases heq
    exact absurd rfl hne
  · rfl

theorem Numeral.dropJoint_eq (h : Numeral cs ds) : dropJoint cs = cs := by
  rcases h.head with ⟨c, d, rest, rfl, hdigit⟩
  exact dropJoint_of_digit hdigit

theorem Numeral.dropJoint_underscore (h : Numeral cs ds) : dropJoint ('_' :: cs) = cs := by
  rcases h.head with ⟨c, d, rest, rfl, hdigit⟩
  simp only [dropJoint, hdigit, Option.isSome_some, if_true]

theorem dropJoint_cases (cs : List Char) : dropJoint cs = cs ∨ cs = '_' :: dropJoint cs := by
  unfold dropJoint
  split
  · split
    · exact .inr rfl
    · exact .inl rfl
  · exact .inl rfl

theorem digitRun_nil : digitRun [] = ([], []) := by rw [digitRun]

theorem digitRun_cons_digit (hc : decimalValue? c = some d) :
    digitRun (c :: cs) = (d :: (digitRun (dropJoint cs)).1, (digitRun (dropJoint cs)).2) := by
  rw [digitRun]
  split
  · rename_i hnone
    rw [hc] at hnone
    cases hnone
  · rename_i d' hsome
    rw [hc] at hsome
    cases hsome
    rfl

theorem digitRun_cons_other (hc : decimalValue? c = none) : digitRun (c :: cs) = ([], c :: cs) := by
  rw [digitRun]
  split
  · rfl
  · rename_i d' hsome
    rw [hc] at hsome
    cases hsome

theorem digitRun_of_numeral (h : Numeral cs ds) : digitRun cs = (ds, []) := by
  induction h with
  | last digit =>
    have hnone : digitRun (dropJoint []) = ([], []) := digitRun_nil
    rw [digitRun_cons_digit digit, hnone]
  | next digit rest ih => rw [digitRun_cons_digit digit, rest.dropJoint_eq, ih]
  | joint digit rest ih => rw [digitRun_cons_digit digit, rest.dropJoint_underscore, ih]

/-- A run without digits leaves everything. -/
theorem eq_of_digitRun_nil (h : (digitRun cs).1 = []) : (digitRun cs).2 = cs := by
  cases cs with
  | nil => rw [digitRun_nil]
  | cons c cs =>
    cases hc : decimalValue? c with
    | none => rw [digitRun_cons_other hc]
    | some d =>
      rw [digitRun_cons_digit hc] at h
      cases h

theorem numeral_of_digitRun (h : digitRun cs = (ds, [])) (hds : ds ≠ []) : Numeral cs ds := by
  -- On the length of the text, since an underscore is dropped together with the digit before it.
  induction hlength : cs.length using Nat.strongRecOn generalizing cs ds with
  | ind k ih =>
    subst hlength
    cases cs with
    | nil =>
      rw [digitRun_nil] at h
      cases h
      exact absurd rfl hds
    | cons c cs =>
      cases hc : decimalValue? c with
      | none =>
        rw [digitRun_cons_other hc] at h
        cases h
      | some d =>
        rw [digitRun_cons_digit hc] at h
        rcases Prod.mk.inj h with ⟨rfl, hrest⟩
        have hshorter : (dropJoint cs).length < (c :: cs).length :=
          Nat.lt_succ_of_le (length_dropJoint_le cs)
        by_cases hnil : (digitRun (dropJoint cs)).1 = []
        · -- Nothing comes after the digit, not even an underscore.
          have hdrop : dropJoint cs = [] := (eq_of_digitRun_nil hnil).symm.trans hrest
          have hcs : cs = [] := by
            rcases dropJoint_cases cs with hsame | hjoint
            · rw [← hsame, hdrop]
            · rw [hdrop] at hjoint
              subst hjoint
              cases hdrop
          rw [hnil, hcs]
          exact .last hc
        · have hnumeral : Numeral (dropJoint cs) (digitRun (dropJoint cs)).1 :=
            ih _ hshorter (Prod.ext rfl hrest) hnil rfl
          rcases dropJoint_cases cs with hsame | hjoint
          · rw [hsame] at hnumeral ⊢
            exact .next hc hnumeral
          · rw [hjoint]
            exact .joint hc (hjoint ▸ hnumeral)

/-! ## Integers -/

/-- The checks that come after a run of digits, whatever the sign before it makes of their value. -/
theorem checks_eq_ok_iff {value : Int} :
    (if digitLimit < ds.length then (.error (.tooLong ds.length) : Except IntegerError Int)
      else if ds.isEmpty || !rest.isEmpty then .error (.invalid cs)
      else .ok value) = .ok n ↔
      (ds.length ≤ digitLimit ∧ ds ≠ [] ∧ rest = []) ∧ value = n := by
  split
  · rename_i hlong
    exact iff_of_false nofun fun h => Nat.not_lt.2 h.1.1 hlong
  · rename_i hshort
    split
    · rename_i hrefused
      refine iff_of_false nofun ?_
      rintro ⟨⟨-, hne, rfl⟩, -⟩
      simp [hne] at hrefused
    · rename_i haccepted
      simp only [Bool.or_eq_true, List.isEmpty_iff, Bool.not_eq_true', List.isEmpty_eq_false_iff,
        not_or, Decidable.not_not] at haccepted
      rw [Except.ok.injEq]
      exact (and_iff_right ⟨Nat.not_lt.1 hshort, haccepted⟩).symm

theorem integer_of_spells (h : SpellsInteger cs n) : integer cs = .ok n := by
  cases h with
  | plain digits short =>
    unfold integer
    split
    rename_i hsign
    split at hsign
    · exact absurd digits (not_numeral_cons decimalValue?_minus)
    · exact absurd digits (not_numeral_cons decimalValue?_plus)
    · cases hsign
      rw [digitRun_of_numeral digits]
      exact checks_eq_ok_iff.2 ⟨⟨short, digits.ne_nil, rfl⟩, rfl⟩
  | plus digits short =>
    simp only [integer, digitRun_of_numeral digits]
    exact checks_eq_ok_iff.2 ⟨⟨short, digits.ne_nil, rfl⟩, rfl⟩
  | minus digits short =>
    simp only [integer, digitRun_of_numeral digits]
    exact checks_eq_ok_iff.2 ⟨⟨short, digits.ne_nil, rfl⟩, rfl⟩

theorem spells_of_integer (h : integer cs = .ok n) : SpellsInteger cs n := by
  unfold integer at h
  split at h
  rename_i negative unsigned hsign
  rcases checks_eq_ok_iff.1 h with ⟨⟨hshort, hne, hrest⟩, rfl⟩
  have hdigits : Numeral unsigned (digitRun unsigned).1 :=
    numeral_of_digitRun (Prod.ext rfl hrest) hne
  split at hsign
  · cases hsign
    exact .minus hdigits hshort
  · cases hsign
    exact .plus hdigits hshort
  · cases hsign
    exact .plain hdigits hshort

theorem integer_eq_ok_iff :
    integer cs = .ok n ↔ SpellsInteger cs n :=
  ⟨spells_of_integer, integer_of_spells⟩

end Text
end Cadence
