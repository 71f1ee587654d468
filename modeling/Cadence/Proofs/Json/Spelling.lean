import Cadence.Json.Reader
import Cadence.Proofs.Text.Digits
import Mathlib.Data.List.TakeWhile

/-!
# Spelling — the texts of strings and integers, and that the reader takes them

A string has many texts, because it may escape any of its code points; an integer has one, or two
when it is zero. Each lemma leaves open what follows, as long as it does not go on with a number.

- `Blanks`, `Ends`: what may stand around a value
- `Contents`, `SpellsText`, `spelling_of_contents`: strings
- `SpellsInt`, `numeral_of_spellsInt`: integers
-/

namespace Cadence
namespace Json

open Number Text

/-! ## Runs -/

section Runs

variable {α : Type} {p : α → Bool} {run rest : List α}

/-- A run ends where what follows has no place in it. -/
theorem takeWhile_run (hrun : ∀ x ∈ run, p x = true) (hrest : ∀ x ∈ rest.head?, p x = false) :
    (run ++ rest).takeWhile p = run := by
  have hstop : rest.takeWhile p = [] := by
    cases rest with
    | nil => rfl
    | cons x rest => exact List.takeWhile_cons_of_neg (by simp [hrest x rfl])
  rw [List.takeWhile_append_of_pos hrun, hstop, List.append_nil]

theorem dropWhile_run (hrun : ∀ x ∈ run, p x = true) (hrest : ∀ x ∈ rest.head?, p x = false) :
    (run ++ rest).dropWhile p = rest := by
  rw [List.dropWhile_append_of_pos hrun]
  cases rest with
  | nil => rfl
  | cons x rest => exact List.dropWhile_cons_of_neg (by simp [hrest x rfl])

/-- A run and what follows it are told by what they make together. -/
theorem run_append_inj {run' rest' : List α} (hrun : ∀ x ∈ run, p x = true)
    (hrun' : ∀ x ∈ run', p x = true)
    (hrest : ∀ x ∈ rest.head?, p x = false) (hrest' : ∀ x ∈ rest'.head?, p x = false)
    (h : run ++ rest = run' ++ rest') : run = run' ∧ rest = rest' := by
  constructor
  · rw [← takeWhile_run hrun hrest, h, takeWhile_run hrun' hrest']
  · rw [← dropWhile_run hrun hrest, h, dropWhile_run hrun' hrest']

end Runs

/-! ## Blanks and what follows a value -/

def Blanks (ns : List Nat) : Prop := ∀ n ∈ ns, isBlank n = true

instance (ns : List Nat) : Decidable (Blanks ns) := List.decidableBAll _ _

/-- What follows does not go on with a number. -/
def Ends (rest : List Nat) : Prop := ∀ n ∈ rest.head?, isNumeral n = false

theorem skipBlanks_append {blanks : List Nat} (h : Blanks blanks) (ns : List Nat) :
    skipBlanks (blanks ++ ns) = skipBlanks ns :=
  List.dropWhile_append_of_pos h

theorem skipBlanks_cons {n : Nat} (h : isBlank n = false) (ns : List Nat) :
    skipBlanks (n :: ns) = n :: ns :=
  List.dropWhile_cons_of_neg (by simp [h])

theorem isNumeral_of_isBlank {n : Nat} (h : isBlank n = true) : isNumeral n = false := by
  simp only [isBlank, Bool.or_eq_true, decide_eq_true_eq] at h
  rcases h with ((h | h) | h) | h
  all_goals
    subst h
    decide

theorem not_isBlank_of_isNumeral {n : Nat} (h : isNumeral n = true) : isBlank n = false := by
  rw [Bool.eq_false_iff]
  intro hblank
  rw [isNumeral_of_isBlank hblank] at h
  cases h

theorem ne_of_isNumeral {n k : Nat} (h : isNumeral n = true) (hk : isNumeral k = false) :
    n ≠ k := by
  rintro rfl
  rw [h] at hk
  cases hk

theorem ends_blanks_append {blanks : List Nat} (h : Blanks blanks) {n : Nat}
    (hn : isNumeral n = false) (ns : List Nat) : Ends (blanks ++ n :: ns) := by
  intro m hm
  cases blanks with
  | nil =>
    rw [List.nil_append, List.head?_cons, Option.mem_some] at hm
    exact hm ▸ hn
  | cons b blanks =>
    rw [List.cons_append, List.head?_cons, Option.mem_some] at hm
    exact hm ▸ isNumeral_of_isBlank (h b List.mem_cons_self)

/-! ## Strings -/

/-- A code point that a string may hold as it is. -/
def IsPlain (n : Nat) : Prop := 0x20 ≤ n ∧ n ≠ Mark.quote ∧ n ≠ Mark.backslash

instance (n : Nat) : Decidable (IsPlain n) := inferInstanceAs (Decidable (_ ∧ _ ∧ _))

/-- Code points of a string as they are written: as they are, or as a short or a hexadecimal escape.
-/
inductive Contents : List Written → List Nat → Prop
  | nil : Contents [] []
  | plain {n : Nat} {written : List Written} {ns : List Nat} (isPlain : IsPlain n)
      (rest : Contents written ns) :
      Contents (⟨n, false⟩ :: written) (n :: ns)
  | short {letter n : Nat} {written : List Written} {ns : List Nat}
      (meaning : shortEscape? (Char.ofNat letter) = some n) (rest : Contents written ns) :
      Contents (⟨n, true⟩ :: written) (Mark.backslash :: letter :: ns)
  | hex {a b c d n : Nat} {written : List Written} {ns : List Nat}
      (meaning : hexCode? [a, b, c, d] = some n) (rest : Contents written ns) :
      Contents (⟨n, true⟩ :: written) (Mark.backslash :: Mark.letterU :: a :: b :: c :: d :: ns)

/-- A text of a string, quotes included, that the dialect allows. -/
def SpellsText (d : Dialect) (s : Spelling) (ns : List Nat) : Prop :=
  ∃ written body, Contents written body ∧ s = Spelling.ofCodes (joinEscaped written) ∧
    (s.isText || d.halves) = true ∧ ns = Mark.quote :: (body ++ [Mark.quote])

theorem hexValue?_of_lt : ∀ n < 0x20, hexValue? (Char.ofNat n) = none := by decide

theorem hexValue?_quote : hexValue? (Char.ofNat Mark.quote) = none := by decide

theorem hexValue?_backslash : hexValue? (Char.ofNat Mark.backslash) = none := by decide

theorem shortEscape?_letterU : shortEscape? (Char.ofNat Mark.letterU) = none := by decide

/-- A hexadecimal digit is neither a control character nor a quote nor a backslash. -/
theorem isPlain_of_hexValue? {n v : Nat} (h : hexValue? (Char.ofNat n) = some v) : IsPlain n := by
  refine ⟨?_, ?_, ?_⟩
  · apply Nat.le_of_not_lt
    intro hlt
    rw [hexValue?_of_lt n hlt] at h
    cases h
  · rintro rfl
    rw [hexValue?_quote] at h
    cases h
  · rintro rfl
    rw [hexValue?_backslash] at h
    cases h

theorem hexValue?_of_hexCode? {a b c d n : Nat} (h : hexCode? [a, b, c, d] = some n) :
    (∃ v, hexValue? (Char.ofNat a) = some v) ∧ (∃ v, hexValue? (Char.ofNat b) = some v) ∧
      (∃ v, hexValue? (Char.ofNat c) = some v) ∧ (∃ v, hexValue? (Char.ofNat d) = some v) := by
  simp only [hexCode?, List.foldlM_cons, Option.bind_eq_bind, Option.bind_eq_some_iff,
    Option.map_eq_some_iff] at h
  rcases h with ⟨-, ⟨va, ha, -⟩, -, ⟨vb, hb, -⟩, -, ⟨vc, hc, -⟩, -, ⟨vd, hd, -⟩, -⟩
  exact ⟨⟨va, ha⟩, ⟨vb, hb⟩, ⟨vc, hc⟩, ⟨vd, hd⟩⟩

theorem splitString_plain {n : Nat} (h : IsPlain n) (ns : List Nat) :
    splitString (n :: ns) = (splitString ns).map fun (body, rest) => (n :: body, rest) := by
  rcases h with ⟨hprintable, hquote, hbackslash⟩
  rw [splitString]
  · rw [if_neg (by omega)]
  · exact hquote
  · intro m ms hm
    exact absurd hm hbackslash

theorem splitString_of_contents {written : List Written} {body : List Nat}
    (h : Contents written body) (rest : List Nat) :
    splitString (body ++ Mark.quote :: rest) = some (body, rest) := by
  -- No quote of the contents is the closing one: each stands behind a backslash.
  induction h with
  | nil => rfl
  | plain isPlain _ ih =>
    rw [List.cons_append, splitString_plain isPlain, ih]
    rfl
  | short meaning _ ih =>
    rw [List.cons_append, List.cons_append, splitString, ih]
    rfl
  | hex meaning _ ih =>
    -- The four digits of an escape are plain, so they split off one by one.
    rcases hexValue?_of_hexCode? meaning with ⟨⟨va, ha⟩, ⟨vb, hb⟩, ⟨vc, hc⟩, ⟨vd, hd⟩⟩
    simp only [List.cons_append]
    rw [splitString, splitString_plain (isPlain_of_hexValue? ha),
      splitString_plain (isPlain_of_hexValue? hb), splitString_plain (isPlain_of_hexValue? hc),
      splitString_plain (isPlain_of_hexValue? hd), ih]
    rfl

theorem unescape_of_contents {written : List Written} {body : List Nat}
    (h : Contents written body) : unescape body = some written := by
  induction h with
  | nil => rfl
  | plain isPlain _ ih =>
    rw [unescape, ih]
    · rfl
    · intro _ _ _ _ _ hn
      exact absurd hn isPlain.2.2
    · intro _ _ hn
      exact absurd hn isPlain.2.2
  | @short letter _ _ _ meaning _ ih =>
    rw [unescape, meaning, ih]
    · rfl
    · -- The letter of a short escape is no `u`.
      rintro a b c d ns rfl
      rw [shortEscape?_letterU] at meaning
      cases meaning
  | hex meaning _ ih =>
    rw [unescape, meaning, ih]
    rfl

theorem spelling_of_contents {d : Dialect} {written : List Written} {body : List Nat}
    (h : Contents written body)
    (hs : ((Spelling.ofCodes (joinEscaped written)).isText || d.halves) = true) (rest : List Nat) :
    spelling d (body ++ Mark.quote :: rest) =
      .ok (Spelling.ofCodes (joinEscaped written), rest) := by
  simp only [spelling, splitString_of_contents h, unescape_of_contents h, hs, if_true]
  rfl

/-! ## Integers -/

/-- A text of an integer: its decimal digits without leading zeros, at most 4300. Zero may be
negative. -/
def SpellsInt (n : Int) (ns : List Nat) : Prop :=
  ∃ (negative : Bool) (m : Nat), (decimal m).length ≤ integerDigits ∧
    n = (if negative then -(m : Int) else m) ∧
    ns = ((if negative then ['-'] else []) ++ decimal m).map Char.toNat

theorem toNat_of_isDigit {c : Char} (h : isDigit c = true) : 0x30 ≤ c.toNat ∧ c.toNat ≤ 0x39 := by
  simp only [isDigit, Bool.and_eq_true, decide_eq_true_eq, Char.le_def, UInt32.le_iff_toNat_le] at h
  exact h

theorem isNumeral_of_isDigit {c : Char} (h : isDigit c = true) : isNumeral c.toNat = true := by
  have hc := toNat_of_isDigit h
  simp [isNumeral, hc.1, hc.2]

theorem exists_digit_decimal (m : Nat) : ∃ c cs, decimal m = c :: cs ∧ isDigit c = true := by
  rcases List.exists_cons_of_ne_nil (decimal_ne_nil m) with ⟨c, cs, hcs⟩
  refine ⟨c, cs, hcs, ?_⟩
  apply isDigit_of_mem_decimal
  rw [hcs]
  exact List.mem_cons_self

theorem splitMinus_signed (negative : Bool) (m : Nat) (tail : List Char) :
    splitMinus ((if negative then ['-'] else []) ++ (decimal m ++ tail)) =
      (negative, decimal m ++ tail) := by
  cases negative with
  | true => rfl
  | false =>
    show splitMinus (decimal m ++ tail) = (false, decimal m ++ tail)
    unfold splitMinus
    split
    · rename_i cs hcs
      -- A minus sign is no digit.
      rcases exists_digit_decimal m with ⟨c, ds, hds, hdigit⟩
      rw [hds, List.cons_append] at hcs
      rw [(List.cons.inj hcs).1] at hdigit
      exact absurd hdigit (by decide)
    · rfl

/-- A written number has no leading zeros. -/
theorem wellFormed_decimal (m : Nat) : ((decimal m).isEmpty ||
    ((decimal m).head? == some '0' && (decimal m).length != 1)) = false := by
  have hne : (decimal m).isEmpty = false := by
    rw [List.isEmpty_eq_false_iff]
    exact decimal_ne_nil m
  rcases Nat.eq_zero_or_pos m with rfl | hpos
  · decide
  · -- Only zero may begin with the digit zero, and it has one digit.
    have hhead : ((decimal m).head? == some '0') = false := by
      rw [beq_eq_false_iff_ne]
      exact head?_decimal (Nat.ne_of_gt hpos)
    rw [hne, hhead]
    rfl

/-- A written integer is read, or its digits are too many. -/
theorem number_decimal (d : Dialect) (negative : Bool) (m : Nat) :
    number d ((if negative then ['-'] else []) ++ decimal m) =
      if integerDigits < (decimal m).length then .error .tooLong
      else .ok (.int (if negative then -(m : Int) else m)) := by
  have hsplit := splitMinus_signed negative m []
  have hdigits : ∀ c ∈ decimal m, isDigit c = true := fun _ hc => isDigit_of_mem_decimal hc
  have htake : (decimal m).takeWhile isDigit = decimal m := List.takeWhile_eq_self_iff.2 hdigits
  have hdrop : (decimal m).dropWhile isDigit = [] := List.dropWhile_eq_nil_iff.2 hdigits
  rw [List.append_nil] at hsplit
  simp only [number, hsplit, htake, hdrop, wellFormed_decimal, fraction, Real64.exponent?,
    Option.getD_some, valueOf_decimal]
  by_cases hlong : integerDigits < (decimal m).length
  · simp only [hlong]
    rfl
  · simp only [hlong]
    rfl

theorem number_signed (d : Dialect) (negative : Bool) {m : Nat}
    (h : (decimal m).length ≤ integerDigits) :
    number d ((if negative then ['-'] else []) ++ decimal m) =
      .ok (.int (if negative then -(m : Int) else m)) := by
  rw [number_decimal, if_neg (Nat.not_lt.2 h)]

/-- All that can be part of a number is read as one. -/
theorem numeral_run {d : Dialect} {cs : List Char} (hcs : ∀ c ∈ cs, isNumeral c.toNat = true)
    {rest : List Nat} (hrest : Ends rest) :
    numeral d (cs.map Char.toNat ++ rest) = (number d cs).map fun j => (j, rest) := by
  have hall : ∀ n ∈ cs.map Char.toNat, isNumeral n = true := by
    intro n hn
    rcases List.mem_map.1 hn with ⟨c, hc, rfl⟩
    exact hcs c hc
  have hchars : (cs.map Char.toNat).map Char.ofNat = cs := by
    rw [List.map_map]
    exact List.map_id'' Char.ofNat_toNat cs
  rw [numeral, takeWhile_run hall hrest, dropWhile_run hall hrest, hchars]
  cases number d cs <;> rfl

theorem numeral_append {d : Dialect} {cs : List Char} {j : Json}
    (hcs : ∀ c ∈ cs, isNumeral c.toNat = true) (hj : number d cs = .ok j) {rest : List Nat}
    (hrest : Ends rest) : numeral d (cs.map Char.toNat ++ rest) = .ok (j, rest) := by
  rw [numeral_run hcs hrest, hj]
  rfl

/-! ### Numbers are no words -/

/-- Each word begins with a letter, or with a minus sign and a letter. -/
theorem words_begin {w : String × Json} (h : w ∈ words) :
    ∃ a b rest, codesOf w.1 = a :: b :: rest ∧
      (isNumeral a = false ∨ a = 0x2d ∧ isNumeral b = false) := by
  simp only [words, List.mem_cons, List.not_mem_nil, or_false] at h
  rcases h with rfl | rfl | rfl | rfl | rfl | rfl
  · exact ⟨_, _, _, rfl, .inl (by decide)⟩
  · exact ⟨_, _, _, rfl, .inl (by decide)⟩
  · exact ⟨_, _, _, rfl, .inl (by decide)⟩
  · exact ⟨_, _, _, rfl, .inl (by decide)⟩
  · exact ⟨_, _, _, rfl, .inl (by decide)⟩
  · exact ⟨_, _, _, rfl, .inr ⟨rfl, by decide⟩⟩

theorem word?_of_numeral {n : Nat} {ns : List Nat} (hn : isNumeral n = true)
    (hminus : n = 0x2d → ∃ m tail, ns = m :: tail ∧ isNumeral m = true) :
    word? (n :: ns) = none := by
  rw [word?, List.findSome?_eq_none_iff]
  intro w hw
  rcases words_begin hw with ⟨a, b, rest, hcodes, hbegin⟩
  have hother : (codesOf w.1).isPrefixOf (n :: ns) = false := by
    rw [hcodes, List.isPrefixOf_cons_cons]
    rcases hbegin with ha | ⟨rfl, hb⟩
    · rw [beq_eq_false_iff_ne.2 (ne_of_isNumeral hn ha).symm, Bool.false_and]
    · -- A minus sign is in front of both, so the second code points part them.
      by_cases hsign : n = 0x2d
      · rcases hminus hsign with ⟨m, tail, rfl, hm⟩
        rw [List.isPrefixOf_cons_cons, beq_eq_false_iff_ne.2 (ne_of_isNumeral hm hb).symm,
          Bool.false_and, Bool.and_false]
      · rw [beq_eq_false_iff_ne.2 (Ne.symm hsign), Bool.false_and]
  exact if_neg (by simp [hother])

/-- A number begins with a minus sign or a digit, whatever it goes on with, and it is no word. -/
theorem begins_signed (negative : Bool) (m : Nat) (tail : List Char) :
    ∃ c ns, ((if negative then ['-'] else []) ++ (decimal m ++ tail)).map Char.toNat = c :: ns ∧
      isNumeral c = true ∧ ∀ rest, word? (c :: (ns ++ rest)) = none := by
  rcases exists_digit_decimal m with ⟨c, cs, hcs, hdigit⟩
  have hnumeral := isNumeral_of_isDigit hdigit
  cases negative with
  | true =>
    refine ⟨0x2d, c.toNat :: (cs ++ tail).map Char.toNat, by rw [hcs]; rfl, by decide, ?_⟩
    intro rest
    apply word?_of_numeral (by decide)
    intro _
    exact ⟨c.toNat, (cs ++ tail).map Char.toNat ++ rest, rfl, hnumeral⟩
  | false =>
    refine ⟨c.toNat, (cs ++ tail).map Char.toNat, by rw [hcs]; rfl, hnumeral, ?_⟩
    intro rest
    apply word?_of_numeral hnumeral
    intro hminus
    -- A digit is no minus sign.
    have hlow := (toNat_of_isDigit hdigit).1
    rw [hminus] at hlow
    exact absurd hlow (by decide)

theorem SpellsInt.begins {n : Int} {ns : List Nat} (h : SpellsInt n ns) :
    ∃ c tail, ns = c :: tail ∧ isNumeral c = true ∧ ∀ rest, word? (c :: (tail ++ rest)) = none := by
  rcases h with ⟨negative, m, -, -, rfl⟩
  have hbegins := begins_signed negative m []
  rwa [List.append_nil] at hbegins

theorem isNumeral_of_mem_sign {negative : Bool} {c : Char}
    (h : c ∈ if negative then ['-'] else []) : isNumeral c.toNat = true := by
  cases negative with
  | true =>
    rw [if_pos rfl, List.mem_singleton] at h
    subst h
    decide
  | false => cases h

theorem numeral_of_spellsInt (d : Dialect) {n : Int} {ns : List Nat} (h : SpellsInt n ns)
    {rest : List Nat} (hrest : Ends rest) : numeral d (ns ++ rest) = .ok (.int n, rest) := by
  rcases h with ⟨negative, m, hlength, rfl, rfl⟩
  refine numeral_append ?_ (number_signed d negative hlength) hrest
  intro c hc
  rcases List.mem_append.1 hc with hsign | hdigit
  · exact isNumeral_of_mem_sign hsign
  · exact isNumeral_of_isDigit (isDigit_of_mem_decimal hdigit)

end Json
end Cadence
