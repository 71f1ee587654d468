import Cadence.Proofs.Except
import Cadence.Proofs.Text.Blank
import Cadence.Proofs.Text.Case
import Cadence.Proofs.Text.Integer

/-!
# FirstWeekday — the texts that name the first weekday

A text names a weekday by its position, in digits of any script, or by the beginning of its name.
Both are looked for in the text without the white space around it and in lower case. Names have
different beginnings, so no text names two weekdays.

- `Denotes`: the weekday that a text names
- `Refused`: texts that name none, and why
- `firstWeekday_eq_ok_iff`, `firstWeekday_eq_error_iff`: what is read off any text
- `first_weekday_exact`: the same in the lower case of Unicode, with names in any order
-/

namespace Cadence

open Calendar Text

/-- A text that is written in digits names a position, or nothing. -/
def InDigits (u : List Char) : Prop := u ≠ [] ∧ u.all isAnyDigit = true

/-- Three letters or more that the name of a weekday begins with. -/
def Begins (u : List Char) (w : Weekday) : Prop := 3 ≤ u.length ∧ u <+: w.name.toList

instance (u : List Char) : Decidable (InDigits u) := inferInstanceAs (Decidable (_ ∧ _))

instance (u : List Char) (w : Weekday) : Decidable (Begins u w) :=
  inferInstanceAs (Decidable (_ ∧ _))

inductive Denotes (u : List Char) (w : Weekday) : Prop
  | position (digits : InDigits u) (spells : SpellsInteger u w.position)
  | name (word : ¬ InDigits u) (begins : Begins u w)

/-- Texts that name no weekday, and what is said about them. The second text is the first one,
trimmed and in lower case. -/
inductive Refused (text : String) (u : List Char) : WeekdayError → Prop
  | integer {cause : IntegerError} (digits : InDigits u) (unread : Text.integer u = .error cause) :
      Refused text u (.integer cause)
  | outOfRange {n : Int} (digits : InDigits u) (spells : SpellsInteger u n) (large : 6 < n) :
      Refused text u .outOfRange
  | unknown (word : ¬ InDigits u) (nobody : ∀ w, ¬ Begins u w) : Refused text u (.unknown text)

variable {text : String} {u cs before behind : List Char} {v w : Weekday} {n : Int}

/-! ## Positions -/

theorem ofPosition?_eq_some_iff : Weekday.ofPosition? n = some w ↔ n = w.position := by
  constructor
  · intro h
    have hfound := List.find?_some h
    exact (beq_iff_eq.1 hfound).symm
  · rintro rfl
    cases w <;> rfl

theorem ofPosition?_eq_none_iff (h : 0 ≤ n) : Weekday.ofPosition? n = none ↔ 6 < n := by
  constructor
  · intro hnone
    by_contra hsmall
    have hn : n = (Weekday.afterMonday n.toNat).position := by
      rw [Weekday.position_afterMonday]
      omega
    rw [ofPosition?_eq_some_iff.2 hn] at hnone
    cases hnone
  · intro hlarge
    rw [Option.eq_none_iff_forall_ne_some]
    intro w hsome
    have hlt := w.position_lt
    have hn := ofPosition?_eq_some_iff.1 hsome
    omega

/-- Digits bear no sign. -/
theorem InDigits.nonneg (hu : InDigits u) (h : SpellsInteger u n) : 0 ≤ n := by
  cases h with
  | plain digits short => exact Int.natCast_nonneg _
  | plus digits short => exact Int.natCast_nonneg _
  | minus digits short =>
    have hsign : isAnyDigit '-' = true := List.all_eq_true.1 hu.2 '-' List.mem_cons_self
    exact absurd hsign (by decide)

/-! ## Names -/

theorem weekday_eq_of_take (h : v.name.toList.take 3 = w.name.toList.take 3) : v = w := by
  cases v <;> cases w <;> first | rfl | exact absurd h (by decide)

theorem Begins.take (h : Begins u w) : u.take 3 = w.name.toList.take 3 := by
  rw [List.prefix_iff_eq_take.1 h.2, List.take_take, Nat.min_eq_left h.1]

/-- Three letters tell the weekdays apart. -/
theorem Begins.unique (hv : Begins u v) (hw : Begins u w) :
    v = w :=
  weekday_eq_of_take (hv.take.symm.trans hw.take)

/-- The first weekday of a table whose name a text begins. -/
def begunIn? (table : List Weekday) (u : List Char) : Option Weekday :=
  table.find? fun w => u.isPrefixOf w.name.toList && 3 ≤ u.length

theorem isPrefixOf_iff_begins :
    (u.isPrefixOf w.name.toList && 3 ≤ u.length) = true ↔ Begins u w := by
  rw [Bool.and_eq_true, List.isPrefixOf_iff_prefix, decide_eq_true_eq]
  exact and_comm

theorem Begins.of_begunIn? {table : List Weekday} (h : begunIn? table u = some w) : Begins u w := by
  have hfound := List.find?_some h
  exact isPrefixOf_iff_begins.1 hfound

theorem begunIn?_eq_some_iff {table : List Weekday} (htable : w ∈ table) :
    begunIn? table u = some w ↔ Begins u w := by
  refine ⟨.of_begunIn?, ?_⟩
  intro h
  cases hfind : begunIn? table u with
  | none => exact absurd (isPrefixOf_iff_begins.2 h) (List.find?_eq_none.1 hfind w htable)
  | some v => rw [(Begins.of_begunIn? hfind).unique h]

theorem begun?_eq_some_iff : begun? u = some w ↔ Begins u w := begunIn?_eq_some_iff w.mem_all

theorem begun?_eq_none_iff : begun? u = none ↔ ∀ w, ¬ Begins u w := by
  simp only [Option.eq_none_iff_forall_ne_some, ne_eq, begun?_eq_some_iff]

/-- What is found does not depend on the order of the names. -/
theorem begunIn?_of_perm {table : List Weekday} (h : table.Perm Weekday.all) (u : List Char) :
    begunIn? table u = begun? u := by
  ext w
  rw [begun?_eq_some_iff]
  exact begunIn?_eq_some_iff (h.mem_iff.2 w.mem_all)

/-! ## What is read -/

theorem inDigits_iff : (!u.isEmpty && u.all isAnyDigit) = true ↔ InDigits u := by
  rw [Bool.and_eq_true, Bool.not_eq_true', List.isEmpty_eq_false_iff]
  rfl

theorem firstWeekday_of_digits (h : InDigits (normalized text)) :
    firstWeekday (some text) =
      ((integer (normalized text)).mapError .integer).bind fun n =>
        (Weekday.ofPosition? n).elim (Except.error .outOfRange) Except.ok := by
  simp only [firstWeekday, if_pos (inDigits_iff.2 h)]
  cases integer (normalized text) with
  | error cause => rfl
  | ok n =>
    dsimp only [Except.mapError, Except.bind]
    cases Weekday.ofPosition? n <;> rfl

theorem firstWeekday_of_word (h : ¬ InDigits (normalized text)) :
    firstWeekday (some text) = (begun? (normalized text)).elim
      (Except.error (.unknown text)) Except.ok := by
  simp only [firstWeekday, if_neg (mt inDigits_iff.1 h)]
  cases begun? (normalized text) <;> rfl

theorem firstWeekday_eq_ok_of_denotes (h : Denotes (normalized text) w) :
    firstWeekday (some text) = .ok w := by
  cases h with
  | position digits spells =>
    rw [firstWeekday_of_digits digits, integer_eq_ok_iff.2 spells]
    show (Weekday.ofPosition? w.position).elim _ _ = _
    rw [ofPosition?_eq_some_iff.2 rfl]
    rfl
  | name word begins =>
    rw [firstWeekday_of_word word, begun?_eq_some_iff.2 begins]
    rfl

theorem firstWeekday_eq_error_of_refused {e : WeekdayError} (h : Refused text (normalized text) e) :
    firstWeekday (some text) = .error e := by
  cases h with
  | integer digits unread =>
    rw [firstWeekday_of_digits digits, unread]
    rfl
  | outOfRange digits spells large =>
    rw [firstWeekday_of_digits digits, integer_eq_ok_iff.2 spells]
    show (Weekday.ofPosition? _).elim _ _ = _
    rw [(ofPosition?_eq_none_iff (digits.nonneg spells)).2 large]
    rfl
  | unknown word nobody =>
    rw [firstWeekday_of_word word, begun?_eq_none_iff.2 nobody]
    rfl

/-- Each text names a weekday or is refused. -/
theorem denotes_or_refused (text : String) (u : List Char) :
    (∃ w, Denotes u w) ∨ ∃ e, Refused text u e := by
  by_cases hdigits : InDigits u
  · cases hread : integer u with
    | error cause => exact .inr ⟨_, .integer hdigits hread⟩
    | ok n =>
      have hspells : SpellsInteger u n := integer_eq_ok_iff.1 hread
      cases hposition : Weekday.ofPosition? n with
      | none =>
        have hlarge : 6 < n := (ofPosition?_eq_none_iff (hdigits.nonneg hspells)).1 hposition
        exact .inr ⟨_, .outOfRange hdigits hspells hlarge⟩
      | some w => exact .inl ⟨w, .position hdigits (ofPosition?_eq_some_iff.1 hposition ▸ hspells)⟩
  · cases hname : begun? u with
    | none => exact .inr ⟨_, .unknown hdigits (begun?_eq_none_iff.1 hname)⟩
    | some w => exact .inl ⟨w, .name hdigits (begun?_eq_some_iff.1 hname)⟩

theorem firstWeekday_spec (text : String) :
    (∀ w, firstWeekday (some text) = .ok w ↔ Denotes (normalized text) w) ∧
      ∀ e, firstWeekday (some text) = .error e ↔ Refused text (normalized text) e :=
  exact_of_total (fun _ => firstWeekday_eq_ok_of_denotes)
    (fun _ => firstWeekday_eq_error_of_refused)
    (denotes_or_refused text _)

theorem firstWeekday_eq_ok_iff : firstWeekday (some text) = .ok w ↔ Denotes (normalized text) w :=
  (firstWeekday_spec text).1 w

theorem firstWeekday_eq_error_iff {e : WeekdayError} :
    firstWeekday (some text) = .error e ↔ Refused text (normalized text) e :=
  (firstWeekday_spec text).2 e

theorem Denotes.unique (hv : Denotes u v) (hw : Denotes u w) : v = w := by
  cases hv with
  | position digits spells =>
    cases hw with
    | position _ spells' =>
      have hsame := (integer_eq_ok_iff.2 spells).symm.trans (integer_eq_ok_iff.2 spells')
      exact Weekday.position_inj (Int.ofNat.inj (Except.ok.inj hsame))
    | name word _ => exact absurd digits word
  | name word begins =>
    cases hw with
    | position digits _ => exact absurd digits word
    | name _ begins' => exact begins.unique begins'

/-! ## White space and case -/

theorem normalized_eq (text : String) :
    normalized text = trim isBlank (text.toList.map Char.toLower) :=
  (trim_map isBlank_toLower text.toList).symm

theorem normalized_surrounded (hbefore : before.all isBlank = true)
    (hbehind : behind.all isBlank = true)
    (hcase : cs.map Char.toLower = text.toList.map Char.toLower) :
    normalized (String.ofList (before ++ cs ++ behind)) = normalized text := by
  calc
    normalized (String.ofList (before ++ cs ++ behind))
      = (trim isBlank (before ++ cs ++ behind)).map Char.toLower := by
        rw [normalized, String.toList_ofList]
    _ = (trim isBlank cs).map Char.toLower := by
      rw [trim_surrounded (List.all_eq_true.1 hbefore) (List.all_eq_true.1 hbehind)]
    _ = trim isBlank (cs.map Char.toLower) := (trim_map isBlank_toLower cs).symm
    _ = normalized text := by rw [hcase, normalized_eq]

theorem firstWeekday_toOption_congr {text' : String} (h : normalized text' = normalized text) :
    (firstWeekday (some text')).toOption = (firstWeekday (some text)).toOption := by
  ext w
  rw [toOption_eq_some_iff, toOption_eq_some_iff, firstWeekday_eq_ok_iff, firstWeekday_eq_ok_iff, h]

/-! ## The lower case of Unicode -/

theorem plain_name (w : Weekday) :
    w.name.toList.all (fun c => c.toNat < 128 && c != 'k') = true := by
  cases w <;> decide

/-- Names are written in ASCII, without a k. -/
theorem Begins.plain {c : Char} (h : Begins u w) (hc : c ∈ u) : c.toNat < 128 ∧ c ≠ 'k' := by
  have hplain := List.all_eq_true.1 (plain_name w) c (h.2.subset hc)
  rwa [Bool.and_eq_true, decide_eq_true_eq, bne_iff_ne] at hplain

/-- Texts that are read alike. -/
structure Alike (u u' : List Char) : Prop where
  inDigits_iff : InDigits u ↔ InDigits u'
  same (digits : InDigits u) : u = u'
  begins_iff (w : Weekday) : Begins u w ↔ Begins u' w

section
variable {u' : List Char} (h : Alike u u')
include h

theorem Alike.symm : Alike u' u where
  inDigits_iff := h.inDigits_iff.symm
  same digits := (h.same (h.inDigits_iff.2 digits)).symm
  begins_iff w := (h.begins_iff w).symm

theorem Alike.denotes (hu : Denotes u w) : Denotes u' w := by
  cases hu with
  | position digits spells => exact .position (h.inDigits_iff.1 digits) (h.same digits ▸ spells)
  | name word begins => exact .name (mt h.inDigits_iff.2 word) ((h.begins_iff w).1 begins)

theorem Alike.refused {e : WeekdayError} (hu : Refused text u e) : Refused text u' e := by
  cases hu with
  | integer digits unread => exact .integer (h.inDigits_iff.1 digits) (h.same digits ▸ unread)
  | outOfRange digits spells large =>
    exact .outOfRange (h.inDigits_iff.1 digits) (h.same digits ▸ spells) large
  | unknown word nobody =>
    exact .unknown (mt h.inDigits_iff.2 word) fun w => mt (h.begins_iff w).2 (nobody w)

end

section
variable {lower : List Char → List Char} (h : LowerCase lower)
include h

theorem inDigits_lower_iff : InDigits (lower cs) ↔ InDigits cs :=
  and_congr (not_congr h.eq_nil_iff) h.all_digits_iff

theorem begins_lower_iff : Begins (lower cs) w ↔ Begins (cs.map Char.toLower) w := by
  constructor
  · intro hlower
    rwa [← h.eq_map_toLower (fun d hd => (hlower.plain hd).1) fun hk => (hlower.plain hk).2 rfl]
  · intro hmap
    rwa [h.eq_map_toLower_of_ascii fun d hd => (hmap.plain hd).1]

/-- What Unicode and what the program make of a text is read alike. -/
theorem alike_lower (cs : List Char) : Alike (lower cs) (cs.map Char.toLower) where
  inDigits_iff := (inDigits_lower_iff h).trans (inDigits_lower_iff lowerCase_toLower).symm
  same digits := by
    have hcs : cs.all isAnyDigit = true := ((inDigits_lower_iff h).1 digits).2
    rw [h.digits hcs, map_toLower_of_digits hcs]
  begins_iff _ := begins_lower_iff h

end

/-- The texts that name a weekday are exactly those that spell its position in digits and those that
its name begins with, in any white space and any case. No text names two weekdays, and all others
are refused. -/
theorem first_weekday_exact {lower : List Char → List Char} (h : LowerCase lower) (text : String) :
    (∀ w, firstWeekday (some text) = .ok w ↔ Denotes (lower (trim isBlank text.toList)) w) ∧
      (∀ v w, Denotes (lower (trim isBlank text.toList)) v →
        Denotes (lower (trim isBlank text.toList)) w →
        v = w) ∧
      (∀ table : List Weekday, table.Perm Weekday.all → ∀ u, begunIn? table u = begun? u) ∧
      (∀ e, firstWeekday (some text) = .error e ↔
        Refused text (lower (trim isBlank text.toList)) e) ∧
      ∀ before cs behind : List Char, before.all isBlank = true → behind.all isBlank = true →
        cs.map Char.toLower = text.toList.map Char.toLower →
        (firstWeekday (some (String.ofList (before ++ cs ++ behind)))).toOption =
          (firstWeekday (some text)).toOption := by
  have halike : Alike (lower (trim isBlank text.toList)) (normalized text) := alike_lower h _
  refine ⟨?_, fun v w => Denotes.unique, fun table => begunIn?_of_perm, ?_, ?_⟩
  · intro w
    rw [firstWeekday_eq_ok_iff]
    exact ⟨halike.symm.denotes, halike.denotes⟩
  · intro e
    rw [firstWeekday_eq_error_iff]
    exact ⟨halike.symm.refused, halike.refused⟩
  · intro before cs behind hbefore hbehind hcase
    exact firstWeekday_toOption_congr (normalized_surrounded hbefore hbehind hcase)

/-- Capitals with an ideographic space behind them, and Arabic digits with a zero in front. -/
theorem first_weekday_in_capitals_and_arabic_digits :
    Denotes ((trim isBlank "SaT\u3000".toList).map Char.toLower) .saturday ∧
      firstWeekday (some "SaT\u3000") = .ok .saturday ∧
      Denotes ((trim isBlank "\u0660\u0666".toList).map Char.toLower) .sunday ∧
      firstWeekday (some "\u0660\u0666") = .ok .sunday := by
  have hletters : Denotes ((trim isBlank "SaT\u3000".toList).map Char.toLower) .saturday :=
    .name (by decide) (by decide)
  have hnumeral : Numeral ((trim isBlank "\u0660\u0666".toList).map Char.toLower) [0, 6] :=
    .next rfl (.last rfl)
  have hdigits : Denotes ((trim isBlank "\u0660\u0666".toList).map Char.toLower) .sunday :=
    .position (by decide) (.plain hnumeral (by decide))
  exact ⟨hletters, ((first_weekday_exact lowerCase_toLower "SaT\u3000").1 .saturday).2 hletters,
    hdigits, ((first_weekday_exact lowerCase_toLower "\u0660\u0666").1 .sunday).2 hdigits⟩

end Cadence
