import Cadence.Proofs.Rule.Loose
import Cadence.Schedule.Loose

/-!
# Loose — generation from loosely typed values

A rule that was made from loosely typed values is as good as any other when its index is an integer
or absent. With an odd index it has no stored text, and a month that is long enough for this index
ends its generation with a failure. Where a generation returns, its dates are those of a rule
without an odd index.

- `LooseRule.LacksDay`: why a generation fails
- `LooseRule.plain`: the rule that has the dates of a generation that returns
- `generate_cases`, `generate_eq_ok_iff`: a generation fails or is that of the plain rule
- `LooseRule.Usable`: what is expected of a rule
- `accepted_rule_usable`: the values that make a usable rule
-/

namespace Cadence

open Calendar

variable {l : LooseRule} {w : Window} {filter : Option Window} {firstWeekday : Weekday}

/-! ## Generations -/

/-- An odd index of a monthly rule names no day, although a month is long enough for it. -/
structure LooseRule.LacksDay (l : LooseRule) (w : Window) (odd : OddIndex) : Prop where
  index : l.odd = some odd
  month : l.checked.period = .month
  notOne : odd.value ≠ 1
  long : ∃ d ∈ (Schedule.visits l.checked w).dates, odd.value ≤ (d.month.length : Rat)

theorem LooseRule.not_lacksDay_of_odd_eq_none (h : l.odd = none) (odd : OddIndex) :
    ¬ l.LacksDay w odd := by
  intro hlacks
  cases h.symm.trans hlacks.index

theorem LooseRule.not_lacksDay_of_ne_month (h : l.checked.period ≠ .month) (odd : OddIndex) :
    ¬ l.LacksDay w odd :=
  fun hlacks => h hlacks.month

theorem firstDay_mem : 1 ≤ 1 ∧ 1 ≤ 31 := by decide

theorem lastDay_mem : 1 ≤ 31 ∧ 31 ≤ 31 := by decide

/-- The rule with the same dates whose index is no odd value. Only a month that is shorter than the
odd index, or the first of a month, has a date then. -/
def LooseRule.plain (l : LooseRule) : Rule :=
  match l.odd with
  | none => l.checked
  | some odd =>
    if l.checked.period ≠ .month then l.checked
    else if odd.value = 1 then l.checked.withIndex 1 firstDay_mem
    else l.checked.withIndex 31 lastDay_mem

namespace LooseRule

theorem period_plain (l : LooseRule) : l.plain.period = l.checked.period := by
  unfold plain
  split
  · rfl
  · split
    · rfl
    · split <;> rfl

/-- An index of a monthly rule is kept, as far as it is not before a day of the month. -/
theorem le_index_plain {d : Date} (hmonth : l.checked.period = .month)
    (h : ∀ q ∈ l.indexValue, (d.day : Rat) ≤ q) : ∀ i ∈ l.plain.index, d.day ≤ i := by
  unfold indexValue at h
  unfold plain
  cases hodd : l.odd with
  | none =>
    intro i hi
    rw [hodd] at h
    simp only [Option.mem_def] at hi
    have hle : (d.day : Rat) ≤ (i : Rat) := h i (by simp [hi])
    exact_mod_cast hle
  | some odd =>
    simp only [hmonth, ne_eq, not_true_eq_false, if_false]
    have hodd' : (d.day : Rat) ≤ odd.value := h odd.value (by simp [hodd])
    split
    · rename_i hone
      rw [hone] at hodd'
      rintro i ⟨⟩
      exact_mod_cast hodd'
    · rintro i ⟨⟩
      exact Nat.le_trans d.day_le d.month.length_le

/-- An index of a monthly rule is not lost. -/
theorem indexValue_eq_none (hmonth : l.checked.period = .month) (h : l.plain.index = none) :
    l.indexValue = none := by
  unfold plain at h
  unfold indexValue
  cases hodd : l.odd with
  | none =>
    rw [hodd] at h
    simp only at h
    simp [h]
  | some odd =>
    rw [hodd] at h
    simp only [hmonth, ne_eq, not_true_eq_false, if_false] at h
    split at h
    · cases h
    · cases h

end LooseRule

namespace Schedule

/-- A generation fails for the lack of a day, and for nothing else; it is that of the plain rule
otherwise. -/
theorem generate_cases (l : LooseRule) (w : Window) (filter : Option Window)
    (firstWeekday : Weekday) :
    (∃ odd, l.LacksDay w odd ∧ l.generate w filter firstWeekday = .error ⟨odd.value⟩) ∨
      (∀ odd, ¬ l.LacksDay w odd) ∧
        l.generate w filter firstWeekday = .ok (l.plain.generate w filter firstWeekday) := by
  unfold LooseRule.generate LooseRule.plain
  cases hodd : l.odd with
  | none => exact .inr ⟨LooseRule.not_lacksDay_of_odd_eq_none hodd, rfl⟩
  | some odd =>
    have hsame : ∀ other, l.LacksDay w other → other = odd :=
      fun other h => Option.some.inj (h.index.symm.trans hodd)
    simp only
    split
    · rename_i hmonth
      exact .inr ⟨LooseRule.not_lacksDay_of_ne_month hmonth, rfl⟩
    · rename_i hmonth
      split
      · rename_i hone
        refine .inr ⟨?_, rfl⟩
        intro other h
        cases hsame other h
        exact h.notOne hone
      · rename_i hone
        split
        · rename_i hlong
          rcases List.any_eq_true.1 hlong with ⟨d, hd, hle⟩
          exact .inl ⟨odd, ⟨hodd, not_not.1 hmonth, hone, d, hd, of_decide_eq_true hle⟩, rfl⟩
        · rename_i hshort
          refine .inr ⟨?_, rfl⟩
          intro other h
          cases hsame other h
          rcases h.long with ⟨d, hd, hle⟩
          exact hshort (List.any_eq_true.2 ⟨d, hd, decide_eq_true hle⟩)

/-- A generation returns unless a day is lacking, and then it is that of the plain rule. -/
theorem generate_eq_ok_iff {run : Run} :
    l.generate w filter firstWeekday = .ok run ↔
      (∀ odd, ¬ l.LacksDay w odd) ∧ run = l.plain.generate w filter firstWeekday := by
  rcases generate_cases l w filter firstWeekday with ⟨odd, hlacks, herror⟩ | ⟨hdays, hok⟩
  · rw [herror]
    exact iff_of_false nofun fun h => h.1 odd hlacks
  · rw [hok, Except.ok.injEq, and_iff_right hdays, eq_comm]

/-- Only the odd index of a monthly rule can keep a generation from returning. -/
theorem exists_generate (h : l.checked.period = .month → l.odd = none) :
    ∃ run, l.generate w filter firstWeekday = .ok run := by
  refine ⟨_, generate_eq_ok_iff.2 ⟨?_, rfl⟩⟩
  intro odd hlacks
  exact LooseRule.not_lacksDay_of_odd_eq_none (h hlacks.month) odd hlacks

theorem generate_eq_ok {run : Run} (h : l.generate w filter firstWeekday = .ok run) :
    ∃ r : Rule, run = r.generate w filter firstWeekday :=
  ⟨l.plain, (generate_eq_ok_iff.1 h).2⟩

theorem generate_eq_error_iff {cause : NoSuchDay} :
    l.generate w filter firstWeekday = .error cause ↔
      ∃ odd, l.LacksDay w odd ∧ cause = ⟨odd.value⟩ := by
  rcases generate_cases l w filter firstWeekday with ⟨odd, hlacks, herror⟩ | ⟨hdays, hok⟩
  · rw [herror]
    constructor
    · rintro ⟨⟩
      exact ⟨odd, hlacks, rfl⟩
    · rintro ⟨other, hother, rfl⟩
      cases hlacks.index.symm.trans hother.index
      rfl
  · rw [hok]
    constructor
    · rintro ⟨⟩
    · rintro ⟨other, hother, -⟩
      exact absurd hother (hdays other)

theorem generate_of_odd_eq_none (h : l.odd = none) :
    l.generate w filter firstWeekday = .ok (l.checked.generate w filter firstWeekday) := by
  unfold LooseRule.generate
  rw [h]

end Schedule

/-! ## Usable rules -/

namespace LooseRule

/-- What is expected of a rule: an index that is an integer if there is one, a stored text, and
generations that return. -/
structure Usable (l : LooseRule) : Prop where
  integral : l.odd = none
  encoded : l.encode? = some l.checked.encode
  generated : ∀ w filter firstWeekday, ∃ run, l.generate w filter firstWeekday = .ok run

theorem usable_iff {l : LooseRule} : l.Usable ↔ l.odd = none := by
  refine ⟨fun h => h.integral, ?_⟩
  intro hodd
  refine ⟨hodd, ?_, fun w filter firstWeekday => ⟨_, Schedule.generate_of_odd_eq_none hodd⟩⟩
  simp [encode?, rule?, hodd]

/-- The checks let through the values that a rule can be made of. Its frequency, its period, its
weekdays and its index, if there is one, are in range, and it is usable unless the index is odd;
then it has no text, and a month that is long enough for the index ends a generation. -/
theorem accepted_rule_usable (f : Fields) (l : LooseRule) :
    (ofFields f = .ok l ↔ l.IsOf f) ∧
      (ofFields f = .ok l →
        1 ≤ l.checked.frequency ∧ (∀ i ∈ l.checked.index, 1 ≤ i ∧ i ≤ 31) ∧
          (∀ ws ∈ l.checked.weekdays, Weekday.Ascending ws) ∧ (¬ IsOdd f.index → l.Usable) ∧
          (IsOdd f.index → l.encode? = none) ∧
          ∀ w filter firstWeekday cause, l.generate w filter firstWeekday = .error cause ↔
            ∃ odd, l.LacksDay w odd ∧ cause = ⟨odd.value⟩) := by
  refine ⟨ofFields_eq_ok_iff, ?_⟩
  intro h
  have hodd := (ofFields_eq_ok_iff.1 h).index.odd_eq_none_iff
  refine ⟨l.checked.frequency_pos, l.checked.index_mem, l.checked.weekdays_ascending, ?_, ?_, ?_⟩
  · intro hindex
    exact usable_iff.2 (hodd.2 hindex)
  · intro hindex
    have hsome : l.odd.isNone = false := by
      rw [Option.isNone_eq_false_iff, Option.isSome_iff_ne_none]
      exact fun hnone => hodd.1 hnone hindex
    simp [encode?, rule?, hsome]
  · intro w filter firstWeekday cause
    exact Schedule.generate_eq_error_iff

/-- Every other week on Sundays and Tuesdays, with a truth value for two of the codes. -/
def mixedValues : Fields where
  frequency := .int 2
  period := .bool true
  index := .int 31
  weekdays := .array [.bool true, .int 3, .int 3]

theorem index_mem_last : ∀ i ∈ some 31, 1 ≤ i ∧ i ≤ 31 := by
  rintro _ ⟨⟩
  decide

theorem ascending_tuesday_sunday :
    ∀ ws ∈ some [Weekday.tuesday, .sunday], Weekday.Ascending ws := by
  rintro _ ⟨⟩
  decide

/-- The rule that these values are taken for. -/
def mixedRule : Rule where
  frequency := 2
  period := .week
  index := some 31
  weekdays := some [.tuesday, .sunday]
  frequency_pos := Nat.two_pos
  index_mem := index_mem_last
  weekdays_ascending := ascending_tuesday_sunday

theorem accepted_rule_usable_mixed :
    ofFields mixedValues = .ok ⟨mixedRule, none⟩ ∧ Usable ⟨mixedRule, none⟩ := by
  have haccepted : ofFields mixedValues = .ok ⟨mixedRule, none⟩ := rfl
  have hinteger : ¬ IsOdd mixedValues.index := by
    rintro ⟨odd, hodd⟩
    cases hodd
  rcases (accepted_rule_usable mixedValues ⟨mixedRule, none⟩).2 haccepted
    with ⟨-, -, -, husable, -, -⟩
  exact ⟨haccepted, husable hinteger⟩

/-- Every month on a day between the first and the second. -/
def fractionalValues : Fields where
  frequency := .int 1
  period := .int 2
  index := .real (.finite false 6755399441055744 (-52))
  weekdays := .null

/-- The checked part of that rule. -/
def monthlyRule : Rule where
  frequency := 1
  period := .month
  index := none
  weekdays := none
  frequency_pos := Nat.one_pos
  index_mem := Rule.index_mem_none
  weekdays_ascending := Rule.weekdays_ascending_none

def februaryDays : Window where
  first := ⟨738551, by decide⟩
  last := ⟨738578, by decide⟩
  first_le_last := by decide

/-- The fraction passes the checks, but the rule has no text, and a generation from it fails. -/
theorem fractional_index_unusable :
    ofFields fractionalValues = .ok ⟨monthlyRule, some (.real (3 / 2))⟩ ∧
      encode? ⟨monthlyRule, some (.real (3 / 2))⟩ = none ∧
      generate ⟨monthlyRule, some (.real (3 / 2))⟩ februaryDays none .monday = .error ⟨3 / 2⟩ ∧
      ¬ Usable ⟨monthlyRule, some (.real (3 / 2))⟩ := by
  have haccepted : ofFields fractionalValues = .ok ⟨monthlyRule, some (.real (3 / 2))⟩ :=
    toOption_eq_some (by decide +kernel)
  refine ⟨haccepted, rfl, by decide +kernel, ?_⟩
  intro h
  cases h.integral

end LooseRule

end Cadence
