import Cadence.Proofs.Rule.Documented
import Cadence.Rule.Loose

/-!
# Loose — what the checks on loosely typed values let through

Each check lets certain values through and says what it takes them for. The frequency is an integer,
the period and the weekdays equal codes, and only the index may be of another type than a rule has.

- `LooseRule.IsIndex`, `LooseRule.AreWeekdays`: what a value is taken for
- `LooseRule.IsOf`: the rule that some values are taken for
- `LooseRule.ofFields_eq_ok_iff`: the checks make this rule and no other
-/

namespace Cadence

open Calendar

/-- Weekdays are sorted when a rule is built, so they may as well be sorted before. -/
theorem Rule.build_sorted (frequency : Int) (period : Period) (index : Option Int)
    (weekdays : Option (List Weekday)) :
    build frequency period index (weekdays.map Weekday.sorted) =
      build frequency period index weekdays := by
  have hsorted : (weekdays.map Weekday.sorted).map Weekday.sorted =
      weekdays.map Weekday.sorted := by
    cases weekdays with
    | none => rfl
    | some ws => exact congrArg some (Weekday.sorted_of_ascending (Weekday.ascending_sorted ws))
  simp only [build, hsorted]

namespace LooseRule

/-! ## Single checks -/

theorem frequency_eq_ok_iff {v : Value} {n : Int} : frequency v = .ok n ↔ v = .int n ∧ 1 ≤ n := by
  cases v with
  | int m =>
    rw [frequency]
    split
    · rename_i hsmall
      refine ⟨nofun, ?_⟩
      rintro ⟨⟨⟩, hn⟩
      omega
    · rename_i hlarge
      refine ⟨?_, ?_⟩
      · rintro ⟨⟩
        exact ⟨rfl, by omega⟩
      · rintro ⟨⟨⟩, -⟩
        rfl
  | _ => exact ⟨nofun, nofun⟩

/-- What a value is taken for as an index: nothing, an integer in range, or an odd value in range.
-/
inductive IsIndex : Value → Option Int → Option OddIndex → Prop
  | null : IsIndex .null none none
  | int {n : Int} : 1 ≤ n ∧ n ≤ 31 → IsIndex (.int n) (some n) none
  | truth : IsIndex (.bool true) none (some .truth)
  | real {x : Number.Real64} {q : Rat} :
    x.toRat? = some q → 1 ≤ q ∧ q ≤ 31 → IsIndex (.real x) none (some (.real q))

theorem index_eq_ok_iff {v : Value} {i : Option Int} {odd : Option OddIndex} :
    index v = .ok (i, odd) ↔ IsIndex v i odd := by
  constructor
  · intro h
    unfold index at h
    split at h
    · cases h
      exact .null
    · split at h
      · rename_i hrange
        cases h
        exact .int hrange
      · cases h
    · split at h
      · rename_i htrue
        cases h
        cases htrue
        exact .truth
      · cases h
    · split at h
      · rename_i hvalue
        split at h
        · rename_i hrange
          cases h
          exact .real hvalue hrange
        · cases h
      · cases h
    · cases h
  · intro h
    cases h with
    | null => rfl
    | int hrange => exact if_pos hrange
    | truth => rfl
    | real hvalue hrange =>
      simp only [index, hvalue]
      exact if_pos hrange

/-- A value that passes as an index without being an integer. -/
def IsOdd (v : Value) : Prop := ∃ odd, IsIndex v none (some odd)

/-- A value is taken for one thing only. -/
theorem IsIndex.unique {v : Value} {i j : Option Int} {odd odd' : Option OddIndex}
    (h : IsIndex v i odd)
    (h' : IsIndex v j odd') : i = j ∧ odd = odd' := by
  have hpair := (index_eq_ok_iff.2 h).symm.trans (index_eq_ok_iff.2 h')
  exact Prod.mk.inj (Except.ok.inj hpair)

theorem IsIndex.odd_eq_none_iff {v : Value} {i : Option Int} {odd : Option OddIndex}
    (h : IsIndex v i odd) :
    odd = none ↔ ¬ IsOdd v := by
  refine ⟨?_, ?_⟩
  · rintro rfl ⟨odd, hodd⟩
    cases (h.unique hodd).2
  · intro hinteger
    cases h with
    | null => rfl
    | int hrange => rfl
    | truth => exact absurd ⟨_, .truth⟩ hinteger
    | real hvalue hrange => exact absurd ⟨_, .real hvalue hrange⟩ hinteger

/-- What a value is taken for as weekdays: nothing, or those that its contents are the codes of,
each once and Monday first. -/
inductive AreWeekdays : Value → Option (List Weekday) → Prop
  | null : AreWeekdays .null none
  | contents {v : Value} {vs : List Value} {ns : List Int} {ws : List Weekday} :
    v.contents? = some vs → vs.map Value.code? = ns.map some → (∀ n ∈ ns, 1 ≤ n ∧ n ≤ 7) →
      Weekday.Lists ws ns → AreWeekdays v (some ws)

/-- The weekdays are those that one of the given values is the code of. -/
theorem AreWeekdays.mem_iff {v : Value} {ws : Option (List Weekday)} (h : AreWeekdays v ws)
    (w : Weekday) :
    w ∈ ws.getD [] ↔ ∃ given ∈ v.contents?, ∃ x ∈ given, x.code? = some (w.code : Int) := by
  cases h with
  | null =>
    refine iff_of_false List.not_mem_nil ?_
    rintro ⟨_, ⟨⟩, -⟩
  | @contents _ given ns ws hgiven hcodes hrange hlists =>
    have hmem : (w.code : Int) ∈ ns ↔ ∃ x ∈ given, x.code? = some (w.code : Int) := by
      rw [← List.mem_map, hcodes]
      simp
    simp only [Option.getD_some, hlists.2 w, hmem, hgiven, Option.mem_def, Option.some.injEq,
      exists_eq_left']

/-- The values of a list are read one by one. -/
theorem mapM_ofValue_eq_ok_iff {vs : List Value} {ws : List Weekday} :
    vs.mapM Weekday.ofValue = .ok ws ↔ vs.map Value.code? = (Weekday.codes ws).map some := by
  constructor
  · intro h
    induction vs generalizing ws with
    | nil =>
      cases h
      rfl
    | cons v vs ih =>
      rw [List.mapM_cons] at h
      rcases bind_eq_ok h with ⟨w, hw, h⟩
      rcases bind_eq_ok h with ⟨rest, hrest, h⟩
      cases h
      rw [List.map_cons, Weekday.ofValue_eq_ok_iff_code.1 hw, ih hrest]
      rfl
  · intro h
    induction ws generalizing vs with
    | nil =>
      cases List.map_eq_nil_iff.1 h
      rfl
    | cons w ws ih =>
      rcases List.map_eq_cons_iff.1 h with ⟨v, rest, rfl, hv, hrest⟩
      rw [List.mapM_cons, Weekday.ofValue_eq_ok_iff_code.2 hv, ih hrest]
      rfl

theorem members_eq_ok_iff {v : Value} {contents : Option (List Value)} :
    members v = .ok contents ↔
      (v = .null ∧ contents = none) ∨ ∃ vs, v.contents? = some vs ∧ contents = some vs := by
  constructor
  · intro h
    unfold members at h
    split at h
    · cases h
      exact .inl ⟨rfl, rfl⟩
    · rename_i vs _ hvs
      cases h
      exact .inr ⟨vs, hvs, rfl⟩
    · cases h
  · rintro (⟨rfl, rfl⟩ | ⟨vs, hvs, rfl⟩)
    · rfl
    · unfold members
      split
      · cases hvs
      · rename_i ws _ hws
        cases hvs.symm.trans hws
        rfl
      · rename_i hnone
        cases hvs.symm.trans hnone

/-- A value is taken for the weekdays that are read from it, sorted. -/
theorem areWeekdays_iff {v : Value} {ws : Option (List Weekday)} :
    AreWeekdays v ws ↔ ∃ given, weekdays v = .ok given ∧ ws = given.map Weekday.sorted := by
  constructor
  · intro h
    cases h with
    | null => exact ⟨none, rfl, rfl⟩
    | @contents _ vs ns ws hvs hcodes hrange hlists =>
      rcases Weekday.exists_codes hrange with ⟨given, rfl⟩
      have hmembers : members v = .ok (some vs) := members_eq_ok_iff.2 (.inr ⟨vs, hvs, rfl⟩)
      have hread : vs.mapM Weekday.ofValue = .ok given := mapM_ofValue_eq_ok_iff.2 hcodes
      refine ⟨some given, ?_, ?_⟩
      · simp only [weekdays, hmembers, hread, bind, Except.bind]
        rfl
      · have hsorted : ws = Weekday.sorted given := by
          refine eq_of_ascending Weekday.position hlists.1 (Weekday.ascending_sorted given) ?_
          intro w
          rw [hlists.2, Weekday.mem_sorted, Weekday.mem_codes]
        exact congrArg some hsorted
  · rintro ⟨given, h, rfl⟩
    unfold weekdays at h
    rcases bind_eq_ok h with ⟨contents, hcontents, h⟩
    rcases members_eq_ok_iff.1 hcontents with ⟨rfl, rfl⟩ | ⟨vs, hvs, rfl⟩
    · cases h
      exact .null
    · rcases bind_eq_ok h with ⟨ws, hws, h⟩
      cases h
      refine .contents hvs (mapM_ofValue_eq_ok_iff.1 hws) ?_ ⟨Weekday.ascending_sorted ws, ?_⟩
      · intro n hn
        rcases List.mem_map.1 hn with ⟨w, -, rfl⟩
        have hbounds := w.code_bounds
        omega
      · intro w
        rw [Weekday.mem_sorted, Weekday.mem_codes]

/-! ## All checks -/

/-- The rule has what the values are taken for. -/
structure IsOf (l : LooseRule) (f : Fields) : Prop where
  frequency : f.frequency = .int l.checked.frequency
  period : f.period.code? = some (l.checked.period.code : Int)
  index : IsIndex f.index (l.checked.index.map Int.ofNat) l.odd
  weekdays : AreWeekdays f.weekdays l.checked.weekdays

/-- Values are taken for one rule, and what is taken for no rule is refused. -/
theorem ofFields_eq_ok_iff {f : Fields} {l : LooseRule} : ofFields f = .ok l ↔ l.IsOf f := by
  constructor
  · intro h
    unfold ofFields at h
    rcases bind_eq_ok h with ⟨frequency, hfrequency, h⟩
    rcases bind_eq_ok h with ⟨period, hperiod, h⟩
    rcases bind_eq_ok h with ⟨⟨index, odd⟩, hindex, h⟩
    rcases bind_eq_ok h with ⟨weekdays, hweekdays, h⟩
    rcases bind_eq_ok h with ⟨r, hbuild, h⟩
    cases h
    -- The rule is built from integers in range, so only the order of the weekdays may change.
    have hmatches := Rule.matches_of_build hbuild
    refine ⟨?_, ?_, ?_, ?_⟩
    · rw [(frequency_eq_ok_iff.1 hfrequency).1]
      exact congrArg Value.int hmatches.frequency.symm
    · rw [Period.ofValue_eq_ok_iff_code.1 hperiod]
      exact congrArg some hmatches.period.symm
    · show IsIndex f.index (r.index.map Int.ofNat) odd
      rw [show r.index.map Int.ofNat = index from hmatches.index]
      exact index_eq_ok_iff.1 hindex
    · exact areWeekdays_iff.2 ⟨weekdays, hweekdays, (Rule.build_eq_ok hbuild).2.2.2⟩
  · intro h
    rcases areWeekdays_iff.1 h.weekdays with ⟨given, hweekdays, hgiven⟩
    have hfrequency : frequency f.frequency = .ok l.checked.frequency :=
      frequency_eq_ok_iff.2 ⟨h.frequency, Int.ofNat_le.2 l.checked.frequency_pos⟩
    have hperiod := Period.ofValue_eq_ok_iff_code.2 h.period
    have hindex := index_eq_ok_iff.2 h.index
    have hbuild : Rule.build l.checked.frequency l.checked.period
      (l.checked.index.map Int.ofNat) given =
        .ok l.checked := by
      rw [← Rule.build_sorted, ← hgiven]
      exact Rule.build_fields l.checked
    simp only [ofFields, hfrequency, hperiod, hindex, hweekdays, hbuild, bind, Except.bind]
    rfl

end LooseRule

end Cadence
