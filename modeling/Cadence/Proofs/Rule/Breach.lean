import Cadence.Proofs.Rule.Loose

/-!
# Breach — the first field that makes no rule

Each of the four fields of a payload has one range and, outside of it, one message. Whoever checks
the fields one by one reports the first of them that is out of range, so two ways to build a rule
differ at most in which of several bad fields they name.

- `Payload.Reports`, `Payload.FirstReport`: what a field is reported with, and the first of several
- `Payload.breach?`, `Payload.firstBreach?`: the same as a computation
- `Fields.ofPayload`: the fields of a payload as values of any type
- `fault?_ofFields`, `fault?_ofPayload`: what the two constructions of a rule fail with
-/

namespace Cadence

open Calendar

/-! ## Fields out of range -/

inductive RuleField
  | frequency
  | period
  | index
  | weekdays
  deriving DecidableEq, Repr

/-- What is said of a code that belongs to no member of a kind. It is named, unless it has more
digits than a message writes. -/
inductive SaysUnknown (n : Int) (kind : String) : String → Prop
  | named (short : (Text.decimal n.natAbs).length ≤ 4300) :
      SaysUnknown n kind (toString n ++ " is not a valid " ++ kind)
  | unnamed (long : 4300 < (Text.decimal n.natAbs).length) :
      SaysUnknown n kind
        ("Exceeds the limit (4300 digits) for integer string conversion; " ++
          "use sys.set_int_max_str_digits() to increase the limit")

theorem saysUnknown_iff {n : Int} {kind text : String} :
    SaysUnknown n kind text ↔ (Value.int n).unknown kind = text := by
  by_cases hshort : (Text.decimal n.natAbs).length ≤ 4300
  · have hshown : (Value.int n).shown? = some (toString n) := if_pos hshort
    rw [Value.unknown, hshown, Option.elim_some]
    constructor
    · rintro (_ | hlong)
      · rfl
      · omega
    · rintro rfl
      exact .named hshort
  · have hshown : (Value.int n).shown? = none := if_neg hshort
    rw [Value.unknown, hshown, Option.elim_none]
    constructor
    · rintro (_ | _)
      · omega
      · rfl
    · rintro rfl
      exact .unnamed (by omega)

namespace Payload

/-- What a payload is reported with for a field that is out of range. Weekdays are reported by the
first of their codes that names none, whatever comes after it. -/
inductive Reports (p : Payload) : RuleField → String → Prop
  | frequency (small : p.frequency < 1) : Reports p .frequency "frequency must be at least 1."
  | period {text : String} (outside : ¬(0 ≤ p.period ∧ p.period ≤ 2))
      (wording : SaysUnknown p.period "Period" text) : Reports p .period text
  | index {i : Int} (given : p.index = some i) (outside : ¬(1 ≤ i ∧ i ≤ 31)) :
      Reports p .index "index must be between 1 and 31."
  | weekdays {before after : List Int} {n : Int} {text : String}
      (given : p.weekdays = some (before ++ n :: after)) (inside : ∀ m ∈ before, 1 ≤ m ∧ m ≤ 7)
      (outside : ¬(1 ≤ n ∧ n ≤ 7)) (wording : SaysUnknown n "RecurrenceWeekday" text) :
      Reports p .weekdays text

/-- Fields are looked at in an order, and the first of them that is out of range is reported with a
text. -/
def FirstReport (p : Payload) (order : List RuleField) (text : String) : Prop :=
  ∃ before field after, order = before ++ field :: after ∧
    (∀ earlier ∈ before, ∀ other, ¬p.Reports earlier other) ∧ p.Reports field text

/-- The first code that names no weekday. -/
def badWeekday? (p : Payload) : Option Int :=
  p.weekdays.bind fun codes => codes.find? fun n => ¬ (1 ≤ n ∧ n ≤ 7)

def breach? (p : Payload) : RuleField → Option RuleError
  | .frequency => if 1 ≤ p.frequency then none else some .frequencyTooSmall
  | .period =>
    if 0 ≤ p.period ∧ p.period ≤ 2 then none else some (.unknownPeriod (.int p.period))
  | .index => if ∀ i ∈ p.index, 1 ≤ i ∧ i ≤ 31 then none else some .indexOutOfRange
  | .weekdays => p.badWeekday?.map fun n => .unknownWeekday (.int n)

/-- What is wrong with the first of the fields that is out of range. -/
def firstBreach? (p : Payload) (fields : List RuleField) : Option RuleError :=
  fields.findSome? p.breach?

variable {p : Payload}

@[simp] theorem firstBreach?_nil : p.firstBreach? [] = none := rfl

@[simp] theorem firstBreach?_cons (field : RuleField) (fields : List RuleField) :
    p.firstBreach? (field :: fields) = (p.breach? field).or (p.firstBreach? fields) := by
  simp only [firstBreach?, List.findSome?_cons]
  cases p.breach? field <;> rfl

theorem badWeekday?_eq_none_iff :
    p.badWeekday? = none ↔ ∀ codes ∈ p.weekdays, ∀ n ∈ codes, 1 ≤ n ∧ n ≤ 7 := by
  cases hweekdays : p.weekdays with
  | none => simp [badWeekday?, hweekdays]
  | some codes => simp [badWeekday?, hweekdays]

/-- Bad weekdays are reported by the first code that names none, whatever comes after it. -/
theorem breach?_weekdays_eq_some_iff {cause : RuleError} :
    p.breach? .weekdays = some cause ↔
      ∃ before n after, p.weekdays = some (before ++ n :: after) ∧ (∀ m ∈ before, 1 ≤ m ∧ m ≤ 7) ∧
        ¬ (1 ≤ n ∧ n ≤ 7) ∧ cause = .unknownWeekday (.int n) := by
  simp only [breach?, badWeekday?, Option.map_eq_some_iff, Option.bind_eq_some_iff,
    List.find?_eq_some_iff_append]
  refine ⟨?_, ?_⟩
  · rintro ⟨n, ⟨codes, hcodes, hbad, before, after, rfl, hgood⟩, rfl⟩
    exact ⟨before, n, after, hcodes, fun m hm => by simpa using hgood m hm,
      of_decide_eq_true hbad, rfl⟩
  · rintro ⟨before, n, after, hcodes, hgood, hbad, rfl⟩
    exact ⟨n, ⟨_, hcodes, decide_eq_true hbad, before, after, rfl,
      fun m hm => by simpa using hgood m hm⟩, rfl⟩

theorem reports_iff {field : RuleField} {text : String} :
    p.Reports field text ↔ ∃ cause, p.breach? field = some cause ∧ cause.message = text := by
  constructor
  · intro h
    cases h with
    | frequency small => exact ⟨_, if_neg (by omega), rfl⟩
    | period outside wording => exact ⟨_, if_neg outside, saysUnknown_iff.1 wording⟩
    | index given outside => exact ⟨_, if_neg fun h => outside (h _ given), rfl⟩
    | weekdays given inside outside wording =>
      exact ⟨_, breach?_weekdays_eq_some_iff.2 ⟨_, _, _, given, inside, outside, rfl⟩,
        saysUnknown_iff.1 wording⟩
  · rintro ⟨cause, hbreach, rfl⟩
    cases field with
    | frequency =>
      rcases Option.ite_none_left_eq_some.1 hbreach with ⟨hsmall, hcause⟩
      cases hcause
      exact .frequency (by omega)
    | period =>
      rcases Option.ite_none_left_eq_some.1 hbreach with ⟨houtside, hcause⟩
      cases hcause
      exact .period houtside (saysUnknown_iff.2 rfl)
    | index =>
      rcases Option.ite_none_left_eq_some.1 hbreach with ⟨houtside, hcause⟩
      cases hcause
      cases hindex : p.index with
      | none => exact absurd (by simp [hindex]) houtside
      | some i => exact .index hindex (by simpa [hindex] using houtside)
    | weekdays =>
      rcases breach?_weekdays_eq_some_iff.1 hbreach
        with ⟨before, n, after, hgiven, hinside, houtside, rfl⟩
      exact .weekdays hgiven hinside houtside (saysUnknown_iff.2 rfl)

theorem firstReport_of_firstBreach {order : List RuleField} {cause : RuleError}
    (h : p.firstBreach? order = some cause) : p.FirstReport order cause.message := by
  rcases List.findSome?_eq_some_iff.1 h with ⟨before, field, after, horder, hbreach, hbefore⟩
  refine ⟨before, field, after, horder, ?_, reports_iff.2 ⟨cause, hbreach, rfl⟩⟩
  intro earlier hearlier other hreports
  rcases reports_iff.1 hreports with ⟨fault, hfault, -⟩
  rw [hbefore earlier hearlier] at hfault
  cases hfault

/-- A payload is valid when none of its fields is out of range. -/
theorem valid_iff : p.Valid ↔ ∀ field, p.breach? field = none := by
  refine ⟨?_, ?_⟩
  · intro h field
    cases field with
    | frequency => exact if_pos h.frequency
    | period => exact if_pos h.period
    | index => exact if_pos h.index
    | weekdays => exact Option.map_eq_none_iff.2 (badWeekday?_eq_none_iff.2 h.weekdays)
  · intro h
    refine ⟨?_, ?_, ?_, badWeekday?_eq_none_iff.1 (Option.map_eq_none_iff.1 (h .weekdays))⟩
    · simpa [breach?] using h .frequency
    · simpa [breach?] using h .period
    · simpa [breach?] using h .index

/-- If every field is looked at, the first breach is found whatever the order. -/
theorem exists_firstBreach (h : ¬ p.Valid) (fields : List RuleField)
    (hfields : ∀ field, field ∈ fields) :
    ∃ cause, p.firstBreach? fields = some cause := by
  rw [← Option.isSome_iff_exists, Option.isSome_iff_ne_none, firstBreach?, ne_eq,
    List.findSome?_eq_none_iff]
  intro hnone
  exact h (valid_iff.2 fun field => hnone field (hfields field))

end Payload

/-! ## Values of a payload -/

/-- The fields of a payload as values of any type. -/
def Fields.ofPayload (p : Payload) : Fields where
  frequency := .int p.frequency
  period := .int p.period
  index := p.index.elim .null .int
  weekdays := p.weekdays.elim .null fun codes => .array (codes.map .int)

/-- The values of a valid payload are taken for the rule with these values. -/
theorem LooseRule.isOf_ofPayload {r : Rule} {p : Payload} (h : p.Valid) (hr : r.Matches p) :
    LooseRule.IsOf ⟨r, none⟩ (.ofPayload p) := by
  have hindex : IsIndex (p.index.elim .null .int) p.index none := by
    cases hp : p.index with
    | none => exact .null
    | some i => exact .int (h.index i hp)
  have hweekdays : ∀ {ws : Option (List Weekday)}, Option.Rel Weekday.Lists ws p.weekdays →
      AreWeekdays (p.weekdays.elim .null fun codes => .array (codes.map .int)) ws := by
    intro ws hws
    cases hp : p.weekdays with
    | none =>
      rw [hp] at hws
      cases hws
      exact .null
    | some codes =>
      rw [hp] at hws
      cases hws with
      | some hlists => exact .contents rfl (List.map_map ..) (h.weekdays codes hp) hlists
  refine ⟨congrArg Value.int hr.frequency.symm, congrArg some hr.period.symm, ?_,
    hweekdays hr.weekdays⟩
  show IsIndex _ (r.index.map Int.ofNat) none
  rw [hr.index]
  exact hindex

/-! ## Single fields -/

section Checks

variable {p : Payload}

theorem fault?_ofValue_period : fault? (Period.ofValue (.int p.period)) = p.breach? .period := by
  show _ =
    if 0 ≤ p.period ∧ p.period ≤ 2 then none else some (RuleError.unknownPeriod (.int p.period))
  split
  · rename_i hrange
    rcases Period.exists_code hrange with ⟨period, hperiod⟩
    rw [Period.ofValue_eq_ok_iff.2 hperiod]
    rfl
  · rename_i hrange
    rw [fault?_eq_some_iff, Period.ofValue]
    split
    · rename_i period hfound
      have hok : Period.ofValue (.int p.period) = .ok period := by rw [Period.ofValue, hfound]
      have hcode := Period.ofValue_eq_ok_iff.1 hok
      have := period.code_le
      omega
    · rfl

theorem fault?_ofValue_weekday (n : Int) :
    fault? (Weekday.ofValue (.int n)) =
      if 1 ≤ n ∧ n ≤ 7 then none else some (.unknownWeekday (.int n)) := by
  split
  · rename_i hrange
    rcases Weekday.exists_code hrange with ⟨w, hw⟩
    rw [Weekday.ofValue_eq_ok_iff.2 hw]
    rfl
  · rename_i hrange
    rw [fault?_eq_some_iff, Weekday.ofValue]
    split
    · rename_i w hfound
      have hok : Weekday.ofValue (.int n) = .ok w := by rw [Weekday.ofValue, hfound]
      have hcode := Weekday.ofValue_eq_ok_iff.1 hok
      have := w.code_bounds
      omega
    · rfl

/-- A list of codes is read up to the first one that names no weekday. -/
theorem fault?_ofCodes (codes : List Int) :
    fault? (Weekday.ofCodes codes) =
      (codes.find? fun n => ¬ (1 ≤ n ∧ n ≤ 7)).map fun n => .unknownWeekday (.int n) := by
  induction codes with
  | nil => rfl
  | cons n codes ih =>
    unfold Weekday.ofCodes at ih ⊢
    rw [List.mapM_cons]
    have hrest : ∀ w, Weekday.ofValue (.int n) = .ok w →
        fault? (do
          let ws ← codes.mapM fun n => Weekday.ofValue (.int n)
          pure (w :: ws)) =
        (codes.find? fun n => ¬ (1 ≤ n ∧ n ≤ 7)).map fun n => .unknownWeekday (.int n) := by
      intro w _
      have hcons : ∀ ws : List Weekday,
          fault? (pure (w :: ws) : Except RuleError (List Weekday)) = none :=
        fun _ => rfl
      rw [fault?_bind fun ws _ => hcons ws, ih, Option.or_none]
    rw [fault?_bind hrest, fault?_ofValue_weekday]
    split
    · rename_i hrange
      rw [Option.none_or, List.find?_cons_of_neg (by simp [hrange])]
    · rename_i hrange
      rw [Option.some_or, List.find?_cons_of_pos]
      · rfl
      · exact decide_eq_true hrange

theorem fault?_ofOptionalCodes :
    fault? (Weekday.ofOptionalCodes p.weekdays) = p.breach? .weekdays := by
  rw [Payload.breach?, Payload.badWeekday?]
  cases p.weekdays with
  | none => rfl
  | some codes =>
    rw [Weekday.ofOptionalCodes, fault?_map, fault?_ofCodes]
    rfl

theorem fault?_build (period : Period) (weekdays : Option (List Weekday)) :
    fault? (Rule.build p.frequency period p.index weekdays) =
      p.firstBreach? [.frequency, .index] := by
  simp only [Payload.firstBreach?_cons, Payload.firstBreach?_nil, Option.or_none, Payload.breach?,
    Rule.build]
  by_cases hfrequency : 1 ≤ p.frequency
  · rw [dif_neg (by omega), if_pos hfrequency, Option.none_or]
    split
    · rfl
    · rfl
  · rw [dif_pos (by omega), if_neg hfrequency]
    rfl

theorem fault?_frequency :
    fault? (LooseRule.frequency (.int p.frequency)) = p.breach? .frequency := by
  simp only [LooseRule.frequency, Payload.breach?]
  by_cases hfrequency : 1 ≤ p.frequency
  · rw [if_neg (by omega), if_pos hfrequency]
    rfl
  · rw [if_pos (by omega), if_neg hfrequency]
    rfl

/-- The index of a payload is an integer, if there is one. -/
theorem index_ofPayload (h : p.breach? .index = none) :
    LooseRule.index (Fields.ofPayload p).index = .ok (p.index, none) := by
  have hrange : ∀ i ∈ p.index, 1 ≤ i ∧ i ≤ 31 := by
    simpa [Payload.breach?] using h
  rw [Fields.ofPayload]
  cases hindex : p.index with
  | none => rfl
  | some i => exact if_pos (hrange i hindex)

theorem fault?_index : fault? (LooseRule.index (Fields.ofPayload p).index) = p.breach? .index := by
  cases hbreach : p.breach? .index with
  | none =>
    rw [index_ofPayload hbreach]
    rfl
  | some cause =>
    simp only [Payload.breach?] at hbreach
    split at hbreach
    · cases hbreach
    · rename_i hrange
      cases hbreach
      rw [Fields.ofPayload]
      cases hindex : p.index with
      | none => exact absurd (by simp [hindex]) hrange
      | some i =>
        have hi : ¬ (1 ≤ i ∧ i ≤ 31) := by simpa [hindex] using hrange
        exact congrArg fault? (if_neg hi)

theorem mapM_ofValue_ints (codes : List Int) :
    (codes.map Value.int).mapM Weekday.ofValue = Weekday.ofCodes codes := by
  induction codes with
  | nil => rfl
  | cons n codes ih =>
    unfold Weekday.ofCodes at ih ⊢
    rw [List.map_cons, List.mapM_cons, List.mapM_cons, ih]

/-- Integers in a list are read as codes, and nothing as an absent list. -/
theorem weekdays_ofPayload :
    LooseRule.weekdays (Fields.ofPayload p).weekdays = Weekday.ofOptionalCodes p.weekdays := by
  rw [Fields.ofPayload]
  cases p.weekdays with
  | none => rfl
  | some codes =>
    rw [Weekday.ofOptionalCodes, ← mapM_ofValue_ints]
    rfl

/-! ## Constructions -/

theorem ofFields_ofPayload : LooseRule.ofFields (.ofPayload p) = (do
    let frequency ← LooseRule.frequency (.int p.frequency)
    let period ← Period.ofValue (.int p.period)
    let (index, odd) ← LooseRule.index (Fields.ofPayload p).index
    let weekdays ← Weekday.ofOptionalCodes p.weekdays
    let rule ← Rule.build frequency period index weekdays
    return ⟨rule, odd⟩) := by
  rw [LooseRule.ofFields, weekdays_ofPayload]
  rfl

theorem fault?_ofPayload :
    fault? (Rule.ofPayload p) = p.firstBreach? [.weekdays, .period, .frequency, .index] := by
  have hperiod : ∀ weekdays : Option (List Weekday),
      fault? (do
        let period ← Period.ofValue (.int p.period)
        Rule.build p.frequency period p.index weekdays) =
          p.firstBreach? [.period, .frequency, .index] := by
    intro weekdays
    rw [fault?_bind fun period _ => fault?_build period weekdays, fault?_ofValue_period,
      ← p.firstBreach?_cons]
  rw [Rule.ofPayload, fault?_bind fun weekdays _ => hperiod weekdays, fault?_ofOptionalCodes,
    ← p.firstBreach?_cons]

/-- Once the frequency and the index have passed, only the weekdays are left to fail. -/
theorem fault?_rest (period : Period) (odd : Option OddIndex)
    (hfrequency : p.breach? .frequency = none)
    (hindex : p.breach? .index = none) :
    fault? (do
      let weekdays ← Weekday.ofOptionalCodes p.weekdays
      let rule ← Rule.build p.frequency period p.index weekdays
      return (⟨rule, odd⟩ : LooseRule)) = p.breach? .weekdays := by
  have hbuild : ∀ weekdays : Option (List Weekday),
      fault? (do
        let rule ← Rule.build p.frequency period p.index weekdays
        return (⟨rule, odd⟩ : LooseRule)) = none := by
    intro weekdays
    have hbuilds := fault?_build (p := p) period weekdays
    rw [p.firstBreach?_cons, p.firstBreach?_cons, hfrequency, hindex] at hbuilds
    cases hrule : Rule.build p.frequency period p.index weekdays with
    | error cause =>
      rw [hrule] at hbuilds
      cases hbuilds
    | ok rule => rfl
  rw [fault?_bind fun weekdays _ => hbuild weekdays, fault?_ofOptionalCodes, Option.or_none]

theorem fault?_ofFields :
    fault? (LooseRule.ofFields (.ofPayload p)) =
      p.firstBreach? [.frequency, .period, .index, .weekdays] := by
  rw [ofFields_ofPayload, p.firstBreach?_cons, p.firstBreach?_cons, p.firstBreach?_cons,
    p.firstBreach?_cons, p.firstBreach?_nil, Option.or_none, ← fault?_frequency,
    ← fault?_ofValue_period, ← fault?_index]
  refine fault?_bind ?_
  intro frequency hfrequency
  refine fault?_bind ?_
  intro period hperiod
  refine fault?_bind ?_
  rintro ⟨index, odd⟩ hindex
  -- What has passed is what was given.
  have hpassed : p.breach? .frequency = none := by rw [← fault?_frequency, hfrequency]; rfl
  have hranged : p.breach? .index = none := by rw [← fault?_index, hindex]; rfl
  cases (LooseRule.frequency_eq_ok_iff.1 hfrequency).1
  rw [index_ofPayload hranged] at hindex
  cases hindex
  exact fault?_rest period none hpassed hranged

end Checks

end Cadence
