import Cadence.Proofs.Json.Refused
import Cadence.Proofs.Rule.Breach
import Cadence.Proofs.Service.Answer
import Cadence.Proofs.Service.Field
import Cadence.Proofs.Text.Digits

/-!
# Construction — three ways to build a rule

A rule is built from values of any type, from a stored payload or from the fields of a request. All
of them come to the same rule or to none. They check in different orders, so of several bad fields
each may report another one. A bad code is reported by name as long as a message can write it.

- `fault?_ruleOf`: what a request for a rule fails with
- `exists_rule_of_valid`: the one rule of valid fields
- `rule_constructions_agree`: the three ways side by side
- `respond_storeCode`, `long_code_unnamed`: a code that is too long for all of them
-/

namespace Cadence
namespace Service

variable {p : Payload}

theorem fault?_ruleOf :
    fault? (ruleOf p) = p.firstBreach? [.period, .weekdays, .frequency, .index] := by
  have hweekdays : ∀ period : Calendar.Period,
      fault? (do
        let weekdays ← Calendar.Weekday.ofOptionalCodes p.weekdays
        Rule.build p.frequency period p.index weekdays) =
        p.firstBreach? [.weekdays, .frequency, .index] := by
    intro period
    rw [fault?_bind fun weekdays _ => fault?_build period weekdays, fault?_ofOptionalCodes,
      ← p.firstBreach?_cons]
  rw [ruleOf, fault?_bind fun period _ => hweekdays period, fault?_ofValue_period,
    ← p.firstBreach?_cons]

theorem exists_rule_of_valid (h : p.Valid) :
    ∃ r : Rule, r.Matches p ∧ LooseRule.ofFields (.ofPayload p) = .ok ⟨r, none⟩ ∧
      Rule.ofPayload p = .ok r ∧ ruleOf p = .ok r := by
  rcases Rule.exists_parts h with ⟨period, weekdays, hperiod, hweekdays⟩
  rcases Rule.exists_build period weekdays h.frequency h.index with ⟨r, hbuild⟩
  have hpayload : Rule.ofPayload p = .ok r := by
    rw [Rule.ofPayload_of_parts hperiod hweekdays, hbuild]
  have hmatches := (Rule.valid_and_matches hpayload).2
  refine ⟨r, hmatches, LooseRule.ofFields_eq_ok_iff.2 (LooseRule.isOf_ofPayload h hmatches),
    hpayload, ?_⟩
  rw [ruleOf, hperiod, hweekdays]
  simp only [bind, Except.bind, Calendar.Period.ofValue_code,
    Calendar.Weekday.ofOptionalCodes_codes, hbuild]

/-- The three ways to build a rule of integers make the one rule of these fields, or none of them
makes a rule and each reports the first bad field in its own order; a request is then answered with
400 and that text. -/
theorem rule_constructions_agree (p : Payload) :
    (p.Valid ∧ ∃ r : Rule, r.Matches p ∧ LooseRule.ofFields (.ofPayload p) = .ok ⟨r, none⟩ ∧
        Rule.ofPayload p = .ok r ∧ (ruleOf p).mapError Refusal.rule = .ok r) ∨
      (¬p.Valid ∧ ∃ (ofFields ofPayload toRule : RuleError) (text : String),
        LooseRule.ofFields (.ofPayload p) = .error ofFields ∧
        p.FirstReport [.frequency, .period, .index, .weekdays] ofFields.message ∧
        Rule.ofPayload p = .error ofPayload ∧
        p.FirstReport [.weekdays, .period, .frequency, .index] ofPayload.message ∧
        (ruleOf p).mapError Refusal.rule = .error (.rule toRule) ∧
        (Refusal.rule toRule).response = ⟨400, .object [("detail", .text text)], []⟩ ∧
        p.FirstReport [.period, .weekdays, .frequency, .index] text) := by
  by_cases hvalid : p.Valid
  · rcases exists_rule_of_valid hvalid with ⟨r, hmatches, hfields, hpayload, hrule⟩
    exact .inl ⟨hvalid, r, hmatches, hfields, hpayload, mapError_eq_ok_iff.2 hrule⟩
  · have hfirst (order : List RuleField) (hall : ∀ field, field ∈ order) :=
      Payload.exists_firstBreach hvalid order hall
    rcases hfirst [.frequency, .period, .index, .weekdays] (by rintro (_ | _ | _ | _) <;> simp)
      with ⟨ofFields, hfields⟩
    rcases hfirst [.weekdays, .period, .frequency, .index] (by rintro (_ | _ | _ | _) <;> simp)
      with ⟨ofPayload, hpayload⟩
    rcases hfirst [.period, .weekdays, .frequency, .index] (by rintro (_ | _ | _ | _) <;> simp)
      with ⟨toRule, hrule⟩
    have hfieldsError : LooseRule.ofFields (.ofPayload p) = .error ofFields := by
      rw [← fault?_eq_some_iff, fault?_ofFields, hfields]
    have hpayloadError : Rule.ofPayload p = .error ofPayload := by
      rw [← fault?_eq_some_iff, fault?_ofPayload, hpayload]
    have hruleError : ruleOf p = .error toRule := by
      rw [← fault?_eq_some_iff, fault?_ruleOf, hrule]
    exact .inr ⟨hvalid, ofFields, ofPayload, toRule, toRule.message, hfieldsError,
      Payload.firstReport_of_firstBreach hfields, hpayloadError,
      Payload.firstReport_of_firstBreach hpayload, mapError_of_error hruleError, rfl,
      Payload.firstReport_of_firstBreach hrule⟩

/-! ### Codes that no text names -/

/-- Every day, with one code among the weekdays. -/
def codePayload (code : Nat) : Payload where
  frequency := 1
  period := 0
  index := none
  weekdays := some [(code : Int)]

/-- A request to store a rule with these fields. -/
def storeCode (code : Nat) : Request where
  method := .post
  path := ["recurrences".toList]
  query := []
  body :=
    String.ofList
      ("\x7b\"weekdays\":[".toList ++ (Text.decimal code ++
        "],\"name\":\"n\",\"frequency\":1,\"period\":0\x7d".toList))

theorem firstBreach?_codePayload {code : Nat} (hcode : 7 < code) {order : List RuleField}
    (h : .weekdays ∈ order) :
    (codePayload code).firstBreach? order = some (.unknownWeekday (.int code)) := by
  have hweekdays : (codePayload code).breach? .weekdays = some (.unknownWeekday (.int code)) :=
    Payload.breach?_weekdays_eq_some_iff.2 ⟨[], code, [], rfl, nofun, by omega, rfl⟩
  induction order with
  | nil => cases h
  | cons field order ih =>
    rw [Payload.firstBreach?_cons]
    cases field with
    | weekdays =>
      rw [hweekdays]
      rfl
    | _ => exact ih (by simpa using h)

/-- The answer to a request whose body holds a longer integer than the reader takes. -/
theorem respond_storeCode (s : Settings) (t : Table) {code : Nat}
    (h : Json.integerDigits < (Text.decimal code).length) :
    respond s t (storeCode code) = (t, Refusal.unreadableBody.response) := by
  have hkey : Json.SpellsText requestText "weekdays" (Text.codesOf "\"weekdays\"") :=
    Json.spellsText_string requestText (by decide)
  have hends : Json.Ends (Text.codesOf "],\"name\":\"n\",\"frequency\":1,\"period\":0\x7d") := by
    rintro _ ⟨⟩
    decide
  have hread : Json.readCodes requestText (Text.codesOf (storeCode code).body) =
      .error .tooLong := by
    rw [Text.codesOf, storeCode, String.toList_ofList, List.map_append, List.map_append]
    exact Json.readCodes_of_long_item 964 rfl hkey h hends
  have hcodes : bodyCodes? (storeCode code).body = some (Text.codesOf (storeCode code).body) :=
    bodyCodes?_object _
  have hbody : readBody (storeCode code).body = .error .unreadable := by
    simp only [readBody, hcodes, hread]
  have hmembers : members (storeCode code).body = .error .unreadableBody := by
    have hne : (storeCode code).body ≠ "" := by
      intro heq
      rw [heq] at hbody
      cases hbody
    rw [members, if_neg hne, hbody]
  have hcreate : createRequest (storeCode code).body = .error .unreadableBody :=
    bind_of_error hmembers
  have hperform : perform s t (storeCode code) .create = .error .unreadableBody :=
    bind_of_error hcreate
  exact respond_of_error rfl hperform

/-- The least code of 4301 digits. -/
def longCode : Nat := Text.capacity 4300

theorem length_longCode : (Text.decimal longCode).length = 4301 :=
  Text.length_decimal_capacity (by decide)

/-- When the one bad code of a list has 4301 digits, all constructions fail with it and none of them
names it. A request that holds it is not read at all. -/
theorem long_code_unnamed :
    ∃ cause : RuleError,
      LooseRule.ofFields (.ofPayload (codePayload longCode)) = .error cause ∧
      Rule.ofPayload (codePayload longCode) = .error cause ∧
      (ruleOf (codePayload longCode)).mapError Refusal.rule = .error (.rule cause) ∧
      cause.message =
        "Exceeds the limit (4300 digits) for integer string conversion; " ++
          "use sys.set_int_max_str_digits() to increase the limit" ∧
      ¬Text.decimal longCode <:+: cause.message.toList ∧
      (respond (.load fun _ => none) .empty (storeCode longCode)).2 =
        ⟨400, .object [("detail", .text "There was an error parsing the body")], []⟩ := by
  have hlength := length_longCode
  generalize longCode = code at hlength ⊢
  have hcode : 7 < code := by
    by_contra hsmall
    have hle := (Text.length_decimal_le_iff (n := code) (k := 1) (by decide)).2
      (Nat.lt_of_le_of_lt (Nat.not_lt.1 hsmall) (by decide))
    omega
  have hmessage : (RuleError.unknownWeekday (.int code)).message = Value.overlong :=
    saysUnknown_iff.1 (.unnamed (by rw [Int.natAbs_natCast, hlength]; decide))
  refine ⟨.unknownWeekday (.int code), ?_, ?_, mapError_of_error ?_, hmessage, ?_, ?_⟩
  · rw [← fault?_eq_some_iff, fault?_ofFields]
    exact firstBreach?_codePayload hcode (by simp)
  · rw [← fault?_eq_some_iff, fault?_ofPayload]
    exact firstBreach?_codePayload hcode (by simp)
  · rw [← fault?_eq_some_iff, fault?_ruleOf]
    exact firstBreach?_codePayload hcode (by simp)
  · intro hinfix
    have hle := hinfix.length_le
    have hshort : Value.overlong.toList.length = 117 := by decide +kernel
    rw [hmessage, hlength] at hle
    omega
  · rw [respond_storeCode _ _ (by rw [hlength]; decide)]
    rfl

end Service
end Cadence
