import Cadence.Proofs.Ascending
import Cadence.Proofs.Except
import Cadence.Proofs.Json.Accepted
import Cadence.Proofs.Json.Compact
import Cadence.Proofs.Json.Member
import Cadence.Rule.Payload

/-!
# Stored — stored text and back

A rule is written as a payload, the payload as an object, the object as compact text; each of the
three ways back undoes one of them. The only limit is the one on the digits of an integer, and a
rule that was read cannot have a frequency beyond it.

- `ofPayload_toPayload`, `ofJson?_toJson`, `read_toJson`: the three ways back
- `decode_encode`: all of them
- `short_of_decode`: the frequency of a rule that was read is within the limit
-/

namespace Cadence

open Calendar Text

/-! ## Weekdays -/

namespace Calendar
namespace Weekday

/-- Weekdays in ascending order are already sorted. -/
theorem sorted_of_ascending {ws : List Weekday} (h : Ascending ws) : sorted ws = ws :=
  eq_of_ascending position (ascending_sorted ws) h fun _ => mem_sorted

theorem ofValue_code (w : Weekday) : Weekday.ofValue (.int w.code) = .ok w := by
  have hcode : (Value.code? (.int w.code)).bind Weekday.ofCode? = some w := ofCode?_code w
  rw [Weekday.ofValue, hcode]

theorem ofCodes_codes (ws : List Weekday) :
    Weekday.ofCodes (ws.map fun w => (w.code : Int)) = .ok ws := by
  induction ws with
  | nil => rfl
  | cons w ws ih =>
    unfold Weekday.ofCodes at ih ⊢
    rw [List.map_cons, List.mapM_cons, ofValue_code, ih]
    rfl

end Weekday

theorem Period.ofValue_code (p : Period) : Period.ofValue (.int p.code) = .ok p := by
  have hcode : (Value.code? (.int p.code)).bind Period.ofCode? = some p := Period.ofCode?_code p
  rw [Period.ofValue, hcode]

end Calendar

namespace Rule

/-! ## Payloads -/

/-- A rule that was built has the fields that were given, the weekdays sorted. -/
theorem build_eq_ok {frequency : Int} {period : Period} {index : Option Int}
    {weekdays : Option (List Weekday)} {r : Rule}
    (h : build frequency period index weekdays = .ok r) :
    (r.frequency : Int) = frequency ∧ r.period = period ∧ r.index = index.map Int.toNat ∧
      r.weekdays = weekdays.map Weekday.sorted := by
  unfold build at h
  split at h
  · cases h
  · rename_i hfrequency
    split at h
    · cases h
      refine ⟨?_, rfl, rfl, rfl⟩
      exact Int.toNat_of_nonneg (by omega)
    · cases h

theorem build_fields (r : Rule) :
    build r.frequency r.period (r.index.map Int.ofNat) r.weekdays = .ok r := by
  have hfrequency : ¬ (r.frequency : Int) < 1 := by
    have := r.frequency_pos
    omega
  have hindex : ∀ i ∈ r.index.map Int.ofNat, 1 ≤ i ∧ i ≤ 31 := by
    intro i hi
    rcases Option.map_eq_some_iff.1 hi with ⟨n, hn, rfl⟩
    have := r.index_mem n hn
    simp only [Int.ofNat_eq_natCast]
    omega
  have hnats : (r.index.map Int.ofNat).map Int.toNat = r.index := by
    cases r.index with
    | none => rfl
    | some i => rfl
  have hsorted : r.weekdays.map Weekday.sorted = r.weekdays := by
    cases hws : r.weekdays with
    | none => rfl
    | some ws =>
      rw [Option.map_some, Weekday.sorted_of_ascending (r.weekdays_ascending ws hws)]
  rw [build, dif_neg hfrequency, dif_pos hindex]
  simp only [hnats, hsorted, Int.toNat_natCast]

theorem ofPayload_toPayload (r : Rule) : ofPayload r.toPayload = .ok r := by
  -- Codes read back one by one, and a rule passes its own checks.
  have hweekdays : Weekday.ofOptionalCodes r.toPayload.weekdays = .ok r.weekdays := by
    unfold toPayload
    cases r.weekdays with
    | none => rfl
    | some ws =>
      simp only [Option.map_some, Weekday.ofOptionalCodes, Weekday.ofCodes_codes]
      rfl
  have hperiod : Period.ofValue (.int r.toPayload.period) = .ok r.period :=
    Period.ofValue_code r.period
  simp only [ofPayload, hweekdays, hperiod, bind, Except.bind]
  exact build_fields r

end Rule

/-! ## Objects -/

namespace Json

theorem ints?_ints (ns : List Int) : ints? (.array (ns.map .int)) = some ns := by
  unfold ints?
  induction ns with
  | nil => rfl
  | cons n ns ih =>
    simp only [List.map_cons, List.mapM_cons, int?, ih, Option.bind_eq_bind, Option.bind_some]
    rfl

end Json

namespace Payload

theorem ofJson?_toJson (p : Payload) : ofJson? p.toJson = some p := by
  rcases p with ⟨frequency, period, index, weekdays⟩
  cases index with
  | none =>
    cases weekdays with
    | none =>
      simp [toJson, toMembers, ofJson?, Json.lookup, Json.optional, Json.int?]
    | some ws =>
      simp [toJson, toMembers, ofJson?, Json.lookup, Json.optional, Json.int?, Json.ints?_ints]
  | some i =>
    cases weekdays with
    | none =>
      simp [toJson, toMembers, ofJson?, Json.lookup, Json.optional, Json.int?]
    | some ws =>
      simp [toJson, toMembers, ofJson?, Json.lookup, Json.optional, Json.int?, Json.ints?_ints]

end Payload

/-! ## Text -/

namespace Rule

theorem short_of_lt {n : Nat} (h : n < 100) : (decimal n).length ≤ Json.integerDigits := by
  have htwo : (decimal n).length ≤ 2 := (length_decimal_le_iff (by decide)).2 h
  exact Nat.le_trans htwo (by decide)

/-- The members of a stored rule have plain names, and none but the frequency can be long. -/
theorem compactMember_toMembers {r : Rule} (h : (decimal r.frequency).length ≤ Json.integerDigits) :
    ∀ m ∈ r.toPayload.toMembers, Json.CompactMember storedText 199 m := by
  intro m hm
  simp only [Payload.toMembers, toPayload, List.mem_cons, List.mem_append, List.mem_map,
    Option.mem_toList, Option.map_eq_some_iff] at hm
  rcases hm with rfl | rfl | ⟨_, ⟨i, hi, rfl⟩, rfl⟩ | ⟨_, ⟨ws, hws, rfl⟩, rfl⟩
  · exact ⟨_, rfl, by decide, Json.renders_int h⟩
  · refine ⟨_, rfl, by decide, Json.renders_int (short_of_lt ?_)⟩
    cases r.period <;> decide
  · refine ⟨_, rfl, by decide, Json.renders_int (short_of_lt ?_)⟩
    have := (r.index_mem i hi).2
    show i < 100
    omega
  · refine ⟨_, rfl, by decide, Json.renders_array ?_⟩
    intro j hj
    rcases List.mem_map.1 hj with ⟨_, hn, rfl⟩
    rcases List.mem_map.1 hn with ⟨w, -, rfl⟩
    refine Json.renders_int (short_of_lt ?_)
    cases w <;> decide

theorem read_toJson {r : Rule} (h : (decimal r.frequency).length ≤ Json.integerDigits) :
    Json.read storedText r.encode = .ok r.toPayload.toJson :=
  Json.read_compact (Json.renders_object (compactMember_toMembers h))

theorem decode_encode {r : Rule} (h : (decimal r.frequency).length ≤ Json.integerDigits) :
    decode r.encode = some r := by
  have hpayload := Payload.ofJson?_toJson r.toPayload
  have hrule := ofPayload_toPayload r
  simp only [decode, read_toJson h, hpayload, Option.bind_some, hrule]
  rfl

/-! ## Rules that were read -/

theorem ofPayload_eq_ok {p : Payload} {r : Rule} (h : ofPayload p = .ok r) :
    ∃ period weekdays, Period.ofValue (.int p.period) = .ok period ∧
      build p.frequency period p.index weekdays = .ok r := by
  unfold ofPayload at h
  rcases bind_eq_ok h with ⟨weekdays, -, h⟩
  rcases bind_eq_ok h with ⟨period, hperiod, h⟩
  exact ⟨period, weekdays, hperiod, h⟩

theorem short_of_decode {text : String} {r : Rule} (h : decode text = some r) :
    (decimal r.frequency).length ≤ Json.integerDigits := by
  unfold decode at h
  split at h
  · -- The frequency was an integer among the members of what was read.
    rename_i j hread
    rcases Option.bind_eq_some_iff.1 h with ⟨p, hp, hrule⟩
    rcases ofPayload_eq_ok (toOption_eq_some hrule) with ⟨period, weekdays, -, hbuild⟩
    have hfrequency := (build_eq_ok hbuild).1
    cases j with
    | object ms =>
      simp only [Payload.ofJson?, Option.bind_eq_bind, Option.bind_eq_some_iff] at hp
      rcases hp with ⟨n, ⟨j, hlookup, hj⟩, _, -, _, -, _, -, hp⟩
      cases j with
      | int m =>
        cases hj
        cases hp
        have hshort := Json.short_of_readCodes hread (Json.mem_of_lookup hlookup)
        have hn : (r.frequency : Int) = n := hfrequency
        rwa [← hn] at hshort
      | _ => cases hj
    | _ => cases hp
  · cases h

theorem exists_text_of_decodeBytes {bytes : ByteArray} {r : Rule} (h : decodeBytes bytes = some r) :
    ∃ text, decode text = some r := by
  rcases Option.bind_eq_some_iff.1 h with ⟨text, -, htext⟩
  exact ⟨text, htext⟩

/-- Stored text and back gives the same rule, unless its frequency has more digits than the reader
takes. Whatever text or bytes a rule was read from, it has its own stored text to go to and come
back from. -/
theorem stored_text_round_trip (r : Rule) :
    ((decimal r.frequency).length ≤ 4300 → decode r.encode = some r) ∧
      ((∃ text, decode text = some r) ∨ (∃ bytes, decodeBytes bytes = some r) →
        1 ≤ r.frequency ∧ (∀ i ∈ r.index, 1 ≤ i ∧ i ≤ 31) ∧
          (∀ ws ∈ r.weekdays, Weekday.Ascending ws) ∧ decode r.encode = some r ∧
          (decode r.encode).map encode = some r.encode) := by
  refine ⟨decode_encode, ?_⟩
  intro hread
  have htext : ∃ text, decode text = some r := by
    rcases hread with htext | ⟨bytes, hbytes⟩
    · exact htext
    · exact exists_text_of_decodeBytes hbytes
  rcases htext with ⟨text, htext⟩
  have hback := decode_encode (short_of_decode htext)
  refine ⟨r.frequency_pos, r.index_mem, r.weekdays_ascending, hback, ?_⟩
  rw [hback]
  rfl

/-- The Mondays and Sundays of every other week; the index has no use there, but is kept. -/
def everyOtherWeek : Rule where
  frequency := 2
  period := .week
  index := some 31
  weekdays := some [.monday, .sunday]
  frequency_pos := by decide
  index_mem := by
    rintro _ ⟨⟩
    decide
  weekdays_ascending := by
    rintro _ ⟨⟩
    decide

/-- The rule is read from a text with blanks, a repeated weekday and the members in another order.
-/
theorem stored_text_round_trip_every_other_week :
    decode everyOtherWeek.encode = some everyOtherWeek ∧
      (decode everyOtherWeek.encode).map encode = some everyOtherWeek.encode := by
  have hread :
      decode "\x7b \"weekdays\": [1, 2, 2], \"index\": 31, \"frequency\": 2, \"period\": 1 \x7d" =
        some everyOtherWeek := by
    decide +kernel
  have hdigits : (decimal everyOtherWeek.frequency).length ≤ 4300 := by decide
  have hback := stored_text_round_trip everyOtherWeek
  refine ⟨hback.1 hdigits, ?_⟩
  rcases hback.2 (Or.inl ⟨_, hread⟩) with ⟨-, -, -, -, htext⟩
  exact htext

end Rule

end Cadence
