import Cadence.Proofs.Json.Telling
import Cadence.Proofs.Rule.Breach

/-!
# Canonical — one form for the weekdays of a rule, one text for a rule

Sorting forgets the order and the repetitions of weekdays and nothing else, so rules that were built
from the same codes are the same. Their stored text forgets nothing: rules with the same text are
the same, however many digits the frequency has.

- `Weekday.sorted_eq_iff`: what sorting forgets
- `Payload.Alike`, `Matches.of_alike`: payloads that make the same rule
- `LooseRule.same_iff`: when rules count as the same
- `Rule.encode_inj`: stored text tells rules apart
- `canonical_form`: all of this
-/

namespace Cadence

open Calendar

/-! ## Weekdays -/

namespace Calendar.Weekday

theorem sorted_eq_iff {vs ws : List Weekday} : sorted vs = sorted ws ↔ ∀ w, w ∈ vs ↔ w ∈ ws := by
  constructor
  · intro h w
    rw [← mem_sorted, h, mem_sorted]
  · intro h
    refine eq_of_ascending position (ascending_sorted vs) (ascending_sorted ws) ?_
    intro w
    rw [mem_sorted, mem_sorted]
    exact h w

/-- No weekday comes after Sunday. -/
theorem getLast?_of_ascending {ws : List Weekday} (h : Ascending ws) (hsunday : sunday ∈ ws) :
    ws.getLast? = some sunday := by
  rcases List.append_of_mem hsunday with ⟨before, after, rfl⟩
  -- A weekday behind Sunday would have a position beyond the last.
  cases after with
  | nil => exact List.getLast?_concat
  | cons w after =>
    have hlater := (List.pairwise_cons.1 (List.pairwise_append.1 h).2.1).1 w List.mem_cons_self
    exact absurd w.position_lt (Nat.not_lt.2 hlater)

end Calendar.Weekday

/-! ## Payloads with the same codes -/

/-- The same fields, but for the order and the repetitions of the weekdays. -/
structure Payload.Alike (p q : Payload) : Prop where
  frequency : p.frequency = q.frequency
  period : p.period = q.period
  index : p.index = q.index
  weekdays : Option.Rel (fun ns ms => ∀ n, n ∈ ns ↔ n ∈ ms) p.weekdays q.weekdays

theorem Payload.Valid.of_alike {p q : Payload} (h : p.Valid) (hpq : p.Alike q) : q.Valid := by
  refine ⟨hpq.frequency ▸ h.frequency, hpq.period ▸ h.period, hpq.index ▸ h.index, ?_⟩
  intro ms hms n hn
  have hweekdays := hpq.weekdays
  rw [hms] at hweekdays
  cases hp : p.weekdays with
  | none =>
    rw [hp] at hweekdays
    cases hweekdays
  | some ns =>
    rw [hp] at hweekdays
    cases hweekdays with
    | some hcodes => exact h.weekdays ns hp n ((hcodes n).2 hn)

namespace Rule

theorem Matches.of_alike {r : Rule} {p q : Payload} (h : r.Matches p) (hpq : p.Alike q) :
    r.Matches q := by
  refine ⟨h.frequency.trans hpq.frequency, h.period.trans hpq.period, h.index.trans hpq.index, ?_⟩
  have hlists : ∀ {ws : Option (List Weekday)} {ns ms : Option (List Int)},
    Option.Rel Weekday.Lists ws ns →
      Option.Rel (fun ns ms => ∀ n, n ∈ ns ↔ n ∈ ms) ns ms → Option.Rel Weekday.Lists ws ms := by
    intro ws ns ms hws hns
    cases hws with
    | none =>
      cases hns
      exact .none
    | some hlists =>
      cases hns with
      | some hcodes => exact .some ⟨hlists.1, fun w => (hlists.2 w).trans (hcodes _)⟩
  exact hlists h.weekdays hpq.weekdays

/-- Payloads that are alike make one rule, whether it is built or read. -/
theorem exists_rule_of_alike {p q : Payload} (h : p.Valid) (hpq : p.Alike q) :
    ∃ r : Rule, (LooseRule.ofFields (.ofPayload p) = .ok ⟨r, none⟩ ∧ ofPayload p = .ok r) ∧
      LooseRule.ofFields (.ofPayload q) = .ok ⟨r, none⟩ ∧ ofPayload q = .ok r := by
  rcases exists_matches h with ⟨r, hr⟩
  -- Both constructions make the rule that matches, and this rule matches both payloads.
  have hbuilt : ∀ {p : Payload}, p.Valid → r.Matches p →
      LooseRule.ofFields (.ofPayload p) = .ok ⟨r, none⟩ ∧ ofPayload p = .ok r := by
    intro p h hr
    exact ⟨LooseRule.ofFields_eq_ok_iff.2 (LooseRule.isOf_ofPayload h hr),
      ofPayload_eq_ok_iff.2 ⟨h, hr⟩⟩
  exact ⟨r, hbuilt h hr, hbuilt (h.of_alike hpq) (hr.of_alike hpq)⟩

end Rule

/-- Rules with integers for indices count as the same only when they are. -/
theorem LooseRule.same_iff {r s : Rule} : same ⟨r, none⟩ ⟨s, none⟩ = true ↔ r = s := by
  constructor
  · intro h
    simp only [same, indexValue, Option.map_none, Option.none_or, Bool.and_eq_true, beq_iff_eq] at h
    rcases h with ⟨⟨⟨hfrequency, hperiod⟩, hindex⟩, hweekdays⟩
    -- The indices were compared as rational numbers, for the sake of those that are no integers.
    have hnat : r.index = s.index := Option.map_injective (fun _ _ => Rat.natCast_inj.1) hindex
    exact Rule.eq_of_fields hfrequency hperiod hnat hweekdays
  · rintro rfl
    simp [same]

/-! ## Texts -/

namespace Payload

theorem told_toJson (p : Payload) : Json.Told p.toJson := by
  refine .object ?_ ?_
  · intro m hm
    simp only [toMembers, List.mem_cons, List.mem_append, List.mem_map] at hm
    rcases hm with rfl | rfl | ⟨i, -, rfl⟩ | ⟨ns, -, rfl⟩ <;> rfl
  · intro m hm
    simp only [toMembers, List.mem_cons, List.mem_append, List.mem_map] at hm
    rcases hm with rfl | rfl | ⟨i, -, rfl⟩ | ⟨ns, -, rfl⟩
    · exact .int _
    · exact .int _
    · exact .int i
    · refine .array ?_
      intro j hj
      rcases List.mem_map.1 hj with ⟨n, -, rfl⟩
      exact .int n

theorem toJson_inj {p q : Payload} (h : p.toJson = q.toJson) : p = q := by
  have hp := ofJson?_toJson p
  rw [h, ofJson?_toJson] at hp
  exact (Option.some.inj hp).symm

end Payload

namespace Rule

theorem toPayload_inj {r s : Rule} (h : r.toPayload = s.toPayload) : r = s := by
  have hr := ofPayload_toPayload r
  rw [h, ofPayload_toPayload] at hr
  exact (Except.ok.inj hr).symm

theorem encode_inj {r s : Rule} (h : r.encode = s.encode) : r = s :=
  toPayload_inj (Payload.toJson_inj (Json.compact_inj (Payload.told_toJson _)
    (Payload.told_toJson _) h))

/-- Valid fields make the same rule, with the same summaries and the same text, whatever the order
and the repetitions of the codes. Only the same rules have the same text, so absent and empty
weekdays have different texts, and so have an absent and a present index. Sorted weekdays are the
distinct ones that were given, Monday first and Sunday last; sorting them again changes nothing, and
neither does another order or a repetition. -/
theorem canonical_form :
    (∀ p q : Payload, p.Valid → p.Alike q →
      ∃ r s : Rule, (LooseRule.ofFields (.ofPayload p) = .ok ⟨r, none⟩ ∧ ofPayload p = .ok r) ∧
        (LooseRule.ofFields (.ofPayload q) = .ok ⟨s, none⟩ ∧ ofPayload q = .ok s) ∧
        LooseRule.same ⟨r, none⟩ ⟨s, none⟩ = true ∧
          (∀ anchor, r.summarize anchor = s.summarize anchor) ∧
        r.encode = s.encode) ∧
      (∀ r s : Rule, r.encode = s.encode ↔ LooseRule.same ⟨r, none⟩ ⟨s, none⟩ = true) ∧
      (∀ r s : Rule, (r.weekdays = none ∧ s.weekdays = some []) ∨
        (r.index = none ∧ s.index.isSome = true) →
        r.encode ≠ s.encode) ∧
      ∀ ws : List Weekday, (∀ w, w ∈ Weekday.sorted ws ↔ w ∈ ws) ∧
        Weekday.Ascending (Weekday.sorted ws) ∧
        (Weekday.sorted ws).Nodup ∧ (.sunday ∈ ws → (Weekday.sorted ws).getLast? = some .sunday) ∧
        Weekday.sorted (Weekday.sorted ws) = Weekday.sorted ws ∧
        ∀ vs, Weekday.sorted vs = Weekday.sorted ws ↔ ∀ w, w ∈ vs ↔ w ∈ ws := by
  refine ⟨?_, ?_, ?_, ?_⟩
  · intro p q h hpq
    rcases exists_rule_of_alike h hpq with ⟨r, hp, hq⟩
    exact ⟨r, r, hp, hq, LooseRule.same_iff.2 rfl, fun _ => rfl, rfl⟩
  · intro r s
    rw [LooseRule.same_iff]
    exact ⟨encode_inj, congrArg encode⟩
  · intro r s h htext
    cases encode_inj htext
    rcases h with ⟨hnone, hempty⟩ | ⟨hnone, hsome⟩
    · rw [hnone] at hempty
      cases hempty
    · rw [hnone] at hsome
      cases hsome
  · intro ws
    have hascending := Weekday.ascending_sorted ws
    exact ⟨fun w => Weekday.mem_sorted, hascending, nodup_of_ascending Weekday.position hascending,
      fun hsunday => Weekday.getLast?_of_ascending hascending (Weekday.mem_sorted.2 hsunday),
      Weekday.sorted_of_ascending hascending, fun vs => Weekday.sorted_eq_iff⟩

/-- Sunday, Saturday and Sunday again, in three ways. -/
theorem canonical_form_of_weekends :
    (∃ r s : Rule, ofPayload ⟨1, 1, none, some [1, 7, 1]⟩ = .ok r ∧
        ofPayload ⟨1, 1, none, some [7, 1]⟩ = .ok s ∧ r.encode = s.encode) ∧
      (Weekday.sorted [.sunday, .saturday, .sunday]).getLast? = some .sunday ∧
      everyOtherWeek.encode ≠
        encode { everyOtherWeek with index := none, index_mem := index_mem_none } := by
  rcases canonical_form with ⟨hbuild, -, htext, hsorted⟩
  have hvalid : Payload.Valid ⟨1, 1, none, some [1, 7, 1]⟩ := by
    refine ⟨by decide, by decide, nofun, ?_⟩
    rintro _ ⟨⟩
    decide
  have halike : Payload.Alike ⟨1, 1, none, some [1, 7, 1]⟩ ⟨1, 1, none, some [7, 1]⟩ := by
    refine ⟨rfl, rfl, rfl, .some ?_⟩
    intro n
    simp [or_comm]
  rcases hbuild _ _ hvalid halike with ⟨r, s, ⟨-, hr⟩, ⟨-, hs⟩, -, -, hencode⟩
  refine ⟨⟨r, s, hr, hs, hencode⟩, (hsorted _).2.2.2.1 (by decide), ?_⟩
  exact (htext _ _ (.inr ⟨rfl, rfl⟩)).symm

end Rule

end Cadence
