import Cadence.Proofs.Except
import Cadence.Proofs.Rule.Stored
import Cadence.Proofs.Service.Integer
import Cadence.Service.Respond

/-!
# Field — when the fields of a request are read

A request is read field by field, and all of its fields are read or none is.

- `Checked.and_eq_ok_iff`, `required_eq_ok_iff`: readings that return
- `members_eq_ok_iff`, `readBody_compact`: the members of a body
- `short_of_ruleFields`: no frequency that is read is too long
-/

namespace Cadence
namespace Service

open Json Text

variable {α β : Type}

theorem Checked.and_eq_ok_iff {a : Checked α} {b : Checked β} {x : α × β} :
    a.and b = .ok x ↔ a = .ok x.1 ∧ b = .ok x.2 := by
  rcases x with ⟨x, y⟩
  cases a <;> cases b <;> simp [Checked.and]

theorem checked_eq_ok_iff {c : Checked α} {x : α} : checked c = .ok x ↔ c = .ok x :=
  mapError_eq_ok_iff

section Fields

variable {read : Json → Except FieldFault α} {ms : Members} {name : String}

theorem required_eq_ok_iff {x : α} :
    required read ms name = .ok x ↔ ∃ j, lookup name ms = some j ∧ read j = .ok x := by
  unfold required
  cases lookup name ms with
  | none => simp [located, mapError_eq_ok_iff]
  | some j => simp [located, mapError_eq_ok_iff]

end Fields

/-! ## Bodies -/

/-- An empty body holds nothing, so it needs no case of its own. -/
theorem members_eq_ok_iff {text : String} {ms : Members} :
    members text = .ok ms ↔ readBody text = .ok (.object ms) := by
  have hempty : readBody "" = .error .malformed := rfl
  unfold members
  split
  · rename_i htext
    subst htext
    simp [hempty]
  · split
    · rename_i h
      simp [h]
    · rename_i h
      simp [h]
    · rename_i h
      simp [h]
    · rename_i j hne h
      simpa [h] using hne ms

theorem short_of_members {text : String} {ms : Members} (h : members text = .ok ms)
    {name : Spelling}
    {n : Int} (hn : (name, .int n) ∈ ms) : Short n := by
  have hbody := members_eq_ok_iff.1 h
  unfold readBody at hbody
  split at hbody
  · cases hbody
  · split at hbody
    · rename_i hread
      cases hbody
      exact short_of_readCodes hread hn
    · cases hbody
    · cases hbody
    · cases hbody

/-- Two bytes that are not zero are enough to tell UTF-8. -/
theorem detect_of_ne_zero {a b : UInt8} (ha : a ≠ 0) (hb : b ≠ 0) (bytes : List UInt8) :
    Encoding.detect (a :: b :: bytes) = .utf8 := by
  rcases bytes with _ | ⟨c, _ | ⟨d, bytes⟩⟩
  · simp only [Encoding.detect, if_neg ha, if_neg hb]
  · rfl
  · simp only [Encoding.detect, if_neg ha, if_neg hb]

theorem bytes_ofList (cs : List Char) :
    (String.ofList cs).toUTF8.data.toList = cs.flatMap String.utf8EncodeChar := by
  simp [String.toUTF8, String.ofList, List.utf8Encode]

/-- A body that begins like an object with members is read as it is written. -/
theorem bodyCodes?_object (cs : List Char) :
    bodyCodes? (String.ofList ('\x7b' :: '"' :: cs)) =
      some (codesOf (String.ofList ('\x7b' :: '"' :: cs))) := by
  have hutf8 :
      Encoding.detect ((String.ofList ('\x7b' :: '"' :: cs)).toUTF8.data.toList.take 4) =
        .utf8 := by
    have hbytes : ('\x7b' :: '"' :: cs).flatMap String.utf8EncodeChar =
        0x7b :: 0x22 :: cs.flatMap String.utf8EncodeChar := rfl
    rw [bytes_ofList, hbytes]
    exact detect_of_ne_zero (by decide) (by decide) _
  have hmark : (codesOf (String.ofList ('\x7b' :: '"' :: cs))).head? ≠ some byteOrderMark := by
    rw [codesOf, String.toList_ofList]
    simp [byteOrderMark]
  simp only [bodyCodes?, hutf8, Encoding.decode?, Option.map_some, hmark, and_false, if_false]

/-- Compact text of an object with members is read as a body. -/
theorem readBody_compact {m : Spelling × Json} {ms : Members}
    (h : Renders requestText requestText.maxDepth (.object (m :: ms))
      (compactCodes (.object (m :: ms)))) :
    readBody (compact (.object (m :: ms))) = .ok (.object (m :: ms)) := by
  have hbegins : ∃ cs, compact (.object (m :: ms)) = String.ofList ('\x7b' :: '"' :: cs) := by
    rcases m with ⟨name, j⟩
    cases ms with
    | nil => exact ⟨_, rfl⟩
    | cons m ms => exact ⟨_, rfl⟩
  have hcodes : bodyCodes? (compact (.object (m :: ms))) =
      some (codesOf (compact (.object (m :: ms)))) := by
    rcases hbegins with ⟨cs, hcs⟩
    rw [hcs]
    exact bodyCodes?_object cs
  have hread : readCodes requestText (codesOf (compact (.object (m :: ms)))) =
    .ok (.object (m :: ms)) :=
    read_compact h
  simp only [readBody, hcodes, hread]

/-! ## Rules -/

theorem ruleFields_frequency {ms : Members} {p : Payload} (h : ruleFields ms = .ok p) :
    ∃ j, lookup "frequency" ms = some j ∧ integer j = .ok p.frequency := by
  rcases map_eq_ok_iff.1 h with ⟨fields, hfields, rfl⟩
  have hnumbers := (Checked.and_eq_ok_iff.1 hfields).1
  have hfrequency := (Checked.and_eq_ok_iff.1 hnumbers).1
  exact required_eq_ok_iff.1 hfrequency

/-- The frequency that a body names is short, in whatever spelling it is given. -/
theorem short_of_ruleFields {text : String} {ms : Members} {p : Payload}
    (hms : members text = .ok ms)
    (hp : ruleFields ms = .ok p) : Short p.frequency := by
  rcases ruleFields_frequency hp with ⟨j, hlookup, hinteger⟩
  refine short_of_integer ?_ hinteger
  rintro m rfl
  exact short_of_members hms (mem_of_lookup hlookup)

end Service
end Cadence
