import Cadence.Proofs.Service.Field
import Cadence.Proofs.Text.Blank

/-!
# Create — what a request to store a rule stores

The name is trimmed and not empty. The fields are read leniently, but the rule they make is one that
the strict reader of stored texts takes back.

- `createRequest_eq_ok`: how a request comes to a name and a rule
- `createRequest_eq`: once its fields and its name are read, only the rule can be refused
- `name_of_createRequest`, `decode_of_createRequest`: the name and the rule that are stored
-/

namespace Cadence
namespace Service

open Json Text

variable {text : String} {ms : Members} {p : Payload} {rule : Rule}

theorem text_eq_ok_iff {j : Json} {name : Spelling} :
    Service.text j = .ok name ↔ j = .text name := by
  cases j with
  | text s => simp [Service.text]
  | _ => simp [Service.text]

theorem createRequest_eq_ok {name : Spelling} (h : createRequest text = .ok (name, rule)) :
    ∃ ms p given, members text = .ok ms ∧ ruleFields ms = .ok p ∧
      lookup "name" ms = some (.text given) ∧ trimmedName given ≠ .chars "" ∧
      name = trimmedName given ∧ ruleOf p = .ok rule := by
  unfold createRequest at h
  rcases bind_eq_ok h with ⟨ms, hms, h⟩
  rcases bind_eq_ok h with ⟨⟨p, given⟩, hfields, h⟩
  rcases Checked.and_eq_ok_iff.1 (checked_eq_ok_iff.1 hfields) with ⟨hp, hname⟩
  rcases required_eq_ok_iff.1 hname with ⟨j, hlookup, htext⟩
  rcases text_eq_ok_iff.1 htext with rfl
  simp only at h
  split at h
  · cases h
  · rename_i hblank
    rcases bind_eq_ok h with ⟨made, hrule, h⟩
    cases h
    exact ⟨ms, p, given, hms, hp, hlookup, hblank, rfl, mapError_eq_ok_iff.1 hrule⟩

theorem createRequest_eq {given : Spelling} (hms : members text = .ok ms)
    (hp : ruleFields ms = .ok p)
    (hname : lookup "name" ms = some (.text given)) (hblank : trimmedName given ≠ .chars "") :
    createRequest text = ((ruleOf p).mapError .rule).map (trimmedName given, ·) := by
  have hfields : checked ((ruleFields ms).and (required Service.text ms "name")) = .ok (p, given) :=
    checked_eq_ok_iff.2
      (Checked.and_eq_ok_iff.2 ⟨hp, required_eq_ok_iff.2 ⟨_, hname, text_eq_ok_iff.2 rfl⟩⟩)
  simp only [createRequest, hms, hfields, bind, Except.bind, if_neg hblank]
  cases ruleOf p <;> rfl

/-! ## Names -/

/-- A stored name is not empty, and nothing is left to trim. -/
theorem name_of_createRequest {name : String} (h : createRequest text = .ok (.chars name, rule)) :
    name ≠ "" ∧ trim isBlank name.toList = name.toList := by
  rcases createRequest_eq_ok h with ⟨_, _, given, -, -, -, hblank, hname, -⟩
  rw [← hname] at hblank
  refine ⟨fun hempty => hblank (congrArg Spelling.chars hempty), ?_⟩
  cases given with
  | codes points => cases hname
  | chars given =>
    cases hname
    rw [String.toList_ofList, trim_trim]

/-! ## Rules -/

theorem ruleOf_frequency (h : ruleOf p = .ok rule) : (rule.frequency : Int) = p.frequency := by
  unfold ruleOf at h
  rcases bind_eq_ok h with ⟨period, -, h⟩
  rcases bind_eq_ok h with ⟨weekdays, -, h⟩
  exact (Rule.build_eq_ok h).1

/-- A rule that was made from the fields of a body reads back from its stored text. -/
theorem decode_of_ruleOf (hms : members text = .ok ms) (hp : ruleFields ms = .ok p)
    (hrule : ruleOf p = .ok rule) : Rule.decode rule.encode = some rule := by
  have hshort : Short rule.frequency := by
    rw [ruleOf_frequency hrule]
    exact short_of_ruleFields hms hp
  exact Rule.decode_encode hshort

theorem decode_of_createRequest {name : Spelling} (h : createRequest text = .ok (name, rule)) :
    Rule.decode rule.encode = some rule := by
  rcases createRequest_eq_ok h with ⟨_, _, _, hms, hp, -, -, -, hrule⟩
  exact decode_of_ruleOf hms hp hrule

end Service
end Cadence
