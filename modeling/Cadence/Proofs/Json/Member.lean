import Cadence.Json.Basic

/-!
# Member — what the members of an object hold

Names may occur more than once among the members of an object, and the last member of a name counts.

- `IsLast`, `IsAbsent`: the last member of a name, and a name without members
- `HoldsOptional`: a field that may be absent or null
- `lookup_eq_some_iff`, `lookup_eq_none_iff`: looking up a name
-/

namespace Cadence
namespace Json

open Text

/-- The last member of a name, and its value. -/
def IsLast (name : Spelling) (j : Json) (ms : Members) : Prop :=
  ∃ before after, ms = before ++ (name, j) :: after ∧ ∀ m ∈ after, m.1 ≠ name

def IsAbsent (name : Spelling) (ms : Members) : Prop := ∀ m ∈ ms, m.1 ≠ name

theorem lookup_eq_some_iff {name : Spelling} {ms : Members} {j : Json} :
    lookup name ms = some j ↔ IsLast name j ms := by
  rw [lookup, Option.map_eq_some_iff]
  refine ⟨?_, ?_⟩
  · rintro ⟨⟨found, _⟩, hfind, rfl⟩
    rcases List.find?_eq_some_iff_append.1 hfind with ⟨hname, after, before, hms, hafter⟩
    have hfound : found = name := eq_of_beq hname
    subst hfound
    refine ⟨before.reverse, after.reverse, ?_, ?_⟩
    · simpa using congrArg List.reverse hms
    · intro m hm
      simpa using hafter m (List.mem_reverse.1 hm)
  · rintro ⟨before, after, rfl, hafter⟩
    refine ⟨(name, j), ?_, rfl⟩
    rw [List.find?_eq_some_iff_append]
    refine ⟨beq_self_eq_true name, after.reverse, before.reverse, by simp, ?_⟩
    intro m hm
    simpa using hafter m (List.mem_reverse.1 hm)

theorem lookup_eq_none_iff {name : Spelling} {ms : Members} :
    lookup name ms = none ↔ IsAbsent name ms := by
  simp [lookup, IsAbsent]

/-- What a field that may be absent or null holds: nothing, or a value with its JSON. -/
def HoldsOptional {α : Type} (name : Spelling) (toJson : α → Json) (ms : Members) : Option α → Prop
  | none => IsAbsent name ms ∨ IsLast name .null ms
  | some x => IsLast name (toJson x) ms

theorem mem_of_lookup {name : Spelling} {ms : Members} {j : Json} (h : lookup name ms = some j) :
    (name, j) ∈ ms := by
  rcases lookup_eq_some_iff.1 h with ⟨before, after, rfl, -⟩
  exact List.mem_append_right before List.mem_cons_self

/-! ## Deciding what texts an object holds -/

section Decide

variable {name : Spelling} {ms : Members}

def text? : Json → Option Spelling
  | .text s => some s
  | _ => none

theorem text?_eq_some_iff {j : Json} {s : Spelling} : j.text? = some s ↔ j = .text s := by
  cases j with
  | text u => simp [text?]
  | _ => simp [text?]

def isNull : Json → Bool
  | .null => true
  | _ => false

theorem isNull_iff {j : Json} : j.isNull = true ↔ j = .null := by
  cases j with
  | null => simp [isNull]
  | _ => simp [isNull]

theorem isLast_text_iff {s : Spelling} :
    (lookup name ms).bind text? = some s ↔ IsLast name (.text s) ms := by
  rw [← lookup_eq_some_iff, Option.bind_eq_some_iff]
  simp [text?_eq_some_iff]

theorem isLast_null_iff : (lookup name ms).any isNull = true ↔ IsLast name .null ms := by
  rw [← lookup_eq_some_iff, Option.any_eq_true]
  simp [isNull_iff]

instance (s : Spelling) : Decidable (IsLast name (.text s) ms) := decidable_of_iff _ isLast_text_iff

instance : Decidable (IsLast name .null ms) := decidable_of_iff _ isLast_null_iff

instance : Decidable (IsAbsent name ms) := inferInstanceAs (Decidable (∀ m ∈ ms, m.1 ≠ name))

instance {α : Type} (spell : α → Spelling) (value : Option α) :
    Decidable (HoldsOptional name (fun x => .text (spell x)) ms value) :=
  match value with
  | none => inferInstanceAs (Decidable (IsAbsent name ms ∨ IsLast name .null ms))
  | some x => inferInstanceAs (Decidable (IsLast name (.text (spell x)) ms))

end Decide

end Json
end Cadence
