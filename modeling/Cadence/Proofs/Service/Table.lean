import Cadence.Service.Table
import Mathlib.Data.List.Nodup

/-!
# Table — rows by their ids

No two rows share an id, so a table answers for an id with one row at most.

- `Table.eq_of_id`: a row is known by its id
- `Table.find?_eq_some_iff`, `Table.find?_eq_none_iff`: looking up an id
- `Table.mem_insert_iff`, `Table.mem_erase_iff`: the rows after a change
- `Table.nextId_eq`: the id of the next row
-/

namespace Cadence
namespace Service
namespace Table

variable {t : Table} {r : Row}

theorem nodup_ids (t : Table) : (t.rows.map Row.id).Nodup :=
  (List.pairwise_map.2 t.ascending).imp Nat.ne_of_lt

theorem eq_of_id {a b : Row} (ha : a ∈ t.rows) (hb : b ∈ t.rows) (h : a.id = b.id) : a = b :=
  List.inj_on_of_nodup_map t.nodup_ids ha hb h

theorem find?_eq_some_iff {id : Int} : t.find? id = some r ↔ r ∈ t.rows ∧ (r.id : Int) = id := by
  have hfound {found : Row} {i : Int} (h : t.find? i = some found) :
      found ∈ t.rows ∧ (found.id : Int) = i := by
    unfold find? at h
    have hid := List.find?_some h
    exact ⟨List.mem_of_find?_eq_some h, eq_of_beq hid⟩
  refine ⟨hfound, ?_⟩
  rintro ⟨hr, rfl⟩
  cases hfind : t.find? r.id with
  | none =>
    have hnone := List.find?_eq_none.1 hfind r hr
    exact absurd (beq_self_eq_true (r.id : Int)) hnone
  | some found =>
    rcases hfound hfind with ⟨hmem, hid⟩
    rw [eq_of_id hmem hr (Int.ofNat.inj hid)]

theorem find?_eq_none_iff {id : Int} : t.find? id = none ↔ ∀ r ∈ t.rows, (r.id : Int) ≠ id := by
  simp [find?]

theorem mem_insert_iff {name payload : String} :
    r ∈ (t.insert name payload).rows ↔ r ∈ t.rows ∨ r = ⟨t.nextId, name, payload⟩ := by
  simp [insert]

theorem mem_erase_iff {id : Int} : r ∈ (t.erase id).rows ↔ r ∈ t.rows ∧ (r.id : Int) ≠ id := by
  simp [erase]

/-- One more than the id of some row, which is then the greatest, or 1 when there is no row. -/
theorem nextId_eq (t : Table) :
    (t.rows = [] ∧ t.nextId = 1) ∨ ∃ r ∈ t.rows, t.nextId = r.id + 1 := by
  cases hlast : t.rows.getLast? with
  | none =>
    refine .inl ⟨List.getLast?_eq_none_iff.1 hlast, ?_⟩
    rw [nextId, hlast]
    rfl
  | some r =>
    refine .inr ⟨r, List.mem_of_getLast? hlast, ?_⟩
    rw [nextId, hlast]
    rfl

end Table
end Service
end Cadence
