/-!
# Table — the stored rules

Rows are kept in ascending order of their ids. A new row gets the id after the greatest one, so the
ids of the last rows are used again once they are deleted.

- `Table.insert`, `Table.find?`, `Table.erase`: the operations
- `Table.nextId`: the id of the next row
-/

namespace Cadence
namespace Service

/-- A stored rule. The time at which it was stored is left out. -/
structure Row where
  id : Nat
  name : String
  payload : String
  deriving DecidableEq, Repr

structure Table where
  rows : List Row
  ascending : rows.Pairwise (·.id < ·.id)
  deriving DecidableEq, Repr

namespace Table

def empty : Table := ⟨[], List.Pairwise.nil⟩

/-- One more than the greatest id, or 1. -/
def nextId (t : Table) : Nat := (t.rows.getLast?.map Row.id).getD 0 + 1

theorem id_lt_nextId (t : Table) {r : Row} (h : r ∈ t.rows) : r.id < t.nextId := by
  obtain ⟨rows, asc⟩ := t
  obtain ⟨l, hl⟩ := Option.isSome_iff_exists.1 (List.getLast?_isSome.2 (List.ne_nil_of_mem h))
  obtain ⟨rs, rfl⟩ := List.getLast?_eq_some_iff.1 hl
  simp only [nextId, hl, Option.map_some, Option.getD_some]
  rcases List.mem_append.1 h with h | h
  · have := (List.pairwise_append.1 asc).2.2 r h l (by simp)
    omega
  · rw [List.mem_singleton.1 h]
    omega

def insert (t : Table) (name payload : String) : Table where
  rows := t.rows ++ [⟨t.nextId, name, payload⟩]
  ascending := by
    refine List.pairwise_append.2 ⟨t.ascending, List.pairwise_singleton _ _, ?_⟩
    intro a ha b hb
    rw [List.mem_singleton.1 hb]
    exact t.id_lt_nextId ha

def find? (t : Table) (id : Int) : Option Row := t.rows.find? fun r => (r.id : Int) == id

def erase (t : Table) (id : Int) : Table where
  rows := t.rows.filter fun r => (r.id : Int) != id
  ascending := t.ascending.filter _

end Table

end Service
end Cadence
