import Mathlib.Data.List.Perm.Subperm
import Mathlib.Data.List.Sort

/-!
# Ascending — lists in strict order of a number

The items of a list ascend by a key when the number of each is below those of all later ones. No
item stands in such a list twice, and the list is known by its members.

- `nodup_of_ascending`, `eq_of_ascending`: its items are different, and tell it from other such
  lists
- `sublist_of_ascending`, `prefix_of_ascending`: how it lies in a list with more items
-/

namespace Cadence

variable {α : Type} (key : α → Nat) {xs ys : List α}

theorem nodup_of_ascending (h : xs.Pairwise (key · < key ·)) : xs.Nodup := by
  refine h.imp ?_
  rintro x _ hlt rfl
  exact Nat.lt_irrefl (key x) hlt

theorem antisymm_key : Std.Antisymm fun x y : α => key x < key y :=
  ⟨fun x _ hxy hyx => absurd (Nat.lt_trans hxy hyx) (Nat.lt_irrefl (key x))⟩

/-- Ascending lists are told apart by their members. -/
theorem eq_of_ascending (hxs : xs.Pairwise (key · < key ·)) (hys : ys.Pairwise (key · < key ·))
    (h : ∀ x, x ∈ xs ↔ x ∈ ys) : xs = ys := by
  have hirrefl : Std.Irrefl fun x y : α => key x < key y := ⟨fun x => Nat.lt_irrefl (key x)⟩
  have hantisymm := antisymm_key key
  exact List.Pairwise.eq_of_mem_iff hxs hys h

/-- If all items of an ascending list are in another one, they stand there in the same order. -/
theorem sublist_of_ascending (hxs : xs.Pairwise (key · < key ·)) (hys : ys.Pairwise (key · < key ·))
    (h : ∀ x ∈ xs, x ∈ ys) : xs.Sublist ys := by
  have hantisymm := antisymm_key key
  exact List.sublist_of_subperm_of_pairwise
    (List.subperm_of_subset (nodup_of_ascending key hxs) h) hxs hys

/-- If they leave out none that is not after one of them, they begin the other list. -/
theorem prefix_of_ascending (hxs : xs.Pairwise (key · < key ·)) (hys : ys.Pairwise (key · < key ·))
    (hmem : ∀ x ∈ xs, x ∈ ys) (hearlier : ∀ x ∈ xs, ∀ y ∈ ys, key y ≤ key x → y ∈ xs) :
    xs <+: ys := by
  induction ys generalizing xs with
  | nil =>
    have hnil : xs = [] := List.eq_nil_iff_forall_not_mem.2 fun x hx => List.not_mem_nil (hmem x hx)
    subst hnil
    exact List.nil_prefix
  | cons y ys ih =>
    cases xs with
    | nil => exact List.nil_prefix
    | cons x xs =>
      rw [List.pairwise_cons] at hxs hys
      -- Each of the two first items is among the other items, so none of them is before the other.
      have hsame : x = y := by
        rcases List.mem_cons.1 (hmem x List.mem_cons_self) with heq | hx
        · exact heq
        · have hlt := hys.1 x hx
          have hy := hearlier x List.mem_cons_self y List.mem_cons_self (Nat.le_of_lt hlt)
          rcases List.mem_cons.1 hy with heq | hy
          · exact heq.symm
          · have hgt := hxs.1 y hy
            omega
      subst hsame
      refine List.prefix_cons_inj x |>.2 (ih hxs.2 hys.2 ?_ ?_)
      · intro z hz
        have hne : z ≠ x := fun heq => Nat.ne_of_gt (hxs.1 z hz) (congrArg key heq)
        exact (List.mem_cons.1 (hmem z (List.mem_cons_of_mem x hz))).resolve_left hne
      · intro z hz y hy hle
        have hne : y ≠ x := fun heq => Nat.ne_of_gt (hys.1 y hy) (congrArg key heq)
        have hfound := hearlier z (List.mem_cons_of_mem x hz) y (List.mem_cons_of_mem x hy) hle
        exact (List.mem_cons.1 hfound).resolve_left hne

end Cadence
