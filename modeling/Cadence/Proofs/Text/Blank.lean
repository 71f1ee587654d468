import Cadence.Text.Blank
import Mathlib.Data.List.DropRight

/-!
# Blank — what trimming takes away and what it leaves

- `trim_trim`: a text that was trimmed stays as it is
- `trim_surrounded`: characters of the set around a text are taken away
- `trim_map`: characters that are replaced by others of their kind
-/

namespace Cadence
namespace Text

variable {p : Char → Bool} {cs ds : List Char}

theorem dropWhile_eq_self (h : ds <+: cs.dropWhile p) : ds.dropWhile p = ds := by
  cases ds with
  | nil => rfl
  | cons c ds =>
    rcases h with ⟨rest, h⟩
    have hfirst := List.head?_dropWhile_not p cs
    rw [← h] at hfirst
    have hc : p c = false := by simpa using hfirst
    rw [List.dropWhile_cons_of_neg (by simp [hc])]

theorem trim_trim (p : Char → Bool) (cs : List Char) : trim p (trim p cs) = trim p cs := by
  -- What is left at the end begins where the text began after the first drop.
  have hprefix : trim p cs <+: cs.dropWhile p := List.rdropWhile_prefix p _
  calc
    trim p (trim p cs) = ((trim p cs).dropWhile p).rdropWhile p := rfl
    _ = (trim p cs).rdropWhile p := by rw [dropWhile_eq_self hprefix]
    _ = trim p cs := List.rdropWhile_idempotent p _

theorem trim_surrounded {before behind : List Char} (hbefore : ∀ c ∈ before, p c = true)
    (hbehind : ∀ c ∈ behind, p c = true) : trim p (before ++ cs ++ behind) = trim p cs := by
  unfold trim
  rw [List.append_assoc, List.dropWhile_append_of_pos hbefore, List.dropWhile_append]
  split
  · -- Nothing of the text is left, and so nothing of what is behind it.
    rename_i hnone
    rw [List.isEmpty_iff.1 hnone, List.dropWhile_eq_nil_iff.2 hbehind]
  · have hreversed : ∀ c ∈ behind.reverse, p c = true :=
      fun c hc => hbehind c (List.mem_reverse.1 hc)
    rw [List.reverse_append, List.dropWhile_append_of_pos hreversed]

theorem trim_map {f : Char → Char} (hf : ∀ c, p (f c) = p c) (cs : List Char) :
    trim p (cs.map f) = (trim p cs).map f := by
  have hsame : p ∘ f = p := funext hf
  unfold trim
  rw [List.dropWhile_map, hsame, ← List.map_reverse, List.dropWhile_map, hsame, List.map_reverse]

end Text
end Cadence
