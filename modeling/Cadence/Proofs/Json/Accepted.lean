import Cadence.Json.Reader
import Cadence.Proofs.Except
import Cadence.Proofs.Text.Digits

/-!
# Accepted — what the values that the reader returns are made of

- `Yields`: the values that a reader returns on some text
- `Accepted`: what the reader of one level returns, one case a kind of value
- `short_of_readCodes`: integers in the members of an object that is read are within the limit of
  digits
-/

namespace Cadence
namespace Json

open Number Text

/-! ## Parts of values -/

section Parts

variable {α : Type} {d : Dialect}

/-- The reader returns `x` on some text. -/
def Yields (item : Reader α) (x : α) : Prop := ∃ ns rest, item ns = .ok (x, rest)

theorem yields_of_items {item : Reader α} {close fuel : Nat} {ns rest : List Nat} {xs : List α}
    (h : items item close fuel ns = .ok (xs, rest)) : ∀ x ∈ xs, Yields item x := by
  -- Every round reads one item, and the rest comes from a later round.
  induction fuel generalizing ns xs rest with
  | zero => cases h
  | succ fuel ih =>
    rcases bind_eq_ok h with ⟨⟨x, after⟩, hitem, h⟩
    simp only at h
    split at h
    · -- A comma, so more items follow.
      rcases bind_eq_ok h with ⟨⟨ys, last⟩, hothers, h⟩
      cases h
      intro y hy
      rcases List.mem_cons.1 hy with rfl | hy
      · exact ⟨ns, after, hitem⟩
      · exact ih hothers y hy
    · split at h
      · cases h
        intro y hy
        rcases List.mem_singleton.1 hy with rfl
        exact ⟨ns, after, hitem⟩
      · cases h
    · cases h

theorem yields_of_bracketed {item? : Option (Reader α)} {close : Nat} {ns rest : List Nat}
    {xs : List α} (h : bracketed d item? close ns = .ok (xs, rest)) :
    ∀ x ∈ xs, ∃ item ∈ item?, Yields item x := by
  unfold bracketed at h
  split at h
  · cases h
    intro x hx
    cases hx
  · intro x hx
    exact ⟨_, rfl, yields_of_items h x hx⟩
  · split at h
    · cases h
    · cases h
      intro x hx
      cases hx
  · cases h

theorem yields_of_member {read : Reader Json} {m : Spelling × Json} (h : Yields (member d read) m) :
    Yields read m.2 := by
  rcases h with ⟨ns, rest, h⟩
  unfold member at h
  split at h
  · rcases bind_eq_ok h with ⟨⟨name, afterName⟩, -, h⟩
    simp only at h
    split at h
    · rcases bind_eq_ok h with ⟨⟨j, last⟩, hread, h⟩
      cases h
      exact ⟨_, _, hread⟩
    · cases h
  · cases h

end Parts

/-! ## Numbers -/

/-- A number that the reader returns: an integer that is not too long, or a floating-point number.
-/
inductive IsNumber : Json → Prop
  | int {n : Int} (short : (decimal n.natAbs).length ≤ integerDigits) : IsNumber (.int n)
  | real (x : Real64) : IsNumber (.real x)

theorem length_decimal_valueOf {k : Nat} (hk : 0 < k) {cs : List Char}
    (hdigits : ∀ c ∈ cs, isDigit c = true) (hlength : cs.length ≤ k) :
    (decimal (valueOf cs)).length ≤ k := by
  rw [length_decimal_le_iff hk]
  exact Nat.lt_of_lt_of_le (valueOf_lt hdigits) (capacity_mono hlength)

theorem isNumber_of_number {d : Dialect} {cs : List Char} {j : Json} (h : number d cs = .ok j) :
    IsNumber j := by
  simp only [number, bind, Except.bind, pure, Except.pure, throw, throwThe, MonadExceptOf.throw]
    at h
  split at h
  · cases h
  · split at h
    · cases h
    · rename_i hlong
      split at h
      · cases h
      · split at h
        · -- An integer, so its digits were counted.
          rename_i hinteger
          have hlength : ((splitMinus cs).2.takeWhile isDigit).length ≤ integerDigits := by
            rw [hinteger, Bool.true_or, Bool.and_true, decide_eq_true_eq] at hlong
            exact Nat.not_lt.1 hlong
          have hvalue := length_decimal_valueOf (k := integerDigits) (by decide)
            (List.all_eq_true.1 List.all_takeWhile) hlength
          cases h
          apply IsNumber.int
          split
          · rw [Int.natAbs_neg]
            exact hvalue
          · exact hvalue
        · cases h
          exact .real _

/-! ## Values -/

/-- What the reader of one level returns: the parts of an array or object come from the inner
reader. -/
inductive Accepted (inner? : Option (Reader Json)) : Json → Prop
  | null : Accepted inner? .null
  | bool (b : Bool) : Accepted inner? (.bool b)
  | number {j : Json} (isNumber : IsNumber j) : Accepted inner? j
  | text (s : Spelling) : Accepted inner? (.text s)
  | array {js : List Json} (parts : ∀ j ∈ js, ∃ inner ∈ inner?, Yields inner j) :
      Accepted inner? (.array js)
  | object {ms : Members} (parts : ∀ m ∈ ms, ∃ inner ∈ inner?, Yields inner m.2) :
      Accepted inner? (.object ms)

theorem accepted_of_mem_words {inner? : Option (Reader Json)} {w : String × Json} (h : w ∈ words) :
    Accepted inner? w.2 := by
  simp only [words, List.mem_cons, List.not_mem_nil, or_false] at h
  rcases h with rfl | rfl | rfl | rfl | rfl | rfl
  · exact .bool true
  · exact .bool false
  · exact .null
  · exact .number (.real _)
  · exact .number (.real _)
  · exact .number (.real _)

theorem mem_words_of_word? {ns : List Nat} {found : Json × List Nat} (h : word? ns = some found) :
    ∃ w ∈ words, w.2 = found.1 := by
  rcases List.exists_of_findSome?_eq_some h with ⟨w, hw, hsome⟩
  refine ⟨w, hw, ?_⟩
  by_cases hword : (codesOf w.1).isPrefixOf ns
  · simp only [hword, if_true, Option.some.injEq] at hsome
    rw [← hsome]
  · simp only [hword] at hsome
    cases hsome

theorem accepted_of_outermost {d : Dialect} {inner? : Option (Reader Json)} {j : Json}
    (h : Yields (outermost d inner?) j) : Accepted inner? j := by
  rcases h with ⟨ns, rest, h⟩
  unfold outermost at h
  split at h
  · rcases bind_eq_ok h with ⟨⟨s, last⟩, -, h⟩
    cases h
    exact .text s
  · rcases bind_eq_ok h with ⟨⟨js, last⟩, hread, h⟩
    cases h
    exact .array (yields_of_bracketed hread)
  · rcases bind_eq_ok h with ⟨⟨ms, last⟩, hread, h⟩
    cases h
    apply Accepted.object
    intro m hm
    rcases yields_of_bracketed hread m hm with ⟨item, hitem, hyields⟩
    rcases Option.map_eq_some_iff.1 hitem with ⟨inner, hinner, rfl⟩
    exact ⟨inner, hinner, yields_of_member hyields⟩
  · split at h
    · rename_i hfound
      cases h
      rcases mem_words_of_word? hfound with ⟨w, hw, rfl⟩
      exact accepted_of_mem_words hw
    · rcases bind_eq_ok h with ⟨number, hnumber, h⟩
      cases h
      exact .number (isNumber_of_number hnumber)

theorem short_of_accepted {inner? : Option (Reader Json)} {n : Int} (h : Accepted inner? (.int n)) :
    (decimal n.natAbs).length ≤ integerDigits := by
  cases h with
  | number isNumber =>
    cases isNumber with
    | int short => exact short

theorem parts_of_accepted {inner? : Option (Reader Json)} {ms : Members}
    (h : Accepted inner? (.object ms)) : ∀ m ∈ ms, ∃ inner ∈ inner?, Yields inner m.2 := by
  cases h with
  | number isNumber => cases isNumber
  | object parts => exact parts

theorem accepted_of_value {d : Dialect} {depth : Nat} {j : Json} (h : Yields (value d depth) j) :
    ∃ inner?, (∀ inner ∈ inner?, ∃ below, inner = value d below) ∧ Accepted inner? j := by
  cases depth with
  | zero => exact ⟨none, by simp, accepted_of_outermost h⟩
  | succ depth =>
    refine ⟨some (value d depth), ?_, accepted_of_outermost h⟩
    intro inner hinner
    cases hinner
    exact ⟨depth, rfl⟩

/-- The integers among the members of an object that is read are not too long. -/
theorem short_of_readCodes {d : Dialect} {ns : List Nat} {ms : Members}
    (h : readCodes d ns = .ok (.object ms)) {name : Spelling} {n : Int} (hn : (name, .int n) ∈ ms) :
    (decimal n.natAbs).length ≤ integerDigits := by
  have hvalue : Yields (value d d.maxDepth) (.object ms) := by
    rcases bind_eq_ok h with ⟨⟨j, rest⟩, hread, h⟩
    simp only at h
    split at h
    · cases h
      exact ⟨_, _, hread⟩
    · cases h
  rcases accepted_of_value hvalue with ⟨inner?, hinner, haccepted⟩
  rcases parts_of_accepted haccepted _ hn with ⟨inner, hmem, hyields⟩
  rcases hinner inner hmem with ⟨below, rfl⟩
  rcases accepted_of_value hyields with ⟨_, -, hpart⟩
  exact short_of_accepted hpart

end Json
end Cadence
