import Cadence.Proofs.Json.Compact

/-!
# Telling — values are told apart by their compact texts

Two values with the same compact text are the same, even when more text follows, as long as it does
not go on with the digits of an integer. An integer may have more digits than the reader takes, so
the values are not read back; the two texts are taken apart side by side instead. Floating-point
numbers are left out.

- `Tells`: what a text tells of the value in front of it
- `listed_append_inj`: items between brackets
- `Told`, `Kind`: the values, and what the first characters of their texts tell
- `compact_inj`: whole texts
-/

namespace Cadence
namespace Json

open Text

/-- What follows does not go on with the digits of an integer. -/
def Stops (rest : List Char) : Prop := ∀ c ∈ rest.head?, isDigit c = false

theorem stops_nil : Stops [] := nofun

theorem stops_cons {c : Char} (h : isDigit c = false) (rest : List Char) : Stops (c :: rest) := by
  rintro _ ⟨⟩
  exact h

/-- The texts of two things, with more text behind them, are the same only if the things are and the
texts behind them. -/
def Tells {α : Type} (text : α → List Char) (a b : α) : Prop :=
  ∀ ⦃x y : List Char⦄, Stops x → Stops y → text a ++ x = text b ++ y → a = b ∧ x = y

/-! ## Integers and strings -/

theorem tells_integer (m n : Int) : Tells integer m n := by
  intro x y hx hy h
  -- The sign comes off first; what is left of the two texts are runs of digits.
  have hsplit := congrArg splitMinus h
  rw [splitMinus_integer, splitMinus_integer, Prod.mk.injEq, decide_eq_decide] at hsplit
  rcases hsplit with ⟨hsign, hdigits⟩
  rcases run_append_inj (fun _ hc => isDigit_of_mem_decimal hc)
    (fun _ hc => isDigit_of_mem_decimal hc) hx hy
    hdigits with ⟨hdecimal, hrest⟩
  have habs : m.natAbs = n.natAbs := by
    rw [← valueOf_decimal m.natAbs, hdecimal, valueOf_decimal]
  exact ⟨by omega, hrest⟩

/-- A string reads back, whatever has to be escaped in it and whatever follows. -/
theorem spelling_string (d : Dialect) (text : String) (rest : List Char) :
    ∃ ns, (string text ++ rest).map Char.toNat = Mark.quote :: ns ∧
      spelling d ns = .ok (.chars text, rest.map Char.toNat) := by
  rcases spellsText_escaped d text with ⟨written, body, hcontents, htext, hs, hstring⟩
  refine ⟨body ++ Mark.quote :: rest.map Char.toNat, ?_, ?_⟩
  · simp [hstring]
  · rw [htext] at hs ⊢
    exact spelling_of_contents hcontents hs _

theorem tells_string {s t : Spelling} (hs : s.isText = true) (ht : t.isText = true) :
    Tells string s t := by
  intro x y _ _ h
  cases s with
  | codes points => cases hs
  | chars s =>
    cases t with
    | codes points => cases ht
    | chars t =>
      -- Any dialect would do.
      rcases spelling_string ⟨0, false, false, false⟩ s x with ⟨ms, hms, hreads⟩
      rcases spelling_string ⟨0, false, false, false⟩ t y with ⟨ns, hns, hreadt⟩
      rw [h, hns] at hms
      rw [← (List.cons.inj hms).2, hreadt] at hreads
      rcases Prod.mk.inj (Except.ok.inj hreads) with ⟨htext, hrest⟩
      exact ⟨htext.symm, (List.map_inj_right fun _ _ => Char.toNat_inj.1).1 hrest.symm⟩

/-! ## Items between brackets -/

section Items

variable {α : Type} {text : α → List Char} {close : Char}

/-- Items up to a closing bracket, with a comma between two of them. -/
def listed (text : α → List Char) (close : Char) : List α → List Char
  | [] => [close]
  | [a] => text a ++ [close]
  | a :: as => text a ++ ',' :: listed text close as

/-- What stands behind an item. -/
def behind (text : α → List Char) (close : Char) : List α → List Char
  | [] => [close]
  | a :: as => ',' :: listed text close (a :: as)

theorem listed_cons (a : α) (as : List α) :
    listed text close (a :: as) = text a ++ behind text close as := by
  cases as <;> rfl

theorem stops_behind (hclose : isDigit close = false) (as : List α) (rest : List Char) :
    Stops (behind text close as ++ rest) := by
  cases as with
  | nil => exact stops_cons hclose rest
  | cons a as => exact stops_cons (by decide) _

theorem listed_append_inj (hclose : isDigit close = false) (hcomma : close ≠ ',') {as bs : List α}
    (htells : ∀ a ∈ as, ∀ b ∈ bs, Tells text a b)
    (hopens : ∀ a, a ∈ as ∨ a ∈ bs → ∃ c cs, text a = c :: cs ∧ c ≠ close) {x y : List Char}
    (h : listed text close as ++ x = listed text close bs ++ y) : as = bs ∧ x = y := by
  -- The bracket alone is told from an item by the first character.
  have hclosed : ∀ {a : α} {as : List α} {x y : List Char}, (∃ c cs, text a = c :: cs ∧ c ≠ close) →
      listed text close (a :: as) ++ x ≠ listed text close [] ++ y := by
    rintro a as x y ⟨c, cs, ha, hne⟩ h
    rw [listed_cons, ha] at h
    exact hne (List.cons.inj h).1
  induction as generalizing bs with
  | nil =>
    cases bs with
    | nil => exact ⟨rfl, (List.cons.inj h).2⟩
    | cons b bs => exact absurd h.symm (hclosed (hopens b (.inr List.mem_cons_self)))
  | cons a as ih =>
    cases bs with
    | nil => exact absurd h (hclosed (hopens a (.inl List.mem_cons_self)))
    | cons b bs =>
      rw [listed_cons, listed_cons, List.append_assoc, List.append_assoc] at h
      rcases htells a List.mem_cons_self b List.mem_cons_self (stops_behind hclose as x)
        (stops_behind hclose bs y) h with ⟨rfl, hbehind⟩
      -- What stands behind the two items shows whether more of them follow.
      cases as with
      | nil =>
        cases bs with
        | nil => exact ⟨rfl, (List.cons.inj hbehind).2⟩
        | cons b bs => exact absurd (List.cons.inj hbehind).1 hcomma
      | cons a' as =>
        cases bs with
        | nil => exact absurd (List.cons.inj hbehind).1.symm hcomma
        | cons b bs =>
          have hrest := ih (fun a ha b hb => htells a (.tail _ ha) b (.tail _ hb))
            (fun a ha => hopens a (ha.imp (.tail _) (.tail _))) (List.cons.inj hbehind).2
          exact ⟨congrArg (a :: ·) hrest.1, hrest.2⟩

end Items

/-- A name, a colon and a value. -/
def memberChars (m : Spelling × Json) : List Char := string m.1 ++ ':' :: compactChars m.2

theorem compactItems_eq_listed (js : List Json) : compactItems js = listed compactChars ']' js := by
  induction js with
  | nil => rfl
  | cons j js ih =>
    cases js with
    | nil => rfl
    | cons k js => exact congrArg (j.compactChars ++ ',' :: ·) ih

theorem compactMembers_eq_listed (ms : Members) :
    compactMembers ms = listed memberChars '\x7d' ms := by
  induction ms with
  | nil => rfl
  | cons m ms ih =>
    cases ms with
    | nil => rfl
    | cons k ms => exact congrArg (memberChars m ++ ',' :: ·) ih

/-! ## Values -/

/-- Values without floating-point numbers, in which every string and every name is a text. -/
inductive Told : Json → Prop
  | null : Told .null
  | bool (b : Bool) : Told (.bool b)
  | int (n : Int) : Told (.int n)
  | text {s : Spelling} (isText : s.isText = true) : Told (.text s)
  | array {js : List Json} (items : ∀ j ∈ js, Told j) : Told (.array js)
  | object {ms : Members} (names : ∀ m ∈ ms, m.1.isText = true) (values : ∀ m ∈ ms, Told m.2) :
    Told (.object ms)

/-- What the first character of a text tells of a value. -/
inductive Kind
  | null
  | bool (b : Bool)
  | number
  | text
  | array
  | object

def kind? (c : Char) : Option Kind :=
  if c = '-' ∨ isDigit c = true then some .number
  else
    match c with
    | 'n' => some .null
    | 't' => some (.bool true)
    | 'f' => some (.bool false)
    | '"' => some .text
    | '[' => some .array
    | '\x7b' => some .object
    | _ => none

def kind : Json → Kind
  | null => .null
  | bool b => .bool b
  | int _ | real _ => .number
  | text _ => .text
  | array _ => .array
  | object _ => .object

theorem exists_integer_cons (n : Int) :
    ∃ c cs, integer n = c :: cs ∧ (c = '-' ∨ isDigit c = true) := by
  rw [integer]
  split
  · exact ⟨_, _, rfl, .inl rfl⟩
  · rcases exists_digit_decimal n.natAbs with ⟨c, cs, hcs, hdigit⟩
    exact ⟨c, cs, hcs, .inr hdigit⟩

namespace Told

variable {j k : Json}

theorem begins (h : Told j) : ∃ c cs, j.compactChars = c :: cs ∧ kind? c = some j.kind := by
  cases h with
  | bool b => cases b <;> exact ⟨_, _, rfl, rfl⟩
  | int n =>
    rcases exists_integer_cons n with ⟨c, cs, hcs, hc⟩
    exact ⟨c, cs, hcs, if_pos hc⟩
  | _ => exact ⟨_, _, rfl, rfl⟩

theorem opens (h : Told j) : ∃ c cs, j.compactChars = c :: cs ∧ c ≠ ']' := by
  rcases h.begins with ⟨c, cs, hcs, hc⟩
  refine ⟨c, cs, hcs, ?_⟩
  rintro rfl
  cases hc

theorem kind_eq (hj : Told j) (hk : Told k) {x y : List Char}
    (h : j.compactChars ++ x = k.compactChars ++ y) : j.kind = k.kind := by
  rcases hj.begins with ⟨c, cs, hcs, hc⟩
  rcases hk.begins with ⟨d, ds, hds, hd⟩
  rw [hcs, hds] at h
  rw [(List.cons.inj h).1, hd] at hc
  exact (Option.some.inj hc).symm

end Told

theorem tells_member {m k : Spelling × Json} (hm : m.1.isText = true) (hk : k.1.isText = true)
    (h : Tells compactChars m.2 k.2) : Tells memberChars m k := by
  intro x y hx hy htext
  simp only [memberChars, List.append_assoc, List.cons_append] at htext
  rcases tells_string hm hk (stops_cons (by decide) _) (stops_cons (by decide) _) htext
    with ⟨hname, hrest⟩
  rcases h hx hy (List.cons.inj hrest).2 with ⟨hvalue, hrest⟩
  exact ⟨Prod.ext hname hvalue, hrest⟩

theorem Told.tells {j k : Json} (hj : Told j) (hk : Told k) : Tells compactChars j k := by
  intro x y hx hy h
  -- The first characters tell the kind, so only values of the same constructor are left.
  have hkind := hj.kind_eq hk h
  induction hj generalizing k x y with
  | null =>
    cases hk with
    | null => exact ⟨rfl, List.append_cancel_left h⟩
    | _ => cases hkind
  | bool b =>
    cases hk with
    | bool b' =>
      cases hkind
      exact ⟨rfl, List.append_cancel_left h⟩
    | _ => cases hkind
  | int m =>
    cases hk with
    | int n => exact (tells_integer m n hx hy h).imp (congrArg Json.int) id
    | _ => cases hkind
  | text isText =>
    cases hk with
    | text isText' => exact (tells_string isText isText' hx hy h).imp (congrArg Json.text) id
    | _ => cases hkind
  | array items ih =>
    cases hk with
    | array items' =>
      simp only [compactChars, compactItems_eq_listed, List.cons_append, List.cons.injEq, true_and]
        at h
      refine (listed_append_inj (by decide) (by decide) ?_ ?_ h).imp (congrArg Json.array) id
      · intro a ha b hb x y hx hy h
        exact ih a ha (items' b hb) hx hy h ((items a ha).kind_eq (items' b hb) h)
      · rintro a (ha | ha)
        · exact (items a ha).opens
        · exact (items' a ha).opens
    | _ => cases hkind
  | object names values ih =>
    cases hk with
    | object names' values' =>
      simp only [compactChars, compactMembers_eq_listed, List.cons_append, List.cons.injEq,
        true_and] at h
      refine (listed_append_inj (by decide) (by decide) ?_ ?_ h).imp (congrArg Json.object) id
      · intro m hm k hk
        refine tells_member (names m hm) (names' k hk) ?_
        intro x y hx hy h
        exact ih m hm (values' k hk) hx hy h ((values m hm).kind_eq (values' k hk) h)
      · intro m _
        exact ⟨_, _, rfl, by decide⟩
    | _ => cases hkind

/-- Values with the same compact text are the same. -/
theorem compact_inj {j k : Json} (hj : Told j) (hk : Told k) (h : j.compact = k.compact) :
    j = k := by
  have hchars : j.compactChars ++ [] = k.compactChars ++ [] := by
    rw [List.append_nil, List.append_nil]
    exact String.ofList_inj.1 h
  exact (hj.tells hk stops_nil stops_nil hchars).1

end Json
end Cadence
