import Cadence.Proofs.Json.Real

/-!
# Rendering — the texts of a value, and that the reader takes them

Blanks may stand between tokens, and members may be repeated. `Renders` relates a value to all of
its texts within the limits of a dialect; it goes down the levels of a value as the reader does. The
infinities and not-a-number have no text of their own in standard JSON, but a number that is written
can be too large.

- `Separated`, `Enclosed`: what stands between two brackets
- `RendersOver`, `Renders`: the texts of a value, one level and all of them
- `takes_outermost`, `takes_value`: the reader takes a value from each of its texts
- `readCodes_of_renders`: the same of a whole text
-/

namespace Cadence
namespace Json

open Number Text

/-! ## Items between brackets -/

section Items

variable {α : Type} {item : Reader α} {spells : α → List Nat → Prop}
  {close : Nat}

/-- Items up to a closing bracket, a comma between two of them and blanks wherever tokens meet. -/
inductive Separated (spells : α → List Nat → Prop) (close : Nat) : List α → List Nat → Prop
  | last {x : α} {before ns after : List Nat} (blankBefore : Blanks before) (spelled : spells x ns)
      (blankAfter : Blanks after) :
      Separated spells close [x] (before ++ (ns ++ (after ++ [close])))
  | more {x : α} {xs : List α} {before ns after others : List Nat} (blankBefore : Blanks before)
      (spelled : spells x ns) (blankAfter : Blanks after)
        (next : Separated spells close xs others) :
      Separated spells close (x :: xs) (before ++ (ns ++ (after ++ Mark.comma :: others)))

/-- The reader takes an item from each of its texts, whatever blanks are in front and whatever
follows. -/
def Takes (item : Reader α) (spells : α → List Nat → Prop) : Prop :=
  ∀ ⦃x : α⦄ ⦃ns : List Nat⦄, spells x ns → ∀ ⦃before : List Nat⦄, Blanks before →
    ∀ ⦃rest : List Nat⦄, Ends rest → item (before ++ (ns ++ rest)) = .ok (x, rest)

/-- A bracket ends an array or an object: it is no blank, no comma and no part of a number. -/
def IsClose (close : Nat) : Prop :=
  isBlank close = false ∧ isNumeral close = false ∧ close ≠ Mark.comma

instance (close : Nat) : Decidable (IsClose close) :=
  inferInstanceAs (Decidable (_ ∧ _ ∧ _))

theorem isClose_rightBracket : IsClose Mark.rightBracket := by decide

theorem isClose_rightBrace : IsClose Mark.rightBrace := by decide

theorem items_of_separated (hitem : Takes item spells) (hclose : IsClose close) {xs : List α}
    {ns : List Nat} (h : Separated spells close xs ns) (rest : List Nat) :
    ∀ {fuel : Nat}, ns.length ≤ fuel → items item close fuel (ns ++ rest) = .ok (xs, rest) := by
  rcases hclose with ⟨hblank, hnumeral, hcomma⟩
  induction h with
  | @last x before ns after blankBefore spelled blankAfter =>
    intro fuel hfuel
    cases fuel with
    | zero => simp at hfuel
    | succ fuel =>
      have hends : Ends (after ++ close :: rest) := ends_blanks_append blankAfter hnumeral rest
      have hread := hitem spelled blankBefore hends
      simp only [List.append_assoc, List.singleton_append, items, hread, bind, Except.bind,
        skipBlanks_append blankAfter, skipBlanks_cons hblank, if_true]
      rfl
  | @more x xs before ns after others blankBefore spelled blankAfter next ih =>
    intro fuel hfuel
    cases fuel with
    | zero => simp at hfuel
    | succ fuel =>
      have hends : Ends (after ++ Mark.comma :: (others ++ rest)) :=
        ends_blanks_append blankAfter (by decide) _
      have hread := hitem spelled blankBefore hends
      -- The comma pays for the unit of fuel.
      have hothers : others.length ≤ fuel := by
        simp only [List.length_append, List.length_cons] at hfuel
        omega
      have hcommaBlank : isBlank Mark.comma = false := by decide
      simp only [List.append_assoc, List.cons_append, items, hread, bind, Except.bind,
        skipBlanks_append blankAfter, skipBlanks_cons hcommaBlank, ih hothers]
      rfl

/-- What stands between two brackets, and the second of them. Without texts of items no level is
left for them. -/
inductive Enclosed (d : Dialect) (close : Nat) :
    Option (α → List Nat → Prop) → List α → List Nat → Prop
  | empty {spells? : Option (α → List Nat → Prop)} {blanks : List Nat} (blank : Blanks blanks)
      (uncounted : spells?.isSome = true ∨ d.emptyCounts = false) :
      Enclosed d close spells? [] (blanks ++ [close])
  | items {spells : α → List Nat → Prop} {xs : List α} {ns : List Nat}
      (separated : Separated spells close xs ns) : Enclosed d close (some spells) xs ns

/-- Each text of an item begins with a code point that is neither a blank nor the closing bracket.
-/
def Opens (spells : α → List Nat → Prop) (close : Nat) : Prop :=
  ∀ ⦃x : α⦄ ⦃ns : List Nat⦄, spells x ns →
    ∃ n tail, ns = n :: tail ∧ isBlank n = false ∧ n ≠ close

theorem closed?_empty {blanks : List Nat} (h : Blanks blanks) (hclose : IsClose close)
    (rest : List Nat) : closed? close (blanks ++ close :: rest) = some rest := by
  rw [closed?, skipBlanks_append h, skipBlanks_cons hclose.1]
  exact if_pos rfl

theorem closed?_of_separated (hopens : Opens spells close) {xs : List α} {ns : List Nat}
    (h : Separated spells close xs ns) (rest : List Nat) : closed? close (ns ++ rest) = none := by
  -- Only the first item matters, and it does not begin with the bracket.
  have hitem : ∀ {x : α} {before ns : List Nat}, Blanks before → spells x ns → ∀ tail,
      closed? close (before ++ (ns ++ tail)) = none := by
    intro x before ns hbefore hspelled tail
    rcases hopens hspelled with ⟨n, ns, rfl, hblank, hne⟩
    rw [closed?, skipBlanks_append hbefore, List.cons_append, skipBlanks_cons hblank]
    exact if_neg hne
  cases h with
  | last blankBefore spelled blankAfter =>
    simp only [List.append_assoc]
    exact hitem blankBefore spelled _
  | more blankBefore spelled blankAfter next =>
    simp only [List.append_assoc]
    exact hitem blankBefore spelled _

theorem bracketed_of_enclosed {d : Dialect} {item? : Option (Reader α)}
    {spells? : Option (α → List Nat → Prop)} (hitem : Option.Rel Takes item? spells?)
    (hopens : ∀ spells ∈ spells?, Opens spells close) (hclose : IsClose close) {xs : List α}
    {ns : List Nat} (h : Enclosed d close spells? xs ns) (rest : List Nat) :
    bracketed d item? close (ns ++ rest) = .ok (xs, rest) := by
  cases h with
  | empty blank uncounted =>
    have hclosed := closed?_empty blank hclose rest
    simp only [List.append_assoc, List.singleton_append, bracketed, hclosed]
    cases hitem with
    | none =>
      have hempty : d.emptyCounts = false := uncounted.resolve_left Bool.false_ne_true
      simp only [hempty]
      rfl
    | some _ => rfl
  | @items spells _ _ separated =>
    cases hitem with
    | some htakes =>
      have hopen := closed?_of_separated (hopens spells rfl) separated rest
      simp only [bracketed, hopen]
      -- Each item takes a code point, so the length of the text is fuel enough.
      apply items_of_separated htakes hclose separated
      rw [List.length_append]
      exact Nat.le_add_right _ _

end Items

/-! ## Values -/

/-- A text of a member: its name, a colon and its value, with blanks around the colon. -/
def SpellsMember (d : Dialect) (spells : Json → List Nat → Prop) (m : Spelling × Json)
    (ns : List Nat) : Prop :=
  ∃ name before after value, SpellsText d m.1 name ∧ Blanks before ∧ Blanks after ∧
    spells m.2 value ∧ ns = name ++ (before ++ Mark.colon :: (after ++ value))

/-- A text of a value. The inner relation gives the texts of the values that it holds; without one
no level is left. -/
def RendersOver (d : Dialect) (inner? : Option (Json → List Nat → Prop)) :
    Json → List Nat → Prop
  | .null, ns => ns = codesOf "null"
  | .bool true, ns => ns = codesOf "true"
  | .bool false, ns => ns = codesOf "false"
  | .int n, ns => SpellsInt n ns
  | .real x, ns => SpellsReal d x ns
  | .text s, ns => SpellsText d s ns
  | .array js, ns =>
    ∃ body, Enclosed d Mark.rightBracket inner? js body ∧ ns = Mark.leftBracket :: body
  | .object ms, ns =>
    ∃ body, Enclosed d Mark.rightBrace (inner?.map (SpellsMember d)) ms body ∧
      ns = Mark.leftBrace :: body

/-- A text of a value that may hold `depth` levels of arrays and objects. -/
def Renders (d : Dialect) : Nat → Json → List Nat → Prop
  | 0 => RendersOver d none
  | depth + 1 => RendersOver d (some (Renders d depth))

/-- A text of a value begins neither with a blank nor with a closing bracket. -/
theorem opens_rendersOver (d : Dialect) (inner? : Option (Json → List Nat → Prop)) :
    Opens (RendersOver d inner?) Mark.rightBracket := by
  intro j ns h
  cases j with
  | null => exact ⟨_, _, h, by decide, by decide⟩
  | bool b =>
    cases b with
    | true => exact ⟨_, _, h, by decide, by decide⟩
    | false => exact ⟨_, _, h, by decide, by decide⟩
  | int n =>
    rcases SpellsInt.begins h with ⟨c, tail, hns, hc, -⟩
    exact ⟨c, tail, hns, not_isBlank_of_isNumeral hc, ne_of_isNumeral hc (by decide)⟩
  | real x =>
    rcases SpellsReal.begins h with ⟨c, tail, hns, hc, -⟩
    exact ⟨c, tail, hns, not_isBlank_of_isNumeral hc, ne_of_isNumeral hc (by decide)⟩
  | text s =>
    rcases h with ⟨written, body, -, -, -, rfl⟩
    exact ⟨_, _, rfl, by decide, by decide⟩
  | array js =>
    rcases h with ⟨body, -, rfl⟩
    exact ⟨_, _, rfl, by decide, by decide⟩
  | object ms =>
    rcases h with ⟨body, -, rfl⟩
    exact ⟨_, _, rfl, by decide, by decide⟩

theorem opens_member (d : Dialect) (spells : Json → List Nat → Prop) :
    Opens (SpellsMember d spells) Mark.rightBrace := by
  rintro ⟨name, j⟩ ns ⟨_, before, after, value, ⟨written, body, -, -, -, rfl⟩, -, -, -, rfl⟩
  exact ⟨_, _, rfl, by decide, by decide⟩

theorem takes_member (d : Dialect) {read : Reader Json} {spells : Json → List Nat → Prop}
    (h : Takes read spells) : Takes (member d read) (SpellsMember d spells) := by
  rintro ⟨name, j⟩ ns ⟨_, beforeColon, after, value, ⟨written, body, hbody, rfl, hs, rfl⟩, hbefore,
    hafter, hvalue, rfl⟩ before hblanks rest hrest
  have hquote : isBlank Mark.quote = false := by decide
  have hcolon : isBlank Mark.colon = false := by decide
  have hj : read (after ++ (value ++ rest)) = .ok (j, rest) := h hvalue hafter hrest
  simp only [member, skipBlanks_append hblanks, List.cons_append, List.append_assoc,
    skipBlanks_cons hquote, List.nil_append, bind, Except.bind, spelling_of_contents hbody hs,
    skipBlanks_append hbefore, skipBlanks_cons hcolon, hj]
  rfl

/-! ### Reading one level -/

theorem outermost_blanks (d : Dialect) (inner? : Option (Reader Json)) {blanks : List Nat}
    (h : Blanks blanks) (ns : List Nat) :
    outermost d inner? (blanks ++ ns) = outermost d inner? ns := by
  simp only [outermost, skipBlanks_append h]

theorem outermost_numeral (d : Dialect) (inner? : Option (Reader Json)) {n : Nat} {ns : List Nat}
    (hn : isNumeral n = true) (hword : word? (n :: ns) = none) :
    outermost d inner? (n :: ns) = numeral d (n :: ns) := by
  simp only [outermost, skipBlanks_cons (not_isBlank_of_isNumeral hn)]
  -- No mark of the grammar is part of a number.
  split
  · rename_i heq
    exact absurd (List.cons.inj heq).1 (ne_of_isNumeral hn (by decide))
  · rename_i heq
    exact absurd (List.cons.inj heq).1 (ne_of_isNumeral hn (by decide))
  · rename_i heq
    exact absurd (List.cons.inj heq).1 (ne_of_isNumeral hn (by decide))
  · rw [hword]

theorem takes_outermost (d : Dialect) {inner? : Option (Reader Json)}
    {spells? : Option (Json → List Nat → Prop)} (h : Option.Rel Takes inner? spells?)
    (hopens : ∀ spells ∈ spells?, Opens spells Mark.rightBracket) :
    Takes (outermost d inner?) (RendersOver d spells?) := by
  intro j ns hj before hblanks rest hrest
  rw [outermost_blanks d inner? hblanks]
  cases j with
  | null =>
    subst hj
    rfl
  | bool b =>
    cases b with
    | true =>
      subst hj
      rfl
    | false =>
      subst hj
      rfl
  | int n =>
    -- Words are tried first, but no number begins like one.
    rcases SpellsInt.begins hj with ⟨c, tail, rfl, hc, hword⟩
    have hread := numeral_of_spellsInt d hj hrest
    rw [List.cons_append] at hread ⊢
    rw [outermost_numeral d inner? hc (hword rest)]
    exact hread
  | real x =>
    rcases SpellsReal.begins hj with ⟨c, tail, rfl, hc, hword⟩
    have hread := numeral_of_spellsReal hj hrest
    rw [List.cons_append] at hread ⊢
    rw [outermost_numeral d inner? hc (hword rest)]
    exact hread
  | text s =>
    rcases hj with ⟨written, body, hbody, rfl, hs, rfl⟩
    have hblank : isBlank Mark.quote = false := by decide
    simp only [outermost, List.cons_append, skipBlanks_cons hblank, List.append_assoc,
      List.nil_append, bind, Except.bind, spelling_of_contents hbody hs]
    rfl
  | array js =>
    rcases hj with ⟨body, hbody, rfl⟩
    have hblank : isBlank Mark.leftBracket = false := by decide
    have hjs := bracketed_of_enclosed h hopens isClose_rightBracket hbody rest
    simp only [outermost, List.cons_append, skipBlanks_cons hblank, hjs, bind, Except.bind]
    rfl
  | object ms =>
    rcases hj with ⟨body, hbody, rfl⟩
    have hblank : isBlank Mark.leftBrace = false := by decide
    -- An object is an array of members, each a name, a colon and a value.
    have hmembers : Option.Rel Takes (inner?.map (member d)) (spells?.map (SpellsMember d)) := by
      cases h with
      | none => exact .none
      | some htakes => exact .some (takes_member d htakes)
    have hnames : ∀ spells ∈ spells?.map (SpellsMember d), Opens spells Mark.rightBrace := by
      intro spells hspells
      rcases Option.map_eq_some_iff.1 hspells with ⟨inner, -, rfl⟩
      exact opens_member d inner
    have hms := bracketed_of_enclosed hmembers hnames isClose_rightBrace hbody rest
    simp only [outermost, List.cons_append, skipBlanks_cons hblank, hms, bind, Except.bind]
    rfl

/-! ## Whole texts -/

theorem opens_renders (d : Dialect) (depth : Nat) : Opens (Renders d depth) Mark.rightBracket := by
  cases depth with
  | zero => exact opens_rendersOver d none
  | succ depth => exact opens_rendersOver d _

/-- The reader takes a value from each of its texts. -/
theorem takes_value (d : Dialect) (depth : Nat) : Takes (value d depth) (Renders d depth) := by
  -- On the levels: the reader of one level takes what the reader below takes as its parts.
  induction depth with
  | zero => exact takes_outermost d .none (by simp)
  | succ depth ih =>
    apply takes_outermost d (.some ih)
    intro spells hspells
    cases hspells
    exact opens_renders d depth

/-- A text with nothing but blanks around a value gives the value. -/
theorem readCodes_of_renders {d : Dialect} {j : Json} {ns before after : List Nat}
    (h : Renders d d.maxDepth j ns) (hbefore : Blanks before) (hafter : Blanks after) :
    readCodes d (before ++ (ns ++ after)) = .ok j := by
  have hends : Ends after := by
    intro n hn
    exact isNumeral_of_isBlank (hafter n (List.mem_of_mem_head? hn))
  have hblank : skipBlanks after = [] := by
    have hskip := skipBlanks_append hafter []
    rwa [List.append_nil] at hskip
  simp only [readCodes, takes_value d d.maxDepth h hbefore hends, bind, Except.bind, hblank]
  rfl

end Json
end Cadence
