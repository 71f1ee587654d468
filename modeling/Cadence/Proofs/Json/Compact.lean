import Cadence.Json.Compact
import Cadence.Proofs.Json.Rendering

/-!
# Compact — compact text is a text of its value

Each constructor of a value has its own step: when the compact texts of its parts are texts of the
parts, its compact text is a text of it. Names are taken without anything to escape, and integers
within the limit of digits; a string may hold any characters.

- `Plain`: texts without anything to escape
- `spellsText_escaped`: strings with escapes
- `renders_int`, `renders_text`, `renders_array`, `renders_object`: the steps
- `read_compact`: compact text reads back
-/

namespace Cadence
namespace Json

open Number Text

/-- The code points of the compact text of a value. -/
def compactCodes (j : Json) : List Nat := j.compactChars.map Char.toNat

theorem codesOf_compact (j : Json) : codesOf j.compact = j.compactCodes := by
  rw [codesOf, compact, String.toList_ofList]
  rfl

/-! ## Strings without anything to escape -/

def Plain (text : String) : Prop := ∀ c ∈ text.toList, IsPlain c.toNat

instance (text : String) : Decidable (Plain text) := List.decidableBAll _ _

/-- A character is no half of a surrogate pair. -/
theorem isHalf_toNat (c : Char) : isHalf c.toNat = false := by
  have hvalid : c.toNat < 0xd800 ∨ (0xdfff < c.toNat ∧ c.toNat < 0x110000) := c.valid
  simp only [isHalf, isHighHalf, isLowHalf, Bool.or_eq_false_iff, Bool.and_eq_false_iff,
    decide_eq_false_iff_not]
  omega

theorem ofCodes_codesOf (text : String) : Spelling.ofCodes (codesOf text) = .chars text := by
  have hhalves : (codesOf text).any isHalf = false := by
    rw [List.any_eq_false]
    intro n hn
    rcases List.mem_map.1 hn with ⟨c, -, rfl⟩
    simp [isHalf_toNat]
  have hchars : (codesOf text).map Char.ofNat = text.toList := by
    rw [codesOf, List.map_map]
    exact List.map_id'' Char.ofNat_toNat _
  rw [Spelling.ofCodes, hhalves, hchars, String.ofList_toList]
  rfl

theorem escapedCode_of_plain {c : Char} (h : IsPlain c.toNat) : escapedCode c.toNat = [c] := by
  rcases h with ⟨hprintable, hquote, hbackslash⟩
  -- Every escape but those of quote and backslash is one of a control character.
  have hne : ∀ k : Char, k.toNat < 0x20 → ¬ c = k := by
    rintro k hk rfl
    exact Nat.not_le.2 hk hprintable
  have hmark : ¬ (c = '"' ∨ c = '\\') := by
    rintro (rfl | rfl)
    · exact hquote rfl
    · exact hbackslash rfl
  rw [escapedCode, isHalf_toNat, Char.ofNat_toNat, escaped, if_neg hmark,
    if_neg (hne _ (by decide)), if_neg (hne _ (by decide)), if_neg (hne _ (by decide)),
    if_neg (hne _ (by decide)),
    if_neg (hne _ (by decide)), if_neg (Nat.not_lt.2 hprintable)]
  rfl

theorem flatMap_escapedCode {cs : List Char} (h : ∀ c ∈ cs, IsPlain c.toNat) :
    (cs.map Char.toNat).flatMap escapedCode = cs := by
  induction cs with
  | nil => rfl
  | cons c cs ih =>
    rw [List.map_cons, List.flatMap_cons, escapedCode_of_plain (h c List.mem_cons_self),
      ih fun x hx => h x (List.mem_cons_of_mem c hx)]
    rfl

theorem contents_of_plain {cs : List Char} (h : ∀ c ∈ cs, IsPlain c.toNat) :
    Contents (cs.map fun c => ⟨c.toNat, false⟩) (cs.map Char.toNat) := by
  induction cs with
  | nil => exact .nil
  | cons c cs ih =>
    exact .plain (h c List.mem_cons_self) (ih fun x hx => h x (List.mem_cons_of_mem c hx))

/-- Without a half of a pair nothing is joined. -/
theorem joinEscaped_of_no_half {written : List Written} (h : ∀ w ∈ written, isHalf w.code = false) :
    joinEscaped written = written.map Written.code := by
  induction written with
  | nil => rfl
  | cons v ws ih =>
    have hv : isHighHalf v.code = false := (Bool.or_eq_false_iff.1 (h v List.mem_cons_self)).1
    have hrest := ih fun w hw => h w (List.mem_cons_of_mem v hw)
    cases ws with
    | nil => rfl
    | cons w ws =>
      rw [joinEscaped, hv, Bool.and_false, Bool.false_and, if_neg Bool.false_ne_true, hrest]
      rfl

theorem joinEscaped_of_chars {written : List Written} {cs : List Char}
    (h : written.map Written.code = cs.map Char.toNat) :
    joinEscaped written = cs.map Char.toNat := by
  rw [joinEscaped_of_no_half, h]
  intro w hw
  have hcode : w.code ∈ cs.map Char.toNat := h ▸ List.mem_map_of_mem hw
  rcases List.mem_map.1 hcode with ⟨c, -, hc⟩
  rw [← hc, isHalf_toNat]

theorem spellsText_string (d : Dialect) {text : String} (h : Plain text) :
    SpellsText d text ((string text).map Char.toNat) := by
  refine ⟨_, _, contents_of_plain h, ?_, rfl, ?_⟩
  · rw [joinEscaped_of_chars (List.map_map ..)]
    exact (ofCodes_codesOf text).symm
  · have hbody := flatMap_escapedCode h
    simp only [string, Spelling.toCodes, codesOf, hbody, List.map_cons, List.map_append,
      List.map_nil, List.cons_append]
    rfl

/-! ## Strings with escapes -/

/-- A short escape of a character. -/
theorem contents_short {c letter : Char} (h : shortEscape? letter = some c.toNat)
    {written : List Written}
    {ns : List Nat} (hrest : Contents written ns) :
    Contents (⟨c.toNat, true⟩ :: written) (['\\', letter].map Char.toNat ++ ns) := by
  have hmeaning : shortEscape? (Char.ofNat letter.toNat) = some c.toNat := by rwa [Char.ofNat_toNat]
  exact .short hmeaning hrest

theorem hexCode?_hexPadded :
    ∀ n < 0x20, hexCode? ((hexPadded 4 n).map Char.toNat) = some n := by decide

theorem contents_hexPadded {n : Nat} (h : n < 0x20) {written : List Written} {ns : List Nat}
    (hrest : Contents written ns) :
    Contents (⟨n, true⟩ :: written) (('\\' :: 'u' :: hexPadded 4 n).map Char.toNat ++ ns) :=
  .hex (hexCode?_hexPadded n h) hrest

/-- A character is written as it is or as one escape. -/
theorem exists_contents_escaped (c : Char) :
    ∃ escape, ∀ {written ns}, Contents written ns →
      Contents (⟨c.toNat, escape⟩ :: written) ((escapedCode c.toNat).map Char.toNat ++ ns) := by
  have hescaped : escapedCode c.toNat = escaped c := by
    rw [escapedCode, isHalf_toNat, Char.ofNat_toNat]
    rfl
  rw [hescaped]
  unfold escaped
  split
  · rename_i hmark
    refine ⟨true, contents_short ?_⟩
    rcases hmark with rfl | rfl <;> rfl
  rename_i hmark
  -- Five control characters have a letter of their own.
  iterate 5
    split
    · rename_i hc
      subst hc
      exact ⟨true, contents_short rfl⟩
  split
  · rename_i hcontrol
    exact ⟨true, contents_hexPadded hcontrol⟩
  · rename_i hprintable
    refine ⟨false, .plain ⟨Nat.not_lt.1 hprintable, ?_, ?_⟩⟩
    · exact fun h => hmark (.inl (Char.toNat_inj.1 h))
    · exact fun h => hmark (.inr (Char.toNat_inj.1 h))

theorem exists_contents (cs : List Char) :
    ∃ written : List Written, written.map Written.code = cs.map Char.toNat ∧
      Contents written (((cs.map Char.toNat).flatMap escapedCode).map Char.toNat) := by
  induction cs with
  | nil => exact ⟨[], rfl, .nil⟩
  | cons c cs ih =>
    rcases ih with ⟨written, hcodes, hcontents⟩
    rcases exists_contents_escaped c with ⟨escape, hescape⟩
    refine ⟨⟨c.toNat, escape⟩ :: written, ?_, ?_⟩
    · rw [List.map_cons, List.map_cons, hcodes]
    · rw [List.map_cons, List.flatMap_cons, List.map_append]
      exact hescape hcontents

/-- The text of a string, whatever has to be escaped in it. -/
theorem spellsText_escaped (d : Dialect) (text : String) :
    SpellsText d text ((string text).map Char.toNat) := by
  rcases exists_contents text.toList with ⟨written, hcodes, hcontents⟩
  refine ⟨written, _, hcontents, ?_, rfl, ?_⟩
  · rw [joinEscaped_of_chars hcodes]
    exact (ofCodes_codesOf text).symm
  · simp only [string, Spelling.toCodes, codesOf, List.map_cons, List.map_append, List.map_nil,
      List.cons_append]
    rfl

/-! ## Values -/

variable {d : Dialect}

theorem blanks_nil : Blanks [] := by
  intro n hn
  cases hn

theorem integer_eq_signed (n : Int) :
    integer n = (if decide (n < 0) then ['-'] else []) ++ decimal n.natAbs := by
  by_cases hn : n < 0
  · simp [integer, hn]
  · simp [integer, hn]

theorem splitMinus_integer (n : Int) (tail : List Char) :
    splitMinus (integer n ++ tail) = (decide (n < 0), decimal n.natAbs ++ tail) := by
  rw [integer_eq_signed, List.append_assoc, splitMinus_signed]

theorem rendersOver_int {inner? : Option (Json → List Nat → Prop)} {n : Int}
    (h : (decimal n.natAbs).length ≤ integerDigits) :
    RendersOver d inner? (.int n) (compactCodes (.int n)) := by
  by_cases hn : n < 0
  · refine ⟨true, n.natAbs, h, ?_, ?_⟩
    · show n = -(n.natAbs : Int)
      omega
    · rw [compactCodes, compactChars, integer, if_pos hn]
      rfl
  · refine ⟨false, n.natAbs, h, ?_, ?_⟩
    · show n = (n.natAbs : Int)
      omega
    · rw [compactCodes, compactChars, integer, if_neg hn]
      rfl

theorem renders_int {depth : Nat} {n : Int} (h : (decimal n.natAbs).length ≤ integerDigits) :
    Renders d depth (.int n) (compactCodes (.int n)) := by
  cases depth with
  | zero => exact rendersOver_int h
  | succ depth => exact rendersOver_int h

theorem renders_text (depth : Nat) (text : String) :
    Renders d depth (.text text) (compactCodes (.text text)) := by
  cases depth with
  | zero => exact spellsText_escaped d text
  | succ depth => exact spellsText_escaped d text

theorem separated_items {depth : Nat} {j : Json} {js : List Json}
    (h : ∀ i ∈ j :: js, Renders d depth i i.compactCodes) :
    Separated (Renders d depth) Mark.rightBracket (j :: js)
      ((compactItems (j :: js)).map Char.toNat) := by
  induction js generalizing j with
  | nil =>
    have hlast : Separated (Renders d depth) Mark.rightBracket [j] _ :=
      .last blanks_nil (h j List.mem_cons_self) blanks_nil
    simpa [compactItems, compactCodes] using hlast
  | cons i js ih =>
    have hnext := ih fun k hk => h k (List.mem_cons_of_mem j hk)
    have hmore := Separated.more blanks_nil (h j List.mem_cons_self) blanks_nil hnext
    simpa [compactItems, compactCodes] using hmore

theorem renders_array {depth : Nat} {js : List Json}
    (h : ∀ j ∈ js, Renders d depth j j.compactCodes) :
    Renders d (depth + 1) (.array js) (compactCodes (.array js)) := by
  refine ⟨(compactItems js).map Char.toNat, ?_, rfl⟩
  cases js with
  | nil => exact .empty blanks_nil (.inl rfl)
  | cons j js => exact .items (separated_items h)

/-- A member with a plain name whose value has its compact text. -/
def CompactMember (d : Dialect) (depth : Nat) (m : Spelling × Json) : Prop :=
  ∃ name, m.1 = .chars name ∧ Plain name ∧ Renders d depth m.2 m.2.compactCodes

theorem spellsMember_compact {depth : Nat} {m : Spelling × Json} (h : CompactMember d depth m) :
    SpellsMember d (Renders d depth) m
      ((string m.1).map Char.toNat ++ Mark.colon :: m.2.compactCodes) := by
  rcases m with ⟨_, j⟩
  rcases h with ⟨name, rfl, hname, hj⟩
  exact ⟨_, [], [], _, spellsText_string d hname, blanks_nil, blanks_nil, hj, rfl⟩

theorem separated_members {depth : Nat} {m : Spelling × Json} {ms : Members}
    (h : ∀ k ∈ m :: ms, CompactMember d depth k) :
    Separated (SpellsMember d (Renders d depth)) Mark.rightBrace (m :: ms)
      ((compactMembers (m :: ms)).map Char.toNat) := by
  induction ms generalizing m with
  | nil =>
    have hm := spellsMember_compact (h m List.mem_cons_self)
    have hlast : Separated (SpellsMember d (Renders d depth)) Mark.rightBrace [m] _ :=
      .last blanks_nil hm blanks_nil
    simpa [compactMembers, compactCodes] using hlast
  | cons k ms ih =>
    have hm := spellsMember_compact (h m List.mem_cons_self)
    have hnext := ih fun l hl => h l (List.mem_cons_of_mem m hl)
    have hmore := Separated.more blanks_nil hm blanks_nil hnext
    simpa [compactMembers, compactCodes] using hmore

theorem renders_object {depth : Nat} {ms : Members} (h : ∀ m ∈ ms, CompactMember d depth m) :
    Renders d (depth + 1) (.object ms) (compactCodes (.object ms)) := by
  refine ⟨(compactMembers ms).map Char.toNat, ?_, rfl⟩
  cases ms with
  | nil => exact .empty blanks_nil (.inl rfl)
  | cons m ms => exact .items (separated_members h)

theorem read_compact {j : Json} (h : Renders d d.maxDepth j j.compactCodes) :
    read d j.compact = .ok j := by
  have hread := readCodes_of_renders h blanks_nil blanks_nil
  rwa [List.nil_append, List.append_nil, ← codesOf_compact] at hread

end Json
end Cadence
