import Cadence.Proofs.Json.Rendering

/-!
# Refused — integers that are too long to read

What stops the reader inside an array or an object stops it as a whole. An integer of more than 4300
digits does so, be it the item of an array in an object.

- `value_of_long`: a long integer
- `array_of_error`, `member_of_error`, `object_of_error`: what stops the reader inside of a value
- `readCodes_of_long_item`: an object that begins with an array that begins with a long integer
-/

namespace Cadence
namespace Json

open Text

variable {d : Dialect} {fault : Fault} {n : Nat} {ns : List Nat}

/-! ## Long integers -/

theorem outermost_of_long {inner? : Option (Reader Json)} {m : Nat}
    (h : integerDigits < (decimal m).length) {rest : List Nat} (hrest : Ends rest) :
    outermost d inner? ((decimal m).map Char.toNat ++ rest) = .error .tooLong := by
  have hnumber : number d (decimal m) = .error .tooLong := by
    have hdecimal := number_decimal d false m
    rwa [if_pos h] at hdecimal
  have hnumeral : numeral d ((decimal m).map Char.toNat ++ rest) = .error .tooLong := by
    rw [numeral_run (fun _ hc => isNumeral_of_isDigit (isDigit_of_mem_decimal hc)) hrest, hnumber]
    rfl
  rcases begins_signed false m [] with ⟨c, tail, hbegin, hc, hword⟩
  have hcodes : (decimal m).map Char.toNat = c :: tail := by simpa using hbegin
  rw [hcodes, List.cons_append] at hnumeral ⊢
  rw [outermost_numeral d inner? hc (hword rest), hnumeral]

theorem value_of_long (depth : Nat) {m : Nat} (h : integerDigits < (decimal m).length)
    {rest : List Nat} (hrest : Ends rest) :
    value d depth ((decimal m).map Char.toNat ++ rest) = .error .tooLong := by
  cases depth with
  | zero => exact outermost_of_long h hrest
  | succ depth => exact outermost_of_long h hrest

/-! ## Inside of values -/

/-- A text that does not begin with the closing bracket is read as items, and the first of them may
fail. -/
theorem bracketed_of_error {α : Type} {item : Reader α} {close : Nat} (hblank : isBlank n = false)
    (hclose : n ≠ close) (h : item (n :: ns) = .error fault) :
    bracketed d (some item) close (n :: ns) = .error fault := by
  have hclosed : closed? close (n :: ns) = none := by
    rw [closed?, skipBlanks_cons hblank]
    exact if_neg hclose
  simp only [bracketed, hclosed, List.length_cons, items, h]
  rfl

theorem array_of_error {inner : Reader Json} (hblank : isBlank n = false)
    (hclose : n ≠ Mark.rightBracket) (h : inner (n :: ns) = .error fault) :
    outermost d (some inner) (Mark.leftBracket :: n :: ns) = .error fault := by
  have hopen : isBlank Mark.leftBracket = false := by decide
  simp only [outermost, skipBlanks_cons hopen, bracketed_of_error hblank hclose h]
  rfl

theorem member_of_error {read : Reader Json} {name : Spelling} {key : List Nat}
    (hkey : SpellsText d name key) (h : read ns = .error fault) :
    member d read (key ++ Mark.colon :: ns) = .error fault := by
  rcases hkey with ⟨written, body, hbody, rfl, hs, rfl⟩
  have hquote : isBlank Mark.quote = false := by decide
  have hcolon : isBlank Mark.colon = false := by decide
  simp only [member, List.cons_append, List.append_assoc, skipBlanks_cons hquote, List.nil_append,
    bind, Except.bind, spelling_of_contents hbody hs, skipBlanks_cons hcolon, h]

theorem object_of_error {inner : Reader Json} {name : Spelling} {key : List Nat}
    (hkey : SpellsText d name key) (h : inner ns = .error fault) :
    outermost d (some inner) (Mark.leftBrace :: (key ++ Mark.colon :: ns)) = .error fault := by
  have hopen : isBlank Mark.leftBrace = false := by decide
  have hmember := member_of_error hkey h
  rcases hkey with ⟨_, body, -, -, -, rfl⟩
  have hmembers : bracketed d (some (member d inner)) Mark.rightBrace
      (Mark.quote :: (body ++ [Mark.quote]) ++ Mark.colon :: ns) = .error fault :=
    bracketed_of_error (by decide) (by decide) hmember
  simp only [outermost, skipBlanks_cons hopen, Option.map_some, hmembers]
  rfl

/-! ## Whole texts -/

theorem readCodes_of_long_item (depth : Nat) (hdepth : d.maxDepth = depth + 2) {name : Spelling}
    {key : List Nat} (hkey : SpellsText d name key) {m : Nat}
    (h : integerDigits < (decimal m).length)
    {rest : List Nat} (hrest : Ends rest) :
    readCodes d (Mark.leftBrace ::
        (key ++ Mark.colon :: Mark.leftBracket :: ((decimal m).map Char.toNat ++ rest))) =
      .error .tooLong := by
  have hitem := value_of_long (d := d) depth h hrest
  rcases begins_signed false m [] with ⟨c, tail, hbegin, hc, -⟩
  have hcodes : (decimal m).map Char.toNat = c :: tail := by simpa using hbegin
  rw [hcodes, List.cons_append] at hitem ⊢
  have harray : value d (depth + 1) (Mark.leftBracket :: c :: (tail ++ rest)) = .error .tooLong :=
    array_of_error (not_isBlank_of_isNumeral hc) (ne_of_isNumeral hc (by decide)) hitem
  have hobject : value d (depth + 2)
      (Mark.leftBrace :: (key ++ Mark.colon :: Mark.leftBracket :: c :: (tail ++ rest))) =
        .error .tooLong := object_of_error hkey harray
  rw [readCodes, hdepth, hobject]
  rfl

end Json
end Cadence
