import Cadence.Json.Reader
import Cadence.Text.Encoding

/-!
# Body — the JSON that a request carries

A body arrives as bytes, in UTF-8 unless the zeros among the first of them tell otherwise. A byte
order mark of UTF-8 in front of it does not count.

- `readBody`: the value of a body
- `BodyError`: bytes or numbers that cannot be read, or text that is not JSON
-/

namespace Cadence
namespace Service

open Text

inductive BodyError
  | unreadable
  | malformed
  deriving DecidableEq, Repr

/-- Bodies nest at most 966 levels deep and may hold lone halves of surrogate pairs. -/
def requestText : Json.Dialect where
  maxDepth := 966
  emptyCounts := true
  limitsReals := false
  halves := true

def byteOrderMark : Nat := 0xfeff

/-- The code points of a body. -/
def bodyCodes? (body : String) : Option (List Nat) :=
  let e := Encoding.detect (body.toUTF8.data.toList.take 4)
  (e.decode? body).map fun codes =>
    if e = .utf8 ∧ codes.head? = some byteOrderMark then codes.drop 1 else codes

def readBody (body : String) : Except BodyError Json :=
  match bodyCodes? body with
  | none => .error .unreadable
  | some codes =>
    match Json.readCodes requestText codes with
    | .ok j => .ok j
    | .error .malformed => .error .malformed
    | .error .tooDeep | .error .tooLong => .error .unreadable

end Service
end Cadence
