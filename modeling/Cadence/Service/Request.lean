import Cadence.Json.Reader
import Cadence.Text.Quoted
import Cadence.Text.Utf8

/-!
# Request — what a client asks for

A target is a path and, after a question mark, a query. Both escape bytes as a percent sign and two
hexadecimal digits; a query also writes a blank as a plus sign. Escapes of a path are resolved
twice, by the sender and by the service, and in between a percent sign may come out of an escape
itself.

- `Request`: a method, a path, the fields of a query, a body
- `Request.ofTarget`: takes a target apart
- `TargetError`: what no target may hold
- `Endpoint`, `route`: the operation that a method and a path name
-/

namespace Cadence
namespace Service

/-! ## Percent escapes -/

/-- The characters of a text; each run of escaped bytes is read as UTF-8. -/
def unescapeRun (run : List UInt8) : List Char → List Char
  | '%' :: a :: b :: cs =>
    match Json.hexValue? a, Json.hexValue? b with
    -- The byte may be part of a character that the next escape goes on with.
    | some hi, some lo => unescapeRun (run ++ [UInt8.ofNat (16 * hi + lo)]) cs
    | _, _ => Text.decodeUtf8 run ++ '%' :: unescapeRun [] (a :: b :: cs)
  | c :: cs => Text.decodeUtf8 run ++ c :: unescapeRun [] cs
  | [] => Text.decodeUtf8 run

def unescape (cs : List Char) : List Char := unescapeRun [] cs

/-! ## Requests -/

inductive Method
  | get
  | head
  | post
  | delete
  | other
  deriving DecidableEq, Repr

def Method.ofName (name : String) : Method :=
  match name.map Char.toUpper with
  | "GET" => get
  | "HEAD" => head
  | "POST" => post
  | "DELETE" => delete
  | _ => other

/-- A request without headers. A body is a text, sent in UTF-8 and taken for JSON; bodies of bytes
that are not UTF-8, such as those of UTF-16 with a byte order mark, are left out. -/
structure Request where
  method : Method
  /-- The segments between the slashes of the path, after the first slash. -/
  path : List (List Char)
  query : List (String × String)
  body : String
  deriving Repr

/-- The pieces of a text between occurrences of a character. -/
def splitAt (sep : Char) : List Char → List (List Char)
  | [] => [[]]
  | c :: cs =>
    if c = sep then [] :: splitAt sep cs
    else
      match splitAt sep cs with
      | [] => [[c]]
      | piece :: pieces => (c :: piece) :: pieces

/-- The path of a target. Slashes in front of it are dropped, and so is a host after two of them. -/
def relativePath (cs : List Char) : List Char :=
  let cs :=
    match cs with
    | '/' :: '/' :: cs => cs.dropWhile (· != '/')
    | cs => cs
  cs.dropWhile (· == '/')

/-- The segments that are left when `.` stays where it is and `..` goes one segment back. The
segments before are given in reverse. -/
def resolveDots (before : List (List Char)) : List (List Char) → List (List Char)
  | [] => before.reverse
  | ['.'] :: rest => resolveDots before rest
  | ['.', '.'] :: rest => resolveDots (before.drop 1) rest
  | segment :: rest => resolveDots (segment :: before) rest

/-- The segments of a path in a target. -/
def segments (cs : List Char) : List (List Char) :=
  let resolved := resolveDots [] (splitAt '/' (relativePath cs))
  splitAt '/' (unescape (unescape (List.intercalate ['/'] resolved)))

/-- A name and a value around the first equals sign. -/
def queryField (piece : List Char) : String × String :=
  let text (cs : List Char) : String :=
    String.ofList (unescape (cs.map fun c => if c = '+' then ' ' else c))
  (text (piece.takeWhile (· != '=')), text ((piece.dropWhile (· != '=')).drop 1))

inductive TargetError
  | tooLong
  | control (c : Char) (position : Nat)
  deriving DecidableEq, Repr

def TargetError.message : TargetError → String
  | tooLong => "URL too long"
  | control c position =>
    "Invalid non-printable ASCII character in URL, " ++ Text.quoted c.toString ++ " at position " ++
      toString position ++ "."

def targetLength : Nat := 65536

def isControl (c : Char) : Bool := c.toNat < 0x20 || c.toNat == 0x7f

namespace Request

/-- A request for a target of limited length without control characters. -/
def ofTarget (method : Method) (target body : String) : Except TargetError Request :=
  let cs := target.toList
  if targetLength < cs.length then .error .tooLong
  else
    match cs.find? isControl with
    | some c => .error (.control c (cs.idxOf c))
    | none =>
      -- A fragment is for the client alone.
      let cs := cs.takeWhile (· != '#')
      let pieces := splitAt '&' ((cs.dropWhile (· != '?')).drop 1)
      .ok
        { method
          path := segments (cs.takeWhile (· != '?'))
          query := (pieces.filter (!·.isEmpty)).map queryField
          body }

/-- The value of a query field; of several, the last. -/
def queryValue? (r : Request) (name : String) : Option String :=
  (r.query.reverse.find? (·.1 == name)).map (·.2)

end Request

/-! ## Routes -/

inductive Endpoint
  | health
  | preview
  | decode
  | list
  | create
  | fetch (id : String)
  | delete (id : String)
  | dates (id : String)
  deriving DecidableEq, Repr

inductive RouteError
  | notFound
  | methodNotAllowed
  deriving DecidableEq, Repr

/-- Whether a last segment is a word; it may end in a line feed. -/
def isLast (word : String) (segment : List Char) : Bool :=
  segment == word.toList || segment == word.toList ++ ['\n']

def only (allowed : Bool) (e : Endpoint) : Except RouteError Endpoint :=
  if allowed then .ok e else .error .methodNotAllowed

/-- The operation of a request. Paths with a slash too many at their end, which are redirected, and
the pages that describe the service (`/docs`, `/redoc`, `/openapi.json`) are left out: they name no
operation here. -/
def route (r : Request) : Except RouteError Endpoint :=
  match r.path with
  | [a] =>
    if isLast "health" a then only (r.method = .get) .health
    else if isLast "recurrences" a then
      match r.method with
      | .get => .ok .list
      | .post => .ok .create
      | _ => .error .methodNotAllowed
    else .error .notFound
  | [a, b] =>
    if a = "recurrences".toList ∧ b ≠ [] then
      match r.method with
      -- Only what is posted may be the name of an operation; else it is an id.
      | .get => .ok (.fetch (String.ofList b))
      | .delete => .ok (.delete (String.ofList b))
      | .post =>
        if isLast "preview" b then .ok .preview
        else if isLast "decode" b then .ok .decode
        else .error .methodNotAllowed
      | .head | .other => .error .methodNotAllowed
    else .error .notFound
  | [a, b, c] =>
    if a = "recurrences".toList ∧ b ≠ [] ∧ isLast "dates" c then
      only (r.method = .get) (.dates (String.ofList b))
    else .error .notFound
  | _ => .error .notFound

end Service
end Cadence
