import Cadence.Service.Field

/-!
# Report — faults as a client sees them

Each fault is reported together with the value that was refused. Standard JSON has no infinities and
no not-a-number, and UTF-8 no lone halves of surrogate pairs. With any of these in a refused value
there is no report at all.

- `isPresentable`: whether a value can be part of a report
- `report?`: the report of some faults
-/

namespace Cadence
namespace Service

open Text

/-! ## Presentable values -/

/-- Members whose names start like this are left out of reports. -/
def hiddenStart : List Char := ['_', 's', 'a']

def isHidden : Spelling → Bool
  | .chars name => hiddenStart.isPrefixOf name.toList
  | .codes points => (hiddenStart.map Char.toNat).isPrefixOf points

mutual

/-- Whether a report can show a value. Of members of one name only the last counts. -/
def isPresentable : Json → Bool
  | .null | .bool _ | .int _ => true
  | .real x => x.toRat?.isSome
  | .text s => s.isText
  | .array items => arePresentable items
  | .object members => membersPresentable members

def arePresentable : List Json → Bool
  | [] => true
  | j :: js => isPresentable j && arePresentable js

def membersPresentable : Json.Members → Bool
  | [] => true
  | (name, j) :: ms =>
    (isHidden name || (Json.lookup name ms).isSome || (name.isText && isPresentable j)) &&
      membersPresentable ms

end

/-! ## Reports -/

def Place.toJson : Place → Json
  | name s => .text s
  | index i => .int i

def Fault.toJson (f : Fault) : Json :=
  .object [("type", .text f.kind.name), ("loc", .array (f.place.map Place.toJson))]

def report? (fs : List Fault) : Option Json :=
  if fs.all fun f => isPresentable f.given then some (.array (fs.map Fault.toJson)) else none

end Service
end Cadence
