import DidMethods.Json.Printer
import DidMethods.Text.Bytes

/-!
# Canonical JSON

The canonical text of a value does not depend on the order of members: the members of every object
are sorted by the UTF-16 code units of their names, nothing is escaped that need not be, and a
number is written as the double it denotes. Hashes are taken of the octets of this text.
-/

namespace DidMethods.Json

/-- The members of an object in the order of their names. -/
def sortMembers (members : List Member) : List Member :=
  members.mergeSort fun a b => Utf16.le a.1 b.1

mutual

/-- The same value with the members of every object in order. -/
def sorted : Json → Json
  | .array items => .array (sortedItems items)
  | .object members => .object (sortMembers (sortedMembers members))
  | v => v

/-- `Json.sorted` on every item. -/
def sortedItems : List Json → List Json
  | [] => []
  | v :: rest => v.sorted :: sortedItems rest

/-- `Json.sorted` on the value of every member. -/
def sortedMembers : List Member → List Member
  | [] => []
  | (k, v) :: rest => (k, v.sorted) :: sortedMembers rest

end

/-- The canonical text of a value. -/
def canonical (v : Json) : String :=
  String.ofList (v.sorted.write ecma)

/-- The octets of the canonical text. -/
def canonicalBytes (v : Json) : Bytes :=
  Bytes.ofString v.canonical

end DidMethods.Json
