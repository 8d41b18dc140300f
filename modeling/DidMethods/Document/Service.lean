import DidMethods.Json.Alternatives
import DidMethods.Text.Split

/-!
# Services

A service says where and how its subject can be reached: an identifier, a type, and one endpoint or
a list of them, each a URL or a map of named values.
-/

namespace DidMethods

/-- A URL, or a map of named values. -/
abbrev Endpoint := TextOr (List Json.Member)

namespace Endpoint

/-- Read a map of named values; of members of one name the last counts. -/
def map? (v : Json) : Option (List Json.Member) :=
  v.lastWins.members?

/-- Read the JSON form. -/
def ofJson? : Json → Option Endpoint :=
  TextOr.ofJson? map?

/-- The JSON form. -/
def toJson : Endpoint → Json :=
  TextOr.toJson Json.object

end Endpoint

/-- The part of an identifier after its last number sign, or the whole of it. -/
def localPart (id : String) : String :=
  String.ofList (Text.afterLast '#' id.toList)

/-- A way to reach the subject. -/
structure Service where
  /-- The identifier, unique in its document. -/
  id : String
  /-- The type. -/
  type : String
  /-- The endpoints. -/
  endpoint : OneOrMany Endpoint
deriving DecidableEq, Repr

namespace Service

/-- A service with a single URL for endpoint. -/
def ofUrl (id type url : String) : Service where
  id := id
  type := type
  endpoint := .one (.text url)

/-- The part of the identifier after its last number sign. -/
def localId (s : Service) : String :=
  localPart s.id

/-- The JSON form of a service. -/
def toJson (s : Service) : Json :=
  .object
    [("id", .string s.id), ("type", .string s.type),
      ("serviceEndpoint", s.endpoint.toJson Endpoint.toJson)]

/-- Read the JSON form. -/
def ofJson? (v : Json) : Option Service := do
  let members ← v.record? [Json.slot "id", Json.slot "type", Json.slot "serviceEndpoint"]
  let id ← Json.required? members "id" Json.string?
  let type ← Json.required? members "type" Json.string?
  let endpoint ← Json.required? members "serviceEndpoint" (OneOrMany.ofJson? Endpoint.ofJson?)
  return { id, type, endpoint }

/-- What a reader of a service looks at. -/
def shape : Json.Shape :=
  .record [("id", .whole), ("type", .whole), ("serviceEndpoint", .whole)]

end Service

end DidMethods
