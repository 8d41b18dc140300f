import DidMethods.Document.Method
import DidMethods.Document.Purpose
import DidMethods.Document.ServiceRules

/-!
# Entries of a state

What Sidetree keeps of a document are its keys (`Sidetree.KeyEntry`) and its services
(`Sidetree.ServiceEntry`). The identifier of an entry is local: it knows neither the DID nor the
number sign that would come before it in a document.
-/

namespace DidMethods.Sidetree

/-! ### Identifiers -/

/-- The longest identifier, in octets. -/
def maxIdLength : Nat := 50

/-- An identifier is short and written with the digits of URL-safe base64. -/
def checkId (id : String) : Outcome Unit := do
  if id.isEmpty ∨ id.utf8ByteSize > maxIdLength then
    fail .invalidFormat s!"ID must be 1 to {maxIdLength} characters: {id}"
  if ¬ id.toList.all Base64Url.isDigit then
    fail .invalidFormat s!"ID is not base64url: {id}"

/-! ### Keys -/

/-- A key of a document. -/
structure KeyEntry where
  /-- The local identifier. -/
  id : String
  /-- The type of the verification method. -/
  type : String
  /-- The public key. -/
  key : Jwk
  /-- The purposes of the key. -/
  purposes : List Purpose := []
deriving DecidableEq, Repr

namespace KeyEntry

/-- The verification method that the entry stands for in the document of a DID. -/
def toMethod (did : String) (e : KeyEntry) : Method where
  id := s!"{did}#{e.id}"
  type := e.type
  controller := did
  key := .jwk e.key

/-- A key by itself, apart from the others. -/
def check (e : KeyEntry) : Outcome Unit :=
  if e.key.isPrivate then fail .invalidInput s!"public key {e.id} has private key material"
  else .ok ()

/-- Keys after some whose identifiers are taken. -/
def checkAfter (taken : List String) : List KeyEntry → Outcome Unit
  | [] => .ok ()
  | e :: rest => do
    checkId e.id
    if taken.contains e.id then
      fail .invalidInput s!"duplicate public key ID: {e.id}"
    e.check
    checkAfter (e.id :: taken) rest

/-- The JSON form. -/
def toJson (e : KeyEntry) : Json :=
  .compact
    [("id", some (.string e.id)), ("type", some (.string e.type)),
      ("publicKeyJwk", some e.key.toJson),
      ("purposes",
        if e.purposes.isEmpty then none else some (.array (e.purposes.map Purpose.toJson)))]

/-- Read the JSON form, with a reader for keys and one for purposes. -/
def ofJsonWith? (key? : Json → Option Jwk) (purpose? : Json → Option Purpose) (v : Json) :
    Option KeyEntry := do
  let members ← v.record?
    [Json.slot "id", Json.slot "type", Json.slot "publicKeyJwk", Json.slotWithDefault "purposes"]
  let id ← Json.required? members "id" Json.string?
  let type ← Json.required? members "type" Json.string?
  let key ← Json.required? members "publicKeyJwk" key?
  let purposes ← Json.defaulted? members "purposes" [] (Json.listOf? purpose?)
  return { id, type, key, purposes : KeyEntry }

/-- Read the JSON form. -/
def ofJson? : Json → Option KeyEntry :=
  ofJsonWith? Jwk.ofJson? Purpose.ofJson?

/-- Read the JSON form within a value that is looked at twice. -/
def ofTaggedJson? : Json → Option KeyEntry :=
  ofJsonWith? Jwk.ofTaggedJson? Purpose.ofTaggedJson?

/-- What a reader looks at. -/
def shape : Json.Shape :=
  .record
    [("id", .whole), ("type", .whole), ("publicKeyJwk", .whole), ("purposes", .whole)]

end KeyEntry

/-! ### Services -/

/-- A service of a document, with its only endpoint. -/
structure ServiceEntry where
  /-- The local identifier. -/
  id : String
  /-- The type. -/
  type : String
  /-- The endpoint. -/
  endpoint : Endpoint
deriving DecidableEq, Repr

namespace ServiceEntry

/-- The entry that a service becomes; it may have one endpoint only. -/
def ofService (s : Service) : Outcome ServiceEntry :=
  match s.endpoint.toList with
  | [endpoint] => .ok ⟨s.localId, s.type, endpoint⟩
  | _ => fail .invalidInput s!"service {s.id} must have a single endpoint"

/-- The service that the entry stands for in the document of a DID. -/
def toService (did : String) (e : ServiceEntry) : Service where
  id := s!"{did}#{e.id}"
  type := e.type
  endpoint := .one e.endpoint

/-- A service by itself, apart from its identifier. A map is not looked into. -/
def check (e : ServiceEntry) : Outcome Unit := do
  if e.type.utf8ByteSize > Service.maxTypeLength then
    fail .invalidFormat s!"service type exceeds limit of {Service.maxTypeLength}: {e.type}"
  match e.endpoint with
  | .text url => (Url.parse url).map fun _ => ()
  | .value members =>
    if members.isEmpty then fail .invalidFormat s!"service {e.id} has no endpoint"

/-- Services after some whose identifiers are taken. -/
def checkAfter (taken : List String) : List ServiceEntry → Outcome Unit
  | [] => .ok ()
  | e :: rest => do
    checkId e.id
    if taken.contains e.id then
      fail .invalidInput s!"duplicate service ID: {e.id}"
    e.check
    checkAfter (e.id :: taken) rest

/-- The JSON form. -/
def toJson (e : ServiceEntry) : Json :=
  .object
    [("id", .string e.id), ("type", .string e.type), ("serviceEndpoint", e.endpoint.toJson)]

/-- Read the JSON form. -/
def ofJson? (v : Json) : Option ServiceEntry := do
  let members ← v.record? (["id", "type", "serviceEndpoint"].map Json.slot)
  let id ← Json.required? members "id" Json.string?
  let type ← Json.required? members "type" Json.string?
  let endpoint ← Json.required? members "serviceEndpoint" Endpoint.ofJson?
  return { id, type, endpoint : ServiceEntry }

/-- What a reader looks at. -/
def shape : Json.Shape := Service.shape

end ServiceEntry

end DidMethods.Sidetree
