import DidMethods.Document.Basic

/-!
# Portable DIDs

What a holder of a DID keeps with it (`DidMetadata`), and the form in which a DID is handed over
from one key manager to another, with its private keys or without (`PortableDid`).
-/

namespace DidMethods

/-- What is kept with a DID. -/
structure DidMetadata where
  /-- The DID is anchored to its network. -/
  published : Option Bool := none
  /-- The short form of the DID. -/
  canonicalId : Option String := none
  /-- The public key that may recover the DID. -/
  recoveryKey : Option Jwk := none
  /-- The public key that may update the DID. -/
  updateKey : Option Jwk := none
deriving DecidableEq, Repr

namespace DidMetadata

/-- The JSON form. -/
def toJson (m : DidMetadata) : Json :=
  .compact
    [("published", m.published.map .bool), ("canonicalId", m.canonicalId.map .string),
      ("recoveryKey", m.recoveryKey.map Jwk.toJson), ("updateKey", m.updateKey.map Jwk.toJson)]

/-- The names of the members. -/
def names : List String := ["published", "canonicalId", "recoveryKey", "updateKey"]

/-- Read the JSON form. -/
def ofJson? (v : Json) : Option DidMetadata := do
  let members ← v.record? (names.map Json.slot)
  let published ← Json.optional? members "published" Json.bool?
  let canonicalId ← Json.optional? members "canonicalId" Json.string?
  let recoveryKey ← Json.optional? members "recoveryKey" Jwk.ofJson?
  let updateKey ← Json.optional? members "updateKey" Jwk.ofJson?
  return { published, canonicalId, recoveryKey, updateKey }

/-- What a reader looks at. -/
def shape : Json.Shape :=
  .record (names.map fun n => (n, .whole))

end DidMetadata

/-- A DID to be handed over. -/
structure PortableDid where
  /-- The DID. -/
  uri : String
  /-- The document. -/
  document : Document
  /-- What is kept with the DID. -/
  metadata : DidMetadata
  /-- The private keys that go with it. -/
  privateKeys : Option (List Jwk) := none
deriving DecidableEq, Repr

namespace PortableDid

/-- The JSON form. -/
def toJson (p : PortableDid) : Json :=
  .compact
    [("uri", some (.string p.uri)), ("document", some p.document.toJson),
      ("metadata", some p.metadata.toJson),
      ("privateKeys", p.privateKeys.map fun keys => .array (keys.map Jwk.toJson))]

/-- Read the JSON form. -/
def ofJson? (v : Json) : Option PortableDid := do
  let members ← v.record? (["uri", "document", "metadata", "privateKeys"].map Json.slot)
  let uri ← Json.required? members "uri" Json.string?
  let document ← Json.required? members "document" Document.ofJson?
  let metadata ← Json.required? members "metadata" DidMetadata.ofJson?
  let privateKeys ← Json.optional? members "privateKeys" (Json.listOf? Jwk.ofJson?)
  return { uri, document, metadata, privateKeys }

/-- What a reader looks at. -/
def shape : Json.Shape :=
  .record
    [("uri", .whole), ("document", Document.shape), ("metadata", DidMetadata.shape),
      ("privateKeys", .whole)]

end PortableDid

end DidMethods
