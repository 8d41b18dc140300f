import DidMethods.Fault
import DidMethods.Json.Record
import DidMethods.Time.Instant

/-!
# Metadata of a resolution

What is said about a resolution (`ResolutionMetadata`: an error or the type of the document) and
what is said about the document (`DocumentMetadata`: its history, its other names, and whatever a
method adds). Members that a reader of document metadata does not know are kept.
-/

namespace DidMethods

/-- The JSON form of a failure. -/
def Fault.toJson (f : Fault) : Json :=
  .object [("error", .string f.code.name), ("errorMessage", .string f.message)]

/-- What is said about a resolution. -/
structure ResolutionMetadata where
  /-- The cause of failure. -/
  error : Option Code := none
  /-- The failure in words. -/
  errorMessage : Option String := none
  /-- The media type of the document. -/
  contentType : Option String := none
deriving DecidableEq, Repr

namespace ResolutionMetadata

/-- The JSON form. -/
def toJson (m : ResolutionMetadata) : Json :=
  .compact
    [("error", m.error.map fun c => .string c.name),
      ("errorMessage", m.errorMessage.map .string), ("contentType", m.contentType.map .string)]

/-- Read a code; one that is not registered is an internal error. -/
def codeOfJson? (v : Json) : Option Code :=
  v.string?.map fun s => (Code.ofName? s).getD .internalError

/-- Read the JSON form. -/
def ofJson? (v : Json) : Option ResolutionMetadata := do
  let members ← v.record?
    [Json.slotWithDefault "error", Json.slot "errorMessage", Json.slot "contentType"]
  let error ← Json.optional? members "error" codeOfJson?
  let errorMessage ← Json.optional? members "errorMessage" Json.string?
  let contentType ← Json.optional? members "contentType" Json.string?
  return { error, errorMessage, contentType }

/-- What a reader looks at. -/
def shape : Json.Shape :=
  .record [("error", .whole), ("errorMessage", .whole), ("contentType", .whole)]

end ResolutionMetadata

/-- What is said about a document. -/
structure DocumentMetadata where
  /-- When the DID was created. -/
  created : Option Instant := none
  /-- When the document was last updated. -/
  updated : Option Instant := none
  /-- The DID is no longer in use. -/
  deactivated : Option Bool := none
  /-- When this version of the document was replaced. -/
  nextUpdate : Option Instant := none
  /-- The version of the document. -/
  versionId : Option String := none
  /-- The version that replaced it. -/
  nextVersionId : Option String := none
  /-- Other DIDs of the same subject. -/
  equivalentId : Option (List String) := none
  /-- The DID to prefer. -/
  canonicalId : Option String := none
  /-- The DID is anchored to its network. -/
  published : Option Bool := none
  /-- What the method adds. -/
  additional : List Json.Member := []
deriving DecidableEq, Repr

namespace DocumentMetadata

/-- The names of the members that every method knows. -/
def names : List String :=
  ["created", "updated", "deactivated", "nextUpdate", "versionId", "nextVersionId", "equivalentId",
    "canonicalId", "published"]

/-- The JSON form of an instant. -/
def instantToJson (t : Instant) : Json :=
  .string t.toText

/-- Read an instant. -/
def instantOfJson? (v : Json) : Option Instant :=
  v.string?.bind Instant.parse?

/-- The JSON form. -/
def toJson (m : DocumentMetadata) : Json :=
  .compact <|
    [("created", m.created.map instantToJson), ("updated", m.updated.map instantToJson),
      ("deactivated", m.deactivated.map .bool), ("nextUpdate", m.nextUpdate.map instantToJson),
      ("versionId", m.versionId.map .string), ("nextVersionId", m.nextVersionId.map .string),
      ("equivalentId", m.equivalentId.map Json.strings),
      ("canonicalId", m.canonicalId.map .string), ("published", m.published.map .bool)]
    ++ m.additional.map fun (k, v) => (k, some v)

/-- The members that not every method knows; of members of one name the last counts. -/
def otherMembers (members : List Json.Member) : List Json.Member :=
  Json.lastOfName (Json.lastWinsMembers (members.filter fun m => !names.contains m.1))

/-- Read the JSON form. -/
def ofJson? (v : Json) : Option DocumentMetadata := do
  let members ← v.flatRecord? names
  let created ← Json.optional? members "created" instantOfJson?
  let updated ← Json.optional? members "updated" instantOfJson?
  let deactivated ← Json.optional? members "deactivated" Json.bool?
  let nextUpdate ← Json.optional? members "nextUpdate" instantOfJson?
  let versionId ← Json.optional? members "versionId" Json.string?
  let nextVersionId ← Json.optional? members "nextVersionId" Json.string?
  let equivalentId ← Json.optional? members "equivalentId" (Json.listOf? Json.string?)
  let canonicalId ← Json.optional? members "canonicalId" Json.string?
  let published ← Json.optional? members "published" Json.bool?
  let additional := otherMembers members
  return {
    created, updated, deactivated, nextUpdate, versionId, nextVersionId, equivalentId, canonicalId,
    published, additional : DocumentMetadata }

end DocumentMetadata

end DidMethods
