import DidMethods.Document.Basic
import DidMethods.Resolution.Metadata

/-!
# Results of resolution

A resolution comes to a document or to an error, with metadata either way (`Resolution`). What goes
wrong while resolving is not lost but becomes part of the result (`Resolution.ofOutcome`).
-/

namespace DidMethods

/-- What resolving a DID came to. -/
structure Resolution where
  /-- The context of the terms of a result. -/
  context : String := "https://w3id.org/did-resolution/v1"
  /-- What is said about the resolution. -/
  metadata : ResolutionMetadata := {}
  /-- The document, unless the resolution failed. -/
  document : Option Document := none
  /-- What is said about the document. -/
  documentMetadata : DocumentMetadata := {}
deriving DecidableEq, Repr

namespace Resolution

/-- The media type of documents. -/
def documentType : String := "application/did+ld+json"

/-- The result that is a document. -/
def ofDocument (d : Document) (m : DocumentMetadata) : Resolution where
  metadata := { contentType := some documentType }
  document := some d
  documentMetadata := m

/-- The result that is an error. -/
def ofError (code : Code) (message : Option String) : Resolution where
  metadata := { error := some code, errorMessage := message }

/-- The result that a failure comes to. -/
def ofFault (f : Fault) : Resolution :=
  ofError f.code (some f.message)

/-- A result either way. -/
def ofOutcome : Outcome Resolution → Resolution
  | .ok r => r
  | .error f => ofFault f

/-- The code of the error, if there is one. -/
def errorCode? (r : Resolution) : Option Code :=
  r.metadata.error

/-- There is a document, and no error. -/
def isOk (r : Resolution) : Bool :=
  r.metadata.error.isNone && r.document.isSome

/-- The JSON form. -/
def toJson (r : Resolution) : Json :=
  .object
    [("@context", .string r.context), ("didResolutionMetadata", r.metadata.toJson),
      ("didDocument", (r.document.map Document.toJson).getD .null),
      ("didDocumentMetadata", r.documentMetadata.toJson)]

/-- The members of a result. -/
def slots : List Json.Slot :=
  ["@context", "didResolutionMetadata", "didDocument", "didDocumentMetadata"].map
    Json.slotWithDefault

/-- Read the JSON form. -/
def ofJson? (v : Json) : Option Resolution := do
  let members ← v.record? slots
  let context ← Json.defaulted? members "@context" ({} : Resolution).context Json.string?
  let metadata ←
    Json.defaulted? members "didResolutionMetadata" {} ResolutionMetadata.ofJson?
  let document ← Json.optional? members "didDocument" Document.ofJson?
  let documentMetadata ←
    Json.defaulted? members "didDocumentMetadata" {} DocumentMetadata.ofJson?
  return { context, metadata, document, documentMetadata }

/-- What a reader of a result looks at. -/
def shape : Json.Shape :=
  .record
    [("@context", .whole), ("didResolutionMetadata", ResolutionMetadata.shape),
      ("didDocument", Document.shape), ("didDocumentMetadata", .whole)]

/-- Read the text of a result. -/
def parse? (s : String) : Option Resolution :=
  (Json.ofText? s shape Json.maxDepth).bind ofJson?

end Resolution

end DidMethods
