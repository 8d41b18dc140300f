import DidMethods.Did.Basic
import DidMethods.Http.Client
import DidMethods.Http.Status
import DidMethods.IonMethod.Basic
import DidMethods.Resolver.Answer

/-!
# Resolving through a gateway

A `did:ion` of either form can be resolved by a gateway, which knows what has been anchored
(`IonMethod.resolve`). The gateway is asked for the bare DID, and its answer is a document with
metadata (`GatewayAnswer`); whether the DID is anchored is best known by the method itself.
-/

namespace DidMethods.IonMethod

/-- What a gateway knows about a DID. -/
structure GatewayAnswer where
  /-- The document, if there is one. -/
  document : Option Document
  /-- What is said about the document. -/
  metadata : DocumentMetadata
deriving DecidableEq, Repr

namespace GatewayAnswer

/-- Read the JSON form. -/
def ofJson? (v : Json) : Option GatewayAnswer := do
  let members ← v.record?
    [Json.slot "didDocument", Json.slotWithDefault "didDocumentMetadata"]
  let document ← Json.optional? members "didDocument" Document.ofJson?
  let metadata ← Json.defaulted? members "didDocumentMetadata" {} DocumentMetadata.ofJson?
  return { document, metadata }

/-- What a reader looks at. -/
def shape : Json.Shape :=
  .record [("didDocument", Document.shape), ("didDocumentMetadata", .whole)]

/-- Read the answer from the octets of its text. -/
def parse? (body : Bytes) : Option GatewayAnswer := do
  let v ← Json.ofBytes? body shape Json.maxDepth
  ofJson? v

end GatewayAnswer

/-- What the method itself says about whether the DID is anchored. -/
def anchored? (m : DocumentMetadata) : Option Bool := do
  let method ← m.additional.lookup "method"
  let published ← method.get? "published"
  published.bool?

/-- The metadata, in which the word of the method counts most. -/
def withAnchored (m : DocumentMetadata) : DocumentMetadata :=
  { m with published := (anchored? m).or m.published }

/-- The result of a resolution from what a gateway answers. -/
def resolutionOfAnswer (uri : String) (status : Nat) (body : Bytes) : Outcome Resolution := do
  if ¬ Http.isSuccess status then
    return .ofError .notFound s!"gateway returned {Http.statusText status}"
  let answer ← orFail .internalError "failed to deserialize resolution" (GatewayAnswer.parse? body)
  match answer.document with
  | none => return .ofError .notFound s!"no document for {uri}"
  | some document => return .ofDocument document (withAnchored answer.metadata)

/-- The request to a gateway for a DID. -/
def identifierRequest (url : Url) : Http.Request where
  verb := .get
  url := url
  accept := Http.jsonType

/-- The result of a resolution from what the call to a gateway ends with. -/
def resolutionOfReply (uri : String) : Http.Answer → Outcome Resolution
  | .failed => fail .internalError "failed to call DID resolution endpoint"
  | .answered status body => resolutionOfAnswer uri status body

/-- Ask a gateway for a bare DID. -/
def askGateway (gateway uri : String) : StateM Http.Client Answer := do
  match Url.parse s!"{gateway}/identifiers/{uri}" with
  | .error f => return { result := .ofFault f }
  | .ok url =>
    let reply ← Http.Client.call (identifierRequest url)
    return { result := .ofOutcome (resolutionOfReply uri reply.answer), after := reply.after }

/-- The bare DID that a gateway is asked for. -/
def subject (did : String) : Outcome String := do
  let parsed ← Did.parse did
  if parsed.method ≠ name then
    fail .methodNotSupported s!"method not supported: {parsed.method}"
  return parsed.uri

/-- Resolve a DID or DID URL, by a gateway that may be named for this call only. -/
def resolve (m : IonMethod) (gateway? : Option String) (did : String) : StateM Http.Client Answer := do
  match subject did with
  | .error f => return { result := .ofFault f }
  | .ok uri => askGateway (m.gatewayFor gateway?) uri

end DidMethods.IonMethod
