import DidMethods.Did.Basic
import DidMethods.IonMethod.Basic
import DidMethods.Resolution.Result

/-!
# Resolving long forms

The long form of a `did:ion` needs no gateway: the document is the one of the initial state that it
carries, once this has been checked against the suffix (`IonMethod.LongForm.document`). Whatever
is wrong with the text makes it an invalid DID; only another method and a fault of a key are
reported as such (`IonMethod.LongForm.resolve`).
-/

namespace DidMethods.IonMethod

/-- A long form taken apart. -/
structure LongForm where
  /-- The bare DID. -/
  uri : String
  /-- The identifier of the short form, network included. -/
  shortId : String
  /-- The segment with the initial state. -/
  segment : String
deriving DecidableEq, Repr

/-- Take a long form, or a DID URL of one, apart. -/
def LongForm.parse (did : String) : Outcome LongForm := do
  let parsed ← Did.parse did
  if parsed.method ≠ name then
    fail .methodNotSupported s!"method not supported: {parsed.method}"
  let (shortId, segment) ← orFail .invalidDid s!"{did} is not a long-form DID"
    (Text.cutLast ':' parsed.id.toList)
  return ⟨parsed.uri, String.ofList shortId, String.ofList segment⟩

/-- The suffix: what stands after the network. -/
def LongForm.suffix (l : LongForm) : String :=
  String.ofList (Text.afterLast ':' l.shortId.toList)

/-- The short form. -/
def LongForm.short (l : LongForm) : String :=
  s!"did:{name}:{l.shortId}"

/-- What is said about a document that is not anchored. -/
def unanchoredMetadata (short : String) (s : Sidetree.InitialState) : DocumentMetadata where
  canonicalId := some short
  equivalentId := some [short]
  published := some false
  additional := [("method", s.report false)]

/-- The document of a long form, and what is said about it. -/
def LongForm.document (did : String) : Outcome (Document × DocumentMetadata) := do
  let l ← LongForm.parse did
  let s ← Sidetree.InitialState.decode l.segment
  s.check l.suffix
  return (s.state.toDocument l.uri, unanchoredMetadata l.short s)

/-- The code that a failure is reported with. -/
def reportedCode : Code → Code
  | .methodNotSupported => .methodNotSupported
  | .invalidPublicKey => .invalidPublicKey
  | .invalidPublicKeyType => .invalidPublicKeyType
  | .unsupportedPublicKeyType => .unsupportedPublicKeyType
  | _ => .invalidDid

/-- Resolve a long form by itself. -/
def LongForm.resolve (did : String) : Resolution :=
  match LongForm.document did with
  | .ok (document, metadata) => .ofDocument document metadata
  | .error f => .ofError (reportedCode f.code) (some f.message)

end DidMethods.IonMethod
