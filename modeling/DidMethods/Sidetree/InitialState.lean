import DidMethods.Sidetree.Request

/-!
# Initial states

A DID can carry the operation that creates it, so that it can be resolved before the operation is
anchored: the suffix data and the delta, as canonical JSON in URL-safe base64. Whoever reads such a
state has to check it (`InitialState.check`), for nothing but the hashes in it ties its parts to
each other and to the suffix of the DID.
-/

namespace DidMethods.Sidetree

/-- The operation that a DID carries. -/
structure InitialState where
  /-- The suffix data. -/
  suffixData : SuffixData
  /-- The delta. -/
  delta : Delta
deriving DecidableEq, Repr

namespace InitialState

/-- The initial state of a request. -/
def ofRequest (r : CreateRequest) : InitialState :=
  ⟨r.suffixData, r.delta⟩

/-- The JSON form. -/
def toJson (s : InitialState) : Json :=
  .object [("suffixData", s.suffixData.toJson), ("delta", s.delta.toJson)]

/-- Read the JSON form. -/
def ofJson? (v : Json) : Option InitialState := do
  let members ← v.record? (["suffixData", "delta"].map Json.slot)
  let suffixData ← Json.required? members "suffixData" SuffixData.ofJson?
  let delta ← Json.required? members "delta" Delta.ofJson?
  return { suffixData, delta : InitialState }

/-- What a reader looks at. -/
def shape : Json.Shape :=
  .record [("suffixData", SuffixData.shape), ("delta", Delta.shape)]

/-- The state as the last segment of a DID. -/
def encode (s : InitialState) : String :=
  Base64Url.encode s.toJson.canonicalBytes

/-- The state that octets are the JSON text of. -/
def parse? (bytes : Bytes) : Option InitialState := do
  let v ← Json.ofBytes? bytes shape Json.maxDepth
  ofJson? v

/-- The state that the last segment of a DID carries. -/
def decode (segment : String) : Outcome InitialState := do
  let bytes ← orFail .invalidDid "long-form segment is not base64url" (Base64Url.decode? segment)
  orFail .invalidDid "invalid long-form segment" (parse? bytes)

/-- The parts of the state belong to each other, and to a suffix. -/
def check (s : InitialState) (suffix : String) : Outcome Unit := do
  s.delta.check
  ContentHash.verify s.delta.toJson s.suffixData.deltaHash
  ContentHash.check s.suffixData.recoveryCommitment
  ContentHash.check s.delta.updateCommitment
  if s.suffixData.suffix ≠ suffix then
    fail .invalidDid "DID suffix does not match suffix data"

/-- The state of the document, once the patches have been applied. -/
def state (s : InitialState) : State :=
  State.applyAll {} s.delta.patches

/-- The commitments, and whether the operation is anchored, the way gateways report them. -/
def report (s : InitialState) (published : Bool) : Json :=
  .object
    [("published", .bool published),
      ("recoveryCommitment", .string s.suffixData.recoveryCommitment),
      ("updateCommitment", .string s.delta.updateCommitment)]

end InitialState

end DidMethods.Sidetree
