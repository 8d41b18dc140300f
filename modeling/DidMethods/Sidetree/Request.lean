import DidMethods.Digest.ContentHash
import DidMethods.Sidetree.Patch

/-!
# Requests that create a DID

A DID is created by a delta, which patches the empty state and commits to the key that may update
it, and by the suffix data, which fix the delta by its hash and commit to the key that may recover
the DID. The hash of the suffix data is the suffix of the DID; so the DID certifies all of it.
-/

namespace DidMethods.Sidetree

/-- The changes that an operation makes. -/
structure Delta where
  /-- The patches, in order. -/
  patches : List Patch := []
  /-- The commitment to the next update key. -/
  updateCommitment : String := ""
deriving DecidableEq, Repr

/-- What the suffix of a DID is the hash of. -/
structure SuffixData where
  /-- The hash of the delta. -/
  deltaHash : String := ""
  /-- The commitment to the next recovery key. -/
  recoveryCommitment : String := ""
deriving DecidableEq, Repr

/-- A request to create a DID. -/
structure CreateRequest where
  /-- The suffix data. -/
  suffixData : SuffixData
  /-- The delta. -/
  delta : Delta
deriving DecidableEq, Repr

namespace Delta

/-- The longest canonical text of a delta, in octets. -/
def maxSize : Nat := 1000

/-- The JSON form. -/
def toJson (d : Delta) : Json :=
  .object
    [("patches", .array (d.patches.map Patch.toJson)),
      ("updateCommitment", .string d.updateCommitment)]

/-- Read the JSON form. -/
def ofJson? (v : Json) : Option Delta := do
  let members ← v.record? (["patches", "updateCommitment"].map Json.slot)
  let patches ← Json.required? members "patches" (Json.listOf? Patch.ofJson?)
  let updateCommitment ← Json.required? members "updateCommitment" Json.string?
  return { patches, updateCommitment : Delta }

/-- What a reader looks at. -/
def shape : Json.Shape :=
  .record [("patches", .whole), ("updateCommitment", .whole)]

/-- The size of the canonical text, in octets. -/
def size (d : Delta) : Nat :=
  d.toJson.canonicalBytes.length

/-- The delta is not too long. -/
def check (d : Delta) : Outcome Unit :=
  if d.size > maxSize then
    fail .invalidFormat s!"delta longer than {maxSize} bytes: {d.size}"
  else .ok ()

/-- The hash. -/
def hash (d : Delta) : String :=
  ContentHash.ofJson d.toJson

end Delta

namespace SuffixData

/-- The JSON form. -/
def toJson (d : SuffixData) : Json :=
  .object
    [("deltaHash", .string d.deltaHash), ("recoveryCommitment", .string d.recoveryCommitment)]

/-- Read the JSON form. -/
def ofJson? (v : Json) : Option SuffixData := do
  let members ← v.record? (["deltaHash", "recoveryCommitment"].map Json.slot)
  let deltaHash ← Json.required? members "deltaHash" Json.string?
  let recoveryCommitment ← Json.required? members "recoveryCommitment" Json.string?
  return { deltaHash, recoveryCommitment : SuffixData }

/-- What a reader looks at. -/
def shape : Json.Shape :=
  .record [("deltaHash", .whole), ("recoveryCommitment", .whole)]

/-- The suffix of the DID. -/
def suffix (d : SuffixData) : String :=
  ContentHash.ofJson d.toJson

end SuffixData

namespace CreateRequest

/-- The request for a state, with the commitments to the keys that may recover and update it. -/
def ofCommitments (recovery update : String) (state : State) : Outcome CreateRequest := do
  let delta : Delta := { patches := [.replace state], updateCommitment := update }
  delta.check
  return { suffixData := { deltaHash := delta.hash, recoveryCommitment := recovery }, delta }

/-- The request for a state, with the keys that may recover and update it. -/
def new (recovery update : Jwk) (state : State) : Outcome CreateRequest :=
  ofCommitments recovery.commitment update.commitment state

/-- The suffix of the DID. -/
def suffix (r : CreateRequest) : String :=
  r.suffixData.suffix

/-- The JSON form. -/
def toJson (r : CreateRequest) : Json :=
  .object
    [("type", .string "create"), ("suffixData", r.suffixData.toJson), ("delta", r.delta.toJson)]

/-- Read the type of an operation: creation is the only one. -/
def typeOfJson? : Json → Option Unit :=
  Json.case? fun s => if s = "create" then some () else none

/-- Read the JSON form. -/
def ofJson? (v : Json) : Option CreateRequest := do
  let members ← v.record? (["type", "suffixData", "delta"].map Json.slot)
  Json.required? members "type" typeOfJson?
  let suffixData ← Json.required? members "suffixData" SuffixData.ofJson?
  let delta ← Json.required? members "delta" Delta.ofJson?
  return { suffixData, delta : CreateRequest }

/-- What a reader looks at. -/
def shape : Json.Shape :=
  .record [("type", .whole), ("suffixData", SuffixData.shape), ("delta", Delta.shape)]

end CreateRequest

end DidMethods.Sidetree
