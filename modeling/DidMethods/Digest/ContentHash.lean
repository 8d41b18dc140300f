import DidMethods.Digest.Sha2
import DidMethods.Json.Canonical
import DidMethods.Multiformat.Multihash
import DidMethods.Text.Base64Url

/-!
# Hashes of content

A JSON value is named by the SHA-256 multihash of its canonical text, in URL-safe base64
(`ContentHash.ofJson`). A commitment to a value that is revealed later hashes twice, so that the
first hash can be shown before the value is (`ContentHash.commitment`). `ContentHash.check` accepts
texts that have the form of such a name, `ContentHash.verify` only the name of a given value.
-/

namespace DidMethods.ContentHash

/-- The octets of the SHA-256 multihash of some octets. -/
def multihash (bytes : Bytes) : Bytes :=
  Multihash.encode ⟨Multihash.sha256Code, sha256 bytes⟩

/-- The name of a value. -/
def ofJson (v : Json) : String :=
  Base64Url.encode (multihash v.canonicalBytes)

/-- The commitment to a value. -/
def commitment (v : Json) : String :=
  Base64Url.encode (multihash (sha256 v.canonicalBytes))

/-- The text is a multihash that names SHA-256 as its function. -/
def check (hash : String) : Outcome Unit := do
  let bytes ← Base64Url.decode hash
  let h ← Multihash.decode bytes
  if h.code ≠ Multihash.sha256Code then
    fail .invalidHash s!"invalid hash code: {h.code}"

/-- The text is the name of the value. -/
def verify (v : Json) (hash : String) : Outcome Unit := do
  check hash
  if ofJson v ≠ hash then
    fail .invalidHash "hash does not match data"

end DidMethods.ContentHash
