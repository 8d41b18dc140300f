import DidMethods.Digest.Sha2

/-!
# Keyed digests

HMAC with SHA-256: the message is hashed twice, each time behind the key mixed with a pad.
-/

namespace DidMethods

/-- The block length of SHA-256, in octets. -/
def Hmac.blockLength : Nat := 64

/-- The key filled up to a block; a longer key is hashed first. -/
def Hmac.blockKey (key : Bytes) : Bytes :=
  let short := if Hmac.blockLength < key.length then sha256 key else key
  short ++ List.replicate (Hmac.blockLength - short.length) 0

/-- The HMAC of a message under a key. -/
def hmacSha256 (key message : Bytes) : Bytes :=
  let k := Hmac.blockKey key
  sha256 (k.map (· ^^^ 0x5c) ++ sha256 (k.map (· ^^^ 0x36) ++ message))

end DidMethods
