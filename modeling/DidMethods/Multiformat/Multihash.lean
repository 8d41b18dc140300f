import DidMethods.Fault
import DidMethods.Multiformat.Varint

/-!
# Multihashes

A digest that says how it was made: the code of the hash function, the length of the digest, and
the digest, the two numbers as varints. Reading wants exactly that, with nothing after it, and a
digest of at most sixty-four octets.
-/

namespace DidMethods

/-- A digest with the code of its hash function. -/
structure Multihash where
  /-- The code of the hash function. -/
  code : Nat
  /-- The digest. -/
  digest : Bytes
deriving DecidableEq, Repr

namespace Multihash

/-- The code of SHA-256. -/
def sha256Code : Nat := 0x12

/-- The longest digest that can be read, in octets. -/
def maxDigest : Nat := 64

/-- Code, length and digest as octets. -/
def encode (h : Multihash) : Bytes :=
  Varint.encode h.code ++ Varint.encode h.digest.length ++ h.digest

/-- The multihash that some octets write, if they write one and nothing else. -/
def decode? (bytes : Bytes) : Option Multihash := do
  let (code, rest) ← Varint.decode? bytes
  let (size, digest) ← Varint.decode? rest
  if size ≤ maxDigest ∧ digest.length = size then some ⟨code, digest⟩ else none

/-- The multihash that some octets write, or the failure that they write none. -/
def decode (bytes : Bytes) : Outcome Multihash :=
  match decode? bytes with
  | some h => .ok h
  | none => .error (.plain .invalidHash)

end Multihash

end DidMethods
