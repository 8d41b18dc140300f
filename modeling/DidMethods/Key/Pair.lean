import DidMethods.Curve.X25519
import DidMethods.Key.Algorithm
import DidMethods.Key.Multikey

/-!
# Key pairs

A private key of one of the three algorithms, by the octets or the scalar it is made of (`KeyPair`);
that these are thirty-two octets and a scalar in range is part of their types.
Its public key, its JSON forms and its signatures all follow from it. Reading a private key looks at
its private member only (`KeyPair.ofJwk`): whatever else the key says of itself is ignored.
-/

namespace DidMethods

/-- The thirty-two octets that a key is made of. -/
abbrev Seed := { bytes : Bytes // bytes.length = 32 }

/-- The seed that writes a number, of which it keeps the last 256 bits. -/
def Seed.ofNat (n : Nat) : Seed :=
  ⟨Bytes.ofNat 32 n, Bytes.length_ofNat 32 n⟩

/-- A private key. -/
inductive KeyPair where
  /-- The seed of an Ed25519 key. -/
  | ed25519 (seed : Seed)
  /-- The scalar of a secp256k1 key. -/
  | secp256k1 (secret : Es256k.Secret)
  /-- The secret of an X25519 key. -/
  | x25519 (secret : Seed)
deriving DecidableEq, Repr

namespace KeyPair

/-- What the key is for. -/
def algorithm : KeyPair → Algorithm
  | ed25519 _ => .ed25519
  | secp256k1 _ => .secp256k1
  | x25519 _ => .x25519

/-- The key of an algorithm that a random seed gives. -/
def draw (algorithm : Algorithm) (random : Seed) : KeyPair :=
  match algorithm with
  | .ed25519 => ed25519 random
  | .secp256k1 => secp256k1 (Es256k.secretOf (Bytes.toNat random))
  | .x25519 => x25519 random

/-- The public key. -/
def publicJwk : KeyPair → Jwk
  | ed25519 seed => .okp { crv := "Ed25519", x := Base64Url.encode (Ed25519.publicKey seed) }
  | secp256k1 secret => Multikey.pointJwk (Es256k.publicKey secret)
  | x25519 secret => .okp { crv := "X25519", x := Base64Url.encode (X25519.publicKey secret) }

/-- A public key with a private member. -/
def withPrivate (d : Bytes) : Jwk → Jwk
  | .ec k => .ec { k with d := some (Base64Url.encode d) }
  | .okp k => .okp { k with d := some (Base64Url.encode d) }
  | k => k

/-- The octets of the private member. -/
def privateBytes : KeyPair → Bytes
  | ed25519 seed => seed
  | secp256k1 secret => Bytes.ofNat 32 secret
  | x25519 secret => secret

/-- The private key. -/
def privateJwk (k : KeyPair) : Jwk :=
  withPrivate k.privateBytes k.publicJwk

/-- The private member of a key, as thirty-two octets. -/
def seedOf (curve : String) (d : Option String) : Outcome Seed := do
  let some d := d | fail .invalidInput s!"{curve} JWK has no private key"
  let bytes ← Base64Url.decode d
  if h : bytes.length = 32 then return ⟨bytes, h⟩
  else fail .invalidInput s!"{curve} private key must be 32 bytes"

/-- The private key that a JSON Web Key holds. -/
def ofJwk (jwk : Jwk) : Outcome KeyPair := do
  match ← Algorithm.ofJwk jwk, jwk with
  | .ed25519, .okp k => return ed25519 (← seedOf "Ed25519" k.d)
  | .x25519, .okp k => return x25519 (← seedOf "X25519" k.d)
  | .secp256k1, .ec k =>
    let some d := k.d | fail .invalidInput "secp256k1 JWK has no private key"
    let bytes ← Base64Url.decode d
    let some secret := Es256k.secret? bytes | fail .invalidInput "invalid secp256k1 private key"
    return secp256k1 secret
  | _, _ => fail .unsupportedAlgorithm "unsupported private key"

/-- The signature of a message. -/
def sign (k : KeyPair) (message : Bytes) : Outcome Bytes :=
  match k with
  | ed25519 seed => .ok (Ed25519.sign seed message)
  | secp256k1 secret => .ok (Es256k.sign secret message)
  | x25519 _ => fail .signingError "X25519 keys cannot sign"

end KeyPair

end DidMethods
