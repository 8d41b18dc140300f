import DidMethods.Key.Algorithm
import DidMethods.Key.Multikey

/-!
# Checking signatures

A signature is checked against the public key alone (`Jwk.verify`): first the key must be one of a
signature algorithm and well formed, then the signature must be well formed, then it must match.
-/

namespace DidMethods.Jwk

/-- The failure of a signature that does not verify. -/
def mismatch {α : Type} (reason : String) : Outcome α :=
  fail .verificationFailed s!"error verifying signature: signature error{reason}"

/-- Check an Ed25519 signature. -/
def verifyEd25519 (k : Okp) (message signature : Bytes) : Outcome Unit := do
  let bytes ← Base64Url.decode k.x
  if bytes.length ≠ 32 then
    fail .invalidPublicKeyLength "Ed25519 public key must be 32 bytes"
  let some key := Edwards25519.decompress? bytes
    | fail .invalidPublicKey "invalid Ed25519 public key"
  if signature.length ≠ 64 then fail .verificationFailed "malformed EdDSA signature"
  match Ed25519.verify key bytes message signature with
  | .valid => return
  | .scalarOutOfRange => mismatch ": Cannot use scalar with high-bit set"
  | .mismatch => mismatch ": Verification equation was not satisfied"

/-- Check a secp256k1 signature. The two coordinates are read together, as sixty-four octets. -/
def verifySecp256k1 (k : Ec) (message signature : Bytes) : Outcome Unit := do
  let x ← Base64Url.decode k.x
  let y ← Base64Url.decode k.y
  let some key := Secp256k1.decode? (4 :: (x ++ y))
    | fail .invalidPublicKey "invalid secp256k1 public key"
  let some scalars := Es256k.scalars? signature
    | fail .verificationFailed "malformed ES256K signature"
  if Es256k.verify key message scalars then return else mismatch ""

/-- Check that a signature is of the message under the public key. -/
def verify (key : Jwk) (message signature : Bytes) : Outcome Unit := do
  match ← Algorithm.ofJwk key, key with
  | .ed25519, .okp k => verifyEd25519 k message signature
  | .secp256k1, .ec k => verifySecp256k1 k message signature
  | algorithm, _ => fail .unsupportedAlgorithm s!"{algorithm.name} keys cannot verify signatures"

end DidMethods.Jwk
