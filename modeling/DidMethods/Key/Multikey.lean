import DidMethods.Curve.Edwards25519
import DidMethods.Curve.Secp256k1
import DidMethods.Key.Jwk
import DidMethods.Multiformat.Multibase
import DidMethods.Multiformat.Varint

/-!
# Multikeys

A multikey is a public key in one word: the code of its type as a varint, the octets of the key,
both together in base58 multibase. `Multikey.encode` and `Multikey.decode` convert between the word
and a codec with octets, `Multikey.toJwk` and `Multikey.ofJwk` between these and a JSON Web Key;
`Multikey.validate` tells whether the octets are a public key at all.
-/

namespace DidMethods

/-- A type of public key. -/
structure Codec where
  /-- The registered name. -/
  name : String
  /-- The registered code. -/
  code : Nat
  /-- The octets of a key. -/
  keyLength : Nat
deriving DecidableEq, Repr

namespace Codec

/-- Compressed points of secp256k1. -/
def secp256k1 : Codec := ⟨"secp256k1-pub", 0xe7, 33⟩

/-- Public keys of Ed25519. -/
def ed25519 : Codec := ⟨"ed25519-pub", 0xed, 32⟩

/-- Public keys of X25519. -/
def x25519 : Codec := ⟨"x25519-pub", 0xec, 32⟩

/-- The table of known codecs. -/
def table : List Codec := [secp256k1, ed25519, x25519]

/-- The known codec of a code. -/
def ofCode? (code : Nat) : Option Codec :=
  table.find? fun c => c.code == code

/-- The known codec of a name. -/
def ofName? (name : String) : Option Codec :=
  table.find? fun c => c.name == name

end Codec

namespace Multikey

/-- Fail unless a key has the length of its codec. -/
def checkLength (codec : Codec) (key : Bytes) : Outcome Unit :=
  if key.length = codec.keyLength then .ok ()
  else fail .invalidPublicKeyLength
    s!"{codec.name} key must be {codec.keyLength} bytes, got {key.length}"

/-- The multikey of a codec and the octets of a key. -/
def encode (codec : Codec) (key : Bytes) : Outcome String := do
  checkLength codec key
  return Multibase.encode58 (Varint.encode codec.code ++ key)

/-- The codec and the octets that a multikey writes. -/
def decode (s : String) : Outcome (Codec × Bytes) := do
  let some (mark, data) := Multibase.decode? s
    | fail .invalidPublicKey s!"value is not multibase encoded: {s}"
  if mark ≠ Multibase.mark58 then
    fail .invalidPublicKey "multikey must be base58btc encoded"
  let some (code, key) := Varint.decode? data
    | fail .invalidPublicKey "missing multicodec prefix"
  let some codec := Codec.ofCode? code
    | fail .unsupportedPublicKeyType s!"unsupported multicodec: 0x{Hex.ofNat code}"
  checkLength codec key
  return (codec, key)

/-- The octets are a public key of the codec's type. -/
def isValid (codec : Codec) (key : Bytes) : Bool :=
  if codec.code = Codec.ed25519.code then (Edwards25519.decompress? key).isSome
  else if codec.code = Codec.secp256k1.code then (Secp256k1.decode? key).isSome
  else codec.code = Codec.x25519.code && key.length = Codec.x25519.keyLength

/-- Fail unless the octets are a public key of the codec's type. -/
def validate (codec : Codec) (key : Bytes) : Outcome Unit :=
  if isValid codec key then .ok ()
  else fail .invalidPublicKey s!"invalid {codec.name} public key"

/-- The JSON Web Key of a point of secp256k1. -/
def pointJwk (P : Secp256k1.Point) : Jwk :=
  .ec { crv := "secp256k1", x := Base64Url.encode P.xBytes, y := Base64Url.encode P.yBytes }

/-- The octets of a key as a JSON Web Key. -/
def toJwk (codec : Codec) (key : Bytes) : Outcome Jwk :=
  if codec.code = Codec.ed25519.code then
    .ok (.okp { crv := "Ed25519", x := Base64Url.encode key })
  else if codec.code = Codec.x25519.code then
    .ok (.okp { crv := "X25519", x := Base64Url.encode key })
  else if codec.code = Codec.secp256k1.code then
    (orFail .invalidPublicKey "invalid secp256k1 public key" (Secp256k1.decode? key)).map pointJwk
  else fail .unsupportedPublicKeyType s!"unsupported multicodec: {codec.name}"

/-- The codec of a curve whose public keys are octet strings. -/
def okpCodec (crv : String) : Outcome Codec :=
  if crv = "Ed25519" then .ok Codec.ed25519
  else if crv = "X25519" then .ok Codec.x25519
  else fail .unsupportedPublicKeyType s!"unsupported OKP curve: {crv}"

/-- The codec and the octets of a JSON Web Key. Points of secp256k1 are compressed. -/
def ofJwk : Jwk → Outcome (Codec × Bytes)
  | .okp k => do
    let codec ← okpCodec k.crv
    let key ← Base64Url.decode k.x
    if key.length ≠ codec.keyLength then
      fail .invalidPublicKeyLength s!"{codec.name} key must be 32 bytes"
    return (codec, key)
  | .ec k =>
    if k.crv = "secp256k1" then do
      let x ← Base64Url.decode k.x
      let y ← Base64Url.decode k.y
      if x.length ≠ 32 ∨ y.length ≠ 32 then
        fail .invalidPublicKeyLength "secp256k1 coordinates must be 32 bytes"
      let P : Secp256k1.Point := ⟨Bytes.toNat x, Bytes.toNat y⟩
      if ¬ P.onCurve then
        fail .invalidPublicKey "secp256k1 coordinates are not on the curve"
      return (Codec.secp256k1, Secp256k1.compress P)
    else fail .unsupportedPublicKeyType "no multicodec for EC key"
  | k => fail .unsupportedPublicKeyType s!"no multicodec for {k.kty} key"

end Multikey

end DidMethods
