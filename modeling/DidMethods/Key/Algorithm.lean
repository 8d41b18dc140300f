import DidMethods.Key.Jwk

/-!
# Key algorithms

The three algorithms that keys are generated and used for. Two of them sign; the third only agrees
on keys. The algorithm of a key is told from its type and curve (`Algorithm.ofJwk`).
-/

namespace DidMethods

/-- What a key is for. -/
inductive Algorithm where
  /-- Ed25519 signatures. -/
  | ed25519
  /-- ECDSA signatures over secp256k1 with SHA-256. -/
  | secp256k1
  /-- Key agreement over Curve25519. -/
  | x25519
deriving DecidableEq, Repr

namespace Algorithm

/-- Every algorithm. -/
def all : List Algorithm := [ed25519, secp256k1, x25519]

/-- The name shown to a reader, which is also the name of the curve in a key. -/
def name : Algorithm → String
  | ed25519 => "Ed25519"
  | secp256k1 => "secp256k1"
  | x25519 => "X25519"

/-- The name in JSON. -/
def jsonName : Algorithm → String
  | ed25519 => "Ed25519"
  | secp256k1 => "Secp256k1"
  | x25519 => "X25519"

/-- The name of the signature algorithm in JOSE; a key that only agrees on keys has none. -/
def jose? : Algorithm → Option String
  | ed25519 => some "EdDSA"
  | secp256k1 => some "ES256K"
  | x25519 => none

/-- Read the name in JSON. -/
def ofJson? : Json → Option Algorithm :=
  Json.case? fun s => all.find? fun a => a.jsonName == s

/-- The algorithm of a name: the one shown, the one in JSON or the one in JOSE. -/
def ofName (s : String) : Outcome Algorithm :=
  match s with
  | "Ed25519" | "EdDSA" => .ok ed25519
  | "secp256k1" | "Secp256k1" | "ES256K" => .ok secp256k1
  | "X25519" => .ok x25519
  | _ => fail .unsupportedAlgorithm s!"unsupported algorithm: {s}"

/-- The algorithm of a key. -/
def ofJwk : Jwk → Outcome Algorithm
  | .okp k =>
    if k.crv = "Ed25519" then .ok ed25519
    else if k.crv = "X25519" then .ok x25519
    else fail .unsupportedAlgorithm s!"unsupported key: OKP {k.crv}"
  | .ec k =>
    if k.crv = "secp256k1" then .ok secp256k1
    else fail .unsupportedAlgorithm s!"unsupported key: EC {k.crv}"
  | k => fail .unsupportedAlgorithm s!"unsupported key: {k.kty} -"

end Algorithm

end DidMethods
