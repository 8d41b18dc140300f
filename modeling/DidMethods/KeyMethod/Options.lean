import DidMethods.Document.Suite
import DidMethods.Fault
import DidMethods.Json.Record
import DidMethods.Key.Multikey

/-!
# Options of the key method

How the document of a `did:key` is derived: in which form the key is expressed, whether a second key
for key agreement is derived, and whether experimental forms may be used.
-/

namespace DidMethods

/-- The form in which a key is expressed: the type of its verification method. -/
inductive KeyFormat where
  /-- A JSON Web Key of any type. -/
  | jsonWebKey2020
  /-- A multikey of type Ed25519. -/
  | ed25519Key2020
  /-- A multikey of any type. -/
  | multikey
  /-- A multikey of type X25519. -/
  | x25519Key2020
  /-- A JSON Web Key of type secp256k1. -/
  | secp256k1Key2019
deriving DecidableEq, Repr

namespace KeyFormat

/-- Every form. -/
def all : List KeyFormat :=
  [jsonWebKey2020, ed25519Key2020, multikey, x25519Key2020, secp256k1Key2019]

/-- The type of the verification method. -/
def name : KeyFormat → String
  | jsonWebKey2020 => Suite.jsonWebKey2020
  | ed25519Key2020 => Suite.ed25519Key2020
  | multikey => Suite.multikey
  | x25519Key2020 => Suite.x25519Key2020
  | secp256k1Key2019 => Suite.secp256k1Key2019

/-- The form has to be enabled. -/
def isExperimental : KeyFormat → Bool
  | x25519Key2020 | secp256k1Key2019 => true
  | jsonWebKey2020 | ed25519Key2020 | multikey => false

/-- The only codec that the form can express, if there is only one. -/
def codec? : KeyFormat → Option Codec
  | ed25519Key2020 => some Codec.ed25519
  | x25519Key2020 => some Codec.x25519
  | secp256k1Key2019 => some Codec.secp256k1
  | jsonWebKey2020 | multikey => none

/-- The key is written as a JSON Web Key. -/
def isJwk : KeyFormat → Bool
  | jsonWebKey2020 | secp256k1Key2019 => true
  | ed25519Key2020 | multikey | x25519Key2020 => false

/-- The form of a name. -/
def ofName? (s : String) : Option KeyFormat :=
  all.find? fun f => f.name == s

/-- The form of a name, or the failure that there is none. -/
def ofName (s : String) : Outcome KeyFormat :=
  orFail .unsupportedPublicKeyType s!"unsupported public key format: {s}" (ofName? s)

/-- Read the JSON form: the name. -/
def ofJson? : Json → Option KeyFormat :=
  Json.case? ofName?

end KeyFormat

/-- How the document of a `did:key` is derived. -/
structure KeyOptions where
  /-- The form of the key. -/
  format : KeyFormat := .jsonWebKey2020
  /-- A key for key agreement is derived from an Ed25519 key. -/
  deriveEncryption : Bool := false
  /-- Experimental forms may be used. -/
  experimental : Bool := false
deriving DecidableEq, Repr

namespace KeyOptions

/-- The JSON form. -/
def toJson (o : KeyOptions) : Json :=
  .object
    [("publicKeyFormat", .string o.format.name),
      ("enableEncryptionKeyDerivation", .bool o.deriveEncryption),
      ("enableExperimentalPublicKeyTypes", .bool o.experimental)]

/-- Read the JSON form. -/
def ofJson? (v : Json) : Option KeyOptions := do
  let members ← v.record? <|
    ["publicKeyFormat", "enableEncryptionKeyDerivation", "enableExperimentalPublicKeyTypes"].map
      Json.slotWithDefault
  let format ← Json.defaulted? members "publicKeyFormat" .jsonWebKey2020 KeyFormat.ofJson?
  let deriveEncryption ←
    Json.defaulted? members "enableEncryptionKeyDerivation" false Json.bool?
  let experimental ←
    Json.defaulted? members "enableExperimentalPublicKeyTypes" false Json.bool?
  return { format, deriveEncryption, experimental }

end KeyOptions

end DidMethods
