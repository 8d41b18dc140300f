import DidMethods.Did.Basic
import DidMethods.KeyMethod.Options
import DidMethods.Resolution.Result

/-!
# The key method

A `did:key` is its own public key: the identifier is the multikey. So there is nothing to look up,
and the document is derived from the identifier (`KeyMethod.document`). It lists the key and, if
asked to, a second key for key agreement that is the image of an Ed25519 key on the Montgomery
curve. In the other direction, a public key has one DID (`KeyMethod.didOfKey`).
-/

namespace DidMethods.KeyMethod

/-- The name of the method. -/
def name : String := "key"

/-- The DID of a public key. -/
def didOfKey (key : Jwk) : Outcome String := do
  let (codec, bytes) ← Multikey.ofJwk key
  Multikey.validate codec bytes
  return s!"did:{name}:{← Multikey.encode codec bytes}"

/-- The form that a key is expressed in. An X25519 key cannot have the form of Ed25519 keys and
takes the one of its own type, or, that being experimental, the general one. -/
def formatFor (options : KeyOptions) (codec : Codec) : KeyFormat :=
  if options.format = .ed25519Key2020 ∧ codec = Codec.x25519 then
    if options.experimental then .x25519Key2020 else .jsonWebKey2020
  else options.format

/-- Whether a form can express the keys of a codec. -/
def canExpress (format : KeyFormat) (codec : Codec) : Bool :=
  match format.codec? with
  | some only => only == codec
  | none => true

/-- The verification method of a key, which is also given as a multikey. -/
def method (options : KeyOptions) (did multikey : String) (codec : Codec) (key : Bytes) :
    Outcome Method := do
  let format := formatFor options codec
  if ¬ canExpress format codec then
    fail .invalidPublicKeyType s!"{format.name} cannot express a {codec.name} key"
  let material ←
    if format.isJwk then (Multikey.toJwk codec key).map .jwk else .ok (.multibase multikey)
  return {
    id := s!"{did}#{multikey}", type := format.name, controller := did, key := material }

/-- The key for key agreement that belongs to an Ed25519 key. -/
def encryptionKey (key : Bytes) : Outcome Bytes := do
  if key.length ≠ 32 then
    fail .invalidPublicKeyLength "Ed25519 key must be 32 bytes"
  let point ← orFail .invalidPublicKey "Ed25519 key is not a valid curve point"
    (Edwards25519.decompress? key)
  return Bytes.ofNatLittle 32 (Edwards25519.montgomery point)

/-- The purposes of a key: key agreement for a key that cannot sign, all others for one that can. -/
def purposesOf (codec : Codec) : List Purpose :=
  if codec = Codec.x25519 then [.keyAgreement]
  else [.authentication, .assertionMethod, .capabilityInvocation, .capabilityDelegation]

/-- The method of the derived key, if one is to be derived. -/
def derivedMethod? (options : KeyOptions) (did : String) (codec : Codec) (key : Bytes) :
    Outcome (Option Method) := do
  if options.deriveEncryption ∧ codec = Codec.ed25519 then
    let derived ← encryptionKey key
    let multikey ← Multikey.encode Codec.x25519 derived
    return some (← method options did multikey Codec.x25519 derived)
  else return none

/-- The document of a DID with its method and, possibly, the derived one. -/
def assemble (did : String) (codec : Codec) (primary : Method) (derived : Option Method) :
    Document :=
  let methods := primary :: derived.toList
  let d := (purposesOf codec).foldl (fun d p => d.addRelation p (.text primary.id))
    { id := did : Document }
  let d := derived.toList.foldl (fun d m => d.addRelation .keyAgreement (.text m.id)) d
  { d with
    context := (Suite.contextsOf (methods.map Method.type)).map .text
    methods := some methods }

/-- The document of a DID or DID URL. -/
def document (options : KeyOptions) (did : String) : Outcome Document := do
  let parsed ← Did.parse did
  if parsed.method ≠ name then
    fail .methodNotSupported s!"method not supported: {parsed.method}"
  if options.format.isExperimental && !options.experimental then
    fail .invalidPublicKeyType s!"{options.format.name} requires experimental key types"
  let (codec, key) ← Multikey.decode parsed.id
  Multikey.validate codec key
  let primary ← method options parsed.uri parsed.id codec key
  let derived ← derivedMethod? options parsed.uri codec key
  return assemble parsed.uri codec primary derived

/-- Resolve a DID or DID URL. -/
def resolve (options : KeyOptions) (did : String) : Resolution :=
  .ofOutcome ((document options did).map fun d => .ofDocument d {})

end DidMethods.KeyMethod
