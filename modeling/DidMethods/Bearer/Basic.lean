import DidMethods.Bearer.Portable
import DidMethods.Key.Manager
import DidMethods.Text.Quoted

/-!
# Bearers

A bearer is a DID whose private keys are in the hands of a key manager, so that one can act for its
subject: sign with the key of one of its methods (`Bearer.signer`), hand the DID over together with
the keys that are held (`Bearer.toPortable`), and take a DID in (`Bearer.ofPortable`).
-/

namespace DidMethods

/-- A DID to act for. -/
structure Bearer where
  /-- The DID. -/
  uri : String
  /-- The document. -/
  document : Document
  /-- What is kept with the DID. -/
  metadata : DidMetadata := {}
deriving DecidableEq, Repr

/-- Which key is to sign. -/
structure KeyChoice where
  /-- The key with this URI. -/
  keyUri : Option String := none
  /-- The key of the method with this identifier, which counts first. -/
  methodId : Option String := none
deriving DecidableEq, Repr

/-- A key that signs for a DID. -/
structure Signer where
  /-- The URI of the key. -/
  keyUri : String
  /-- The identifier of its method. -/
  methodId : String
  /-- The algorithm. -/
  algorithm : Algorithm
  /-- The public key. -/
  publicKey : Jwk
deriving DecidableEq, Repr

namespace Bearer

variable {σ : Type} [KeyManager σ]

/-! ### Signing -/

/-- The first of some methods whose key has a URI; a key that cannot be expressed is a failure. -/
def methodOfKey? (uri : String) : List Method → Outcome (Option Method)
  | [] => .ok none
  | m :: rest => do
    let key ← m.jwk
    if key.uri = uri then return some m
    methodOfKey? uri rest

/-- The method whose key is to sign. Unless one is asked for, it is the first one for assertions, or
else the first one. -/
def selectMethod (b : Bearer) (o : KeyChoice) : Outcome Method :=
  match o.methodId, o.keyUri with
  | some id, _ => orFail .keyNotFound s!"no verification method {id}" (b.document.method? id)
  | none, some uri => do
    let m ← methodOfKey? uri b.document.methodList
    orFail .keyNotFound s!"no verification method for key {uri}" m
  | none, none =>
    orFail .keyNotFound s!"{b.uri} has no verification methods"
      ((b.document.selectMethod? .assertionMethod).or b.document.methodList.head?)

/-- The key that signs, which the manager has to hold. -/
def signer (keys : σ) (b : Bearer) (o : KeyChoice) : Outcome Signer := do
  let m ← b.selectMethod o
  let key ← m.jwk
  let _ ← KeyManager.publicKey keys key.uri
  let algorithm ← Algorithm.ofJwk key
  return { keyUri := key.uri, methodId := m.id, algorithm, publicKey := key }

/-! ### Handing over -/

/-- The public keys of a DID: those of its methods, and those that may recover and update it. -/
def publicKeys (b : Bearer) : Outcome (List Jwk) := do
  let keys ← b.document.methodList.mapM Method.jwk
  return keys ++ b.metadata.recoveryKey.toList ++ b.metadata.updateKey.toList

/-- The private keys of those public keys that have one in the manager. -/
def privateKeys (keys : σ) : List Jwk → Outcome (List Jwk)
  | [] => .ok []
  | key :: rest =>
    match KeyManager.exportKey keys key.uri with
    | .ok secret => (privateKeys keys rest).map (secret :: ·)
    | .error f => if f.isCode .keyNotFound then privateKeys keys rest else .error f

/-- The DID with all its private keys that the manager holds. -/
def toPortable (keys : σ) (b : Bearer) : Outcome PortableDid := do
  let secrets ← privateKeys keys (← b.publicKeys)
  return {
    uri := b.uri, document := b.document, metadata := b.metadata, privateKeys := some secrets }

/-! ### Taking in -/

/-- The manager holds the key of one of these methods. -/
def holdsSome (keys : σ) : List Method → Outcome Bool
  | [] => .ok false
  | m :: rest => do
    let key ← m.jwk
    if (KeyManager.publicKey keys key.uri).toBool then return true
    holdsSome keys rest

/-- Take in a DID with its private keys. The manager has to hold the key of one of its methods in
the end. -/
def ofPortable (p : PortableDid) : Action σ Bearer := do
  (p.privateKeys.getD []).forM fun key => discard (KeyManager.importKey key)
  let held ← Action.query fun keys => holdsSome keys p.document.methodList
  if ¬ held then
    throw (.because .keyNotFound s!"key manager holds no key for {p.uri}")
  return { uri := p.uri, document := p.document, metadata := p.metadata }

/-- Take in a DID of one method only. -/
def ofPortableOf (method : String) (p : PortableDid) : Action σ Bearer := do
  if ¬ s!"did:{method}:".toList.isPrefixOf p.uri.toList then
    throw (.because .methodNotSupported s!"not a did:{method}: {p.uri}")
  ofPortable p

end Bearer

namespace Signer

/-- Sign a message. -/
def sign {σ : Type} [KeyManager σ] (keys : σ) (s : Signer) (message : Bytes) : Outcome Bytes :=
  KeyManager.sign keys s.keyUri message

/-- The signer as it is shown to a developer. -/
def toText (s : Signer) : String :=
  "DidSigner \x7b key_uri: " ++ Text.quote s.keyUri ++ ", method_id: " ++ Text.quote s.methodId
    ++ ", algorithm: " ++ s.algorithm.jsonName ++ ", .. \x7d"

end Signer

end DidMethods
