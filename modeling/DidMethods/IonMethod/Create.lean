import DidMethods.Bearer.Basic
import DidMethods.Http.Client
import DidMethods.Http.Status
import DidMethods.IonMethod.LongForm

/-!
# Creating and publishing an ion DID

A `did:ion` is created in its long form (`IonMethod.create`), from keys that a key manager holds or
makes for it. To publish it is to hand the request that creates it to a gateway
(`IonMethod.publish`); the request is put together again from the document and from the keys that
are kept with the DID, and is only sent if it is the one for this DID. Nothing but an accepted
request changes what is kept with the DID.
-/

namespace DidMethods.IonMethod

/-- A verification method for a new DID. -/
structure NewMethod where
  /-- The algorithm of a new key. -/
  algorithm : Algorithm := .ed25519
  /-- The URI of a key to use instead of a new one. -/
  keyUri : Option String := none
  /-- The identifier, by default the thumbprint of the key. -/
  id : Option String := none
  /-- The purposes, by default authentication and assertions. -/
  purposes : List Purpose := []
deriving DecidableEq, Repr

/-- How a DID is created. -/
structure NewDid where
  /-- The verification methods, by default one with a new Ed25519 key. -/
  methods : List NewMethod := []
  /-- The services. -/
  services : List Service := []
  /-- The URI of the key that may recover the DID, by default a new one. -/
  recoveryKeyUri : Option String := none
  /-- The URI of the key that may update the DID, by default a new one. -/
  updateKeyUri : Option String := none
deriving DecidableEq, Repr

section Create

variable {σ : Type} [KeyManager σ]

/-- The public key with a URI, or else of a new key. -/
def publicKey (keyUri : Option String) (algorithm : Algorithm) : Action σ Jwk := do
  let keyUri ← match keyUri with
    | some uri => pure uri
    | none => KeyManager.generateKey algorithm
  Action.query fun keys => KeyManager.publicKey keys keyUri

/-- The key for the state of a new DID. -/
def methodKey (m : NewMethod) : Action σ Sidetree.KeyInput := do
  let key ← publicKey m.keyUri m.algorithm
  let purposes :=
    if m.purposes.isEmpty then [.authentication, .assertionMethod] else m.purposes
  return { id := m.id, key, purposes }

/-- What is kept with a DID that has not been published. -/
def unpublished (recovery update : Jwk) (m : DocumentMetadata) : DidMetadata where
  published := some false
  canonicalId := m.canonicalId
  recoveryKey := some recovery
  updateKey := some update

/-- Create a DID. -/
def create (m : IonMethod) (o : NewDid) : Action σ Bearer := do
  let keys ← (if o.methods.isEmpty then [{}] else o.methods).mapM methodKey
  let recovery ← publicKey o.recoveryKeyUri .secp256k1
  let update ← publicKey o.updateKeyUri .secp256k1
  let uri ← Action.ofOutcome (m.longFormDid recovery update keys o.services)
  let (document, metadata) ← Action.ofOutcome (LongForm.document uri)
  return { uri, document, metadata := unpublished recovery update metadata }

/-- Take in a `did:ion`. -/
def ofPortable (p : PortableDid) : Action σ Bearer :=
  Bearer.ofPortableOf name p

end Create

/-! ### Publishing -/

/-- The request that created a DID, put together from what is known of it. -/
def requestOf (m : IonMethod) (b : Bearer) : Outcome Sidetree.CreateRequest := do
  let recovery ← orFail .invalidInput s!"no recovery key for {b.uri}" b.metadata.recoveryKey
  let update ← orFail .invalidInput s!"no update key for {b.uri}" b.metadata.updateKey
  let state ← Sidetree.State.ofDocument b.document
  let r ← Sidetree.CreateRequest.new recovery update state
  if b.metadata.canonicalId ≠ some (shortForm m.network r) then
    fail .invalidInput s!"document does not match {b.uri}"
  return r

/-- Where a gateway takes requests in. -/
def operationsUrl (gateway : String) : String :=
  s!"{gateway}/operations"

/-- The request to a gateway to take a request in. -/
def submission (url : Url) (r : Sidetree.CreateRequest) : Http.Request where
  verb := .post
  url := url
  body := some r.toJson

/-- Hand a request to a gateway; the result is whether it was accepted. -/
def submit (gateway : String) (r : Sidetree.CreateRequest) : Action Http.Client Bool := do
  let failed : Fault := .because .internalError s!"failed to call {operationsUrl gateway}"
  match Url.parse? (operationsUrl gateway) with
  | none => throw failed
  | some url =>
    let reply : Http.Reply ← Http.Client.call (submission url r)
    match reply.answer with
    | .failed => throw failed
    | .answered status _ => return Http.isSuccess status

/-- What becomes of a DID by what came of its submission. -/
def afterSubmission (accepted : Outcome Bool) (b : Bearer) : Bearer :=
  match accepted with
  | .ok true => { b with metadata := { b.metadata with published := some true } }
  | .ok false | .error _ => b

/-- Publish a DID: the DID afterwards, and whether the gateway accepted it. -/
def publish (m : IonMethod) (gateway? : Option String) (b : Bearer) :
    StateM Http.Client (Bearer × Outcome Bool) := do
  match m.requestOf b with
  | .error f => return (b, .error f)
  | .ok r =>
    let accepted ← (submit (m.gatewayFor gateway?) r).run
    return (afterSubmission accepted b, accepted)

/-- Create a DID and publish it. That it cannot be published is no failure: the DID is there, in its
long form. -/
def createPublished {σ : Type} [KeyManager σ] (m : IonMethod) (o : NewDid)
    (gateway? : Option String) : Action (σ × Http.Client) Bearer := fun (keys, client) =>
  match m.create o keys with
  | (.error f, keys) => (.error f, (keys, client))
  | (.ok b, keys) =>
    let ((b, _), client) := m.publish gateway? b client
    (.ok b, (keys, client))

end DidMethods.IonMethod
