import DidMethods.Bearer.Basic
import DidMethods.KeyMethod.Resolve

/-!
# Creating a key DID

A `did:key` is created from a key that a key manager holds or makes for it.
-/

namespace DidMethods.KeyMethod

variable {σ : Type} [KeyManager σ]

/-- The DID of the key with a URI, or else of a new key. -/
def create (options : KeyOptions) (algorithm : Algorithm) (keyUri : Option String) :
    Action σ Bearer := do
  let keyUri ← match keyUri with
    | some uri => pure uri
    | none => KeyManager.generateKey algorithm
  let key ← Action.query fun keys => KeyManager.publicKey keys keyUri
  let uri ← Action.ofOutcome (didOfKey key)
  let document ← Action.ofOutcome (document options uri)
  return { uri, document }

/-- Take in a `did:key`. -/
def ofPortable (p : PortableDid) : Action σ Bearer :=
  Bearer.ofPortableOf name p

end DidMethods.KeyMethod
