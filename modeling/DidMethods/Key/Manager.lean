import DidMethods.Action
import DidMethods.Key.Pair

/-!
# Key managers

A key manager keeps private keys and uses them on behalf of a DID; a key is addressed by a URI, by
default the one made of its thumbprint. `KeyManager` is what is asked of a manager, as functions of
its state. `KeyStore` is the manager that keeps its keys in memory: the keys by their URIs, and the
random seeds that further keys are drawn from.
-/

namespace DidMethods

/-- What a key manager with states `σ` can do. -/
class KeyManager (σ : Type) where
  /-- Make a key and give its URI. -/
  generateKey : Algorithm → Action σ String
  /-- The public key of a URI. -/
  publicKey : σ → String → Outcome Jwk
  /-- Sign a message with the key of a URI. -/
  sign : σ → String → Bytes → Outcome Bytes
  /-- The private key of a URI. -/
  exportKey : σ → String → Outcome Jwk
  /-- Take in a private key and give its URI. -/
  importKey : Jwk → Action σ String

/-- Keys held in memory. -/
structure KeyStore where
  /-- The keys by their URIs. -/
  held : List (String × KeyPair) := []
  /-- The random seeds that keys are drawn from. -/
  random : Nat → Seed := Seed.ofNat
  /-- How many keys have been drawn. -/
  drawn : Nat := 0

namespace KeyStore

/-- The key of a URI. -/
def find (s : KeyStore) (uri : String) : Outcome KeyPair :=
  orFail .keyNotFound s!"no key for {uri}" (s.held.lookup uri)

/-- Hold a key under the URI of its public key. -/
def insert (s : KeyStore) (key : KeyPair) : KeyStore :=
  let uri := key.publicJwk.uri
  { s with held := (uri, key) :: s.held.filter fun e => e.1 ≠ uri }

/-- Draw a key and hold it. -/
def generate (s : KeyStore) (algorithm : Algorithm) : String × KeyStore :=
  let key := KeyPair.draw algorithm (s.random s.drawn)
  (key.publicJwk.uri, { s.insert key with drawn := s.drawn + 1 })

/-- The key that a private JSON Web Key gives. -/
def importable (jwk : Jwk) : Outcome KeyPair :=
  if jwk.isPrivate then KeyPair.ofJwk jwk
  else fail .invalidInput "JWK has no private key material"

/-- The public key of a URI. -/
def publicKey (s : KeyStore) (uri : String) : Outcome Jwk :=
  (s.find uri).map KeyPair.publicJwk

/-- Sign a message with the key of a URI. -/
def sign (s : KeyStore) (uri : String) (message : Bytes) : Outcome Bytes := do
  let key ← s.find uri
  key.sign message

/-- The private key of a URI. -/
def exportKey (s : KeyStore) (uri : String) : Outcome Jwk :=
  (s.find uri).map KeyPair.privateJwk

/-- Take in a private key. -/
def importKey (s : KeyStore) (jwk : Jwk) : Outcome String × KeyStore :=
  match importable jwk with
  | .ok key => (.ok key.publicJwk.uri, s.insert key)
  | .error e => (.error e, s)

instance : KeyManager KeyStore where
  generateKey algorithm := fun s => let (uri, s) := s.generate algorithm; (.ok uri, s)
  publicKey := publicKey
  sign := sign
  exportKey := exportKey
  importKey jwk := fun s => s.importKey jwk

end KeyStore

end DidMethods
