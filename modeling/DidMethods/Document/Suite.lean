/-!
# Suites and contexts

The type of a verification method names a suite, and the terms of a suite are defined in a context
of their own. A document lists the context of its core terms and then one context for each suite it
uses (`Suite.contextsOf`).
-/

namespace DidMethods.Suite

/-- The context of the core terms of documents. -/
def didContext : String := "https://www.w3.org/ns/did/v1"

/-- The suite of keys as JSON Web Keys. -/
def jsonWebKey2020 : String := "JsonWebKey2020"

/-- The suite of Ed25519 keys. -/
def ed25519Key2020 : String := "Ed25519VerificationKey2020"

/-- The suite of X25519 keys. -/
def x25519Key2020 : String := "X25519KeyAgreementKey2020"

/-- The suite of multikeys. -/
def multikey : String := "Multikey"

/-- The suite of secp256k1 keys. -/
def secp256k1Key2019 : String := "EcdsaSecp256k1VerificationKey2019"

/-- The registered contexts of the suites. -/
def contexts : List (String × String) :=
  [(jsonWebKey2020, "https://w3id.org/security/suites/jws-2020/v1"),
    (ed25519Key2020, "https://w3id.org/security/suites/ed25519-2020/v1"),
    (x25519Key2020, "https://w3id.org/security/suites/x25519-2020/v1"),
    (multikey, "https://w3id.org/security/multikey/v1"),
    (secp256k1Key2019, "https://w3id.org/security/suites/secp256k1-2019/v1")]

/-- The context of a suite, if one is registered. -/
def context? (suite : String) : Option String :=
  contexts.lookup suite

/-- Append a text unless it is there. -/
def addNew (list : List String) (s : String) : List String :=
  if list.contains s then list else list ++ [s]

/-- The contexts of a document that uses these suites: the core one, then the others as they are
first seen. -/
def contextsOf (suites : List String) : List String :=
  (suites.filterMap context?).foldl addNew [didContext]

end DidMethods.Suite
