import DidMethods.Digest.ContentHash
import DidMethods.Json.Record

/-!
# JSON Web Keys

A key is one of four types (`Jwk`), each with the members that define it, the private members it
may carry, and three descriptive members (`Jwk.Params`). `Jwk.canonical` keeps the defining members
only; its text is what a thumbprint and a commitment are taken of. `Jwk.toPublic` drops the private
members.
-/

namespace DidMethods

/-- The members that describe a key of any type. -/
structure Jwk.Params where
  /-- The identifier of the key. -/
  kid : Option String := none
  /-- The algorithm that the key is for. -/
  alg : Option String := none
  /-- What the key is used for. -/
  use : Option String := none
deriving DecidableEq, Repr

/-- A key on a curve with two coordinates. -/
structure Jwk.Ec where
  /-- The name of the curve. -/
  crv : String
  /-- The first coordinate. -/
  x : String
  /-- The second coordinate. -/
  y : String
  /-- The private scalar. -/
  d : Option String := none
  /-- The descriptive members. -/
  params : Jwk.Params := {}
deriving DecidableEq, Repr

/-- A key on a curve whose public keys are octet strings. -/
structure Jwk.Okp where
  /-- The name of the curve. -/
  crv : String
  /-- The public key. -/
  x : String
  /-- The private key. -/
  d : Option String := none
  /-- The descriptive members. -/
  params : Jwk.Params := {}
deriving DecidableEq, Repr

/-- A symmetric key. -/
structure Jwk.Oct where
  /-- The key. -/
  k : String
  /-- The descriptive members. -/
  params : Jwk.Params := {}
deriving DecidableEq, Repr

/-- An RSA key. -/
structure Jwk.Rsa where
  /-- The modulus. -/
  n : String
  /-- The public exponent. -/
  e : String
  /-- The private exponent. -/
  d : Option String := none
  /-- The first prime factor. -/
  p : Option String := none
  /-- The second prime factor. -/
  q : Option String := none
  /-- The exponent for the first factor. -/
  dp : Option String := none
  /-- The exponent for the second factor. -/
  dq : Option String := none
  /-- The coefficient of the factors. -/
  qi : Option String := none
  /-- The descriptive members. -/
  params : Jwk.Params := {}
deriving DecidableEq, Repr

/-- A JSON Web Key. -/
inductive Jwk where
  /-- Type `EC`. -/
  | ec (key : Jwk.Ec)
  /-- Type `OKP`. -/
  | okp (key : Jwk.Okp)
  /-- Type `oct`. -/
  | oct (key : Jwk.Oct)
  /-- Type `RSA`. -/
  | rsa (key : Jwk.Rsa)
deriving DecidableEq, Repr

namespace Jwk

/-- The name of the type. -/
def kty : Jwk → String
  | ec _ => "EC"
  | okp _ => "OKP"
  | oct _ => "oct"
  | rsa _ => "RSA"

/-- The name of the curve, if there is one. -/
def crv? : Jwk → Option String
  | ec k => some k.crv
  | okp k => some k.crv
  | oct _ => none
  | rsa _ => none

/-- The descriptive members. -/
def params : Jwk → Params
  | ec k => k.params
  | okp k => k.params
  | oct k => k.params
  | rsa k => k.params

/-- The same key under other descriptive members. -/
def withParams (params : Params) : Jwk → Jwk
  | ec k => ec { k with params := params }
  | okp k => okp { k with params := params }
  | oct k => oct { k with params := params }
  | rsa k => rsa { k with params := params }

/-- The key is a private one: it has a private member, or is symmetric. -/
def isPrivate : Jwk → Bool
  | ec k => k.d.isSome
  | okp k => k.d.isSome
  | oct _ => true
  | rsa k => k.d.isSome

/-- The key without its private members. A symmetric key stays what it is. -/
def toPublic : Jwk → Jwk
  | ec k => ec { k with d := none }
  | okp k => okp { k with d := none }
  | oct k => oct k
  | rsa k => rsa { n := k.n, e := k.e, params := k.params }

/-- The key with its defining members only. -/
def canonical : Jwk → Jwk
  | ec k => ec { crv := k.crv, x := k.x, y := k.y }
  | okp k => okp { crv := k.crv, x := k.x }
  | oct k => oct { k := k.k }
  | rsa k => rsa { n := k.n, e := k.e }

/-! ### JSON form -/

/-- The descriptive members that are there. -/
def Params.members (p : Params) : List (String × Option Json) :=
  [("kid", p.kid.map .string), ("alg", p.alg.map .string), ("use", p.use.map .string)]

/-- The JSON form of a key. -/
def toJson : Jwk → Json
  | ec k => .compact <|
    [("kty", some (.string "EC")), ("crv", some (.string k.crv)), ("x", some (.string k.x)),
      ("y", some (.string k.y)), ("d", k.d.map .string)] ++ k.params.members
  | okp k => .compact <|
    [("kty", some (.string "OKP")), ("crv", some (.string k.crv)), ("x", some (.string k.x)),
      ("d", k.d.map .string)] ++ k.params.members
  | oct k => .compact <|
    [("kty", some (.string "oct")), ("k", some (.string k.k))] ++ k.params.members
  | rsa k => .compact <|
    [("kty", some (.string "RSA")), ("n", some (.string k.n)), ("e", some (.string k.e)),
      ("d", k.d.map .string), ("p", k.p.map .string), ("q", k.q.map .string),
      ("dp", k.dp.map .string), ("dq", k.dq.map .string), ("qi", k.qi.map .string)]
      ++ k.params.members

/-- Read the descriptive members. -/
def Params.ofMembers? (members : List Json.Member) : Option Params := do
  let kid ← Json.optional? members "kid" Json.string?
  let alg ← Json.optional? members "alg" Json.string?
  let use ← Json.optional? members "use" Json.string?
  return { kid, alg, use }

/-- The names of the descriptive members. -/
def Params.names : List String := ["kid", "alg", "use"]

/-- Read the members of a key of type `EC`. -/
def ecOfJson? (v : Json) : Option Jwk := do
  let members ← v.flatRecord? (["kty", "crv", "x", "y", "d"] ++ Params.names)
  let crv ← Json.required? members "crv" Json.string?
  let x ← Json.required? members "x" Json.string?
  let y ← Json.required? members "y" Json.string?
  let d ← Json.optional? members "d" Json.string?
  let params ← Params.ofMembers? members
  return ec { crv, x, y, d, params }

/-- Read the members of a key of type `OKP`. -/
def okpOfJson? (v : Json) : Option Jwk := do
  let members ← v.flatRecord? (["kty", "crv", "x", "d"] ++ Params.names)
  let crv ← Json.required? members "crv" Json.string?
  let x ← Json.required? members "x" Json.string?
  let d ← Json.optional? members "d" Json.string?
  let params ← Params.ofMembers? members
  return okp { crv, x, d, params }

/-- Read the members of a key of type `oct`. -/
def octOfJson? (v : Json) : Option Jwk := do
  let members ← v.flatRecord? (["kty", "k"] ++ Params.names)
  let k ← Json.required? members "k" Json.string?
  let params ← Params.ofMembers? members
  return oct { k, params }

/-- Read the members of a key of type `RSA`. -/
def rsaOfJson? (v : Json) : Option Jwk := do
  let members ← v.flatRecord?
    (["kty", "n", "e", "d", "p", "q", "dp", "dq", "qi"] ++ Params.names)
  let n ← Json.required? members "n" Json.string?
  let e ← Json.required? members "e" Json.string?
  let d ← Json.optional? members "d" Json.string?
  let p ← Json.optional? members "p" Json.string?
  let q ← Json.optional? members "q" Json.string?
  let dp ← Json.optional? members "dp" Json.string?
  let dq ← Json.optional? members "dq" Json.string?
  let qi ← Json.optional? members "qi" Json.string?
  let params ← Params.ofMembers? members
  return rsa { n, e, d, p, q, dp, dq, qi, params }

/-- Read the members of a key of some type. -/
def ofMembers? (kty : String) (v : Json) : Option Jwk :=
  match kty with
  | "EC" => ecOfJson? v
  | "OKP" => okpOfJson? v
  | "oct" => octOfJson? v
  | "RSA" => rsaOfJson? v
  | _ => none

/-- Read a key from its JSON form. -/
def ofJson? (v : Json) : Option Jwk := do
  let kty ← (v.get? "kty").bind Json.string?
  ofMembers? kty v

/-- The names of the types. -/
def types : List String := ["EC", "OKP", "oct", "RSA"]

/-- Read a key within a value that is looked at twice, first for its tag: there the type can also be
given by its place in the list of types. -/
def ofTaggedJson? (v : Json) : Option Jwk := do
  let kty ← (v.get? "kty").bind (Json.tag? types)
  ofMembers? kty v

/-! ### Names of a key -/

/-- The defining members as JSON. -/
def definingMembers : Jwk → Json
  | ec k => .object
    [("crv", .string k.crv), ("kty", .string "EC"), ("x", .string k.x), ("y", .string k.y)]
  | okp k => .object [("crv", .string k.crv), ("kty", .string "OKP"), ("x", .string k.x)]
  | oct k => .object [("k", .string k.k), ("kty", .string "oct")]
  | rsa k => .object [("e", .string k.e), ("kty", .string "RSA"), ("n", .string k.n)]

/-- The canonical text of the defining members. -/
def canonicalText (k : Jwk) : String :=
  k.definingMembers.canonical

/-- The thumbprint: the SHA-256 digest of the canonical text, in URL-safe base64. -/
def thumbprint (k : Jwk) : String :=
  Base64Url.encode (sha256 (Bytes.ofString k.canonicalText))

/-- The commitment to a key that is revealed later. -/
def commitment (k : Jwk) : String :=
  ContentHash.commitment k.canonical.toJson

/-- What the URI of a key starts with. -/
def uriScheme : String := "urn:jwk:"

/-- The URI by which a key manager knows a key. -/
def uri (k : Jwk) : String :=
  uriScheme ++ k.thumbprint

/-- Canonical keys are canonical. -/
@[simp] theorem canonical_canonical (k : Jwk) : k.canonical.canonical = k.canonical := by
  cases k <;> rfl

end Jwk

end DidMethods
