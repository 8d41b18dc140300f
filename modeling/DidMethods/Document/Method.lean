import DidMethods.Json.Alternatives
import DidMethods.Key.Multikey

/-!
# Verification methods

A verification method is a public key with an identifier, a type and a controller. The key is a
JSON Web Key or a multikey (`KeyMaterial`), and each can be converted to the other. When both are
written, the JSON Web Key counts if it can be read.
-/

namespace DidMethods

/-- A public key in one of its two forms. -/
inductive KeyMaterial where
  /-- A JSON Web Key. -/
  | jwk (key : Jwk)
  /-- A multikey. -/
  | multibase (key : String)
deriving DecidableEq, Repr

namespace KeyMaterial

/-- The key as a JSON Web Key. -/
def toJwk : KeyMaterial → Outcome Jwk
  | jwk key => .ok key
  | multibase key => do
    let (codec, bytes) ← Multikey.decode key
    Multikey.toJwk codec bytes

/-- The key as a multikey. -/
def toMultibase : KeyMaterial → Outcome String
  | jwk key => do
    let (codec, bytes) ← Multikey.ofJwk key
    Multikey.encode codec bytes
  | multibase key => .ok key

/-- The name of the form. -/
def form : KeyMaterial → String
  | jwk _ => "jwk"
  | multibase _ => "multibase"

/-- The member that holds the key. -/
def member : KeyMaterial → Json.Member
  | jwk key => ("publicKeyJwk", key.toJson)
  | multibase key => ("publicKeyMultibase", .string key)

/-- The value of a name that occurs once. -/
def only? (members : List Json.Member) (name : String) : Option Json :=
  if Json.uniqueNames [name] members then members.lookup name else none

/-- Read the key among the members of its method. -/
def ofMembers? (members : List Json.Member) : Option KeyMaterial :=
  match (only? members "publicKeyJwk").bind Jwk.ofTaggedJson? with
  | some key => some (jwk key)
  | none => ((only? members "publicKeyMultibase").bind Json.string?).map multibase

end KeyMaterial

/-- A context that a method may bring along: a reference, or definitions. -/
abbrev Context := TextOr Json

namespace Context

/-- Read a context: anything that is no text defines terms. -/
def ofJson (v : Json) : Context :=
  match v with
  | .string s => .text s
  | v => .value v.lastWins

/-- The JSON form of a context. -/
def toJson : Context → Json :=
  TextOr.toJson id

end Context

/-- A public key with its identifier, type and controller. -/
structure Method where
  /-- The context of terms that the document does not define. -/
  context : Option Context := none
  /-- The identifier, a DID URL. -/
  id : String
  /-- The type, which names a suite. -/
  type : String
  /-- The DID of the controller. -/
  controller : String
  /-- The key. -/
  key : KeyMaterial
deriving DecidableEq, Repr

namespace Method

/-- The identifier up to its first number sign. -/
def did (m : Method) : String :=
  String.ofList (m.id.toList.takeWhile (· != '#'))

/-- The identifier from its first number sign on, if it has one. -/
def fragment? (m : Method) : Option String :=
  match m.id.toList.dropWhile (· != '#') with
  | _ :: rest => some (String.ofList rest)
  | [] => none

/-- The key as a JSON Web Key. -/
def jwk (m : Method) : Outcome Jwk :=
  m.key.toJwk

/-- The JSON form of a method. -/
def toJson (m : Method) : Json :=
  .compact
    [("@context", m.context.map Context.toJson), ("id", some (.string m.id)),
      ("type", some (.string m.type)), ("controller", some (.string m.controller)),
      (m.key.member.1, some m.key.member.2)]

/-- Read the JSON form. -/
def ofJson? (v : Json) : Option Method := do
  let members ← v.flatRecord? ["@context", "id", "type", "controller"]
  let context ← Json.optional? members "@context" fun v => some (Context.ofJson v)
  let id ← Json.required? members "id" Json.string?
  let type ← Json.required? members "type" Json.string?
  let controller ← Json.required? members "controller" Json.string?
  let key ← KeyMaterial.ofMembers? members
  return { context, id, type, controller, key }

end Method

end DidMethods
