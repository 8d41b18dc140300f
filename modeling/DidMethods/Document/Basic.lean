import DidMethods.Document.Method
import DidMethods.Document.Purpose
import DidMethods.Document.Service
import DidMethods.Document.Suite

/-!
# DID documents

A document lists the verification methods and the services of its subject, and says by relationships
which methods serve which purpose; an entry of a relationship refers to a method or embeds one. The
queries of this module find methods and services by identifier, purpose and key.
-/

namespace DidMethods

/-- An entry of a relationship: the identifier of a method, or a method of its own. -/
abbrev Relation := TextOr Method

/-- The identifier of the method that an entry stands for. -/
def Relation.methodId : Relation → String
  | .text id => id
  | .value m => m.id

/-- A DID document. -/
structure Document where
  /-- The contexts of its terms. -/
  context : List Context := []
  /-- The DID of the subject. -/
  id : String := ""
  /-- Other identifiers of the subject. -/
  alsoKnownAs : Option (List String) := none
  /-- The DIDs that may change the document. -/
  controller : Option (OneOrMany String) := none
  /-- The verification methods. -/
  methods : Option (List Method) := none
  /-- The relationship `authentication`. -/
  authentication : Option (List Relation) := none
  /-- The relationship `assertionMethod`. -/
  assertionMethod : Option (List Relation) := none
  /-- The relationship `keyAgreement`. -/
  keyAgreement : Option (List Relation) := none
  /-- The relationship `capabilityInvocation`. -/
  capabilityInvocation : Option (List Relation) := none
  /-- The relationship `capabilityDelegation`. -/
  capabilityDelegation : Option (List Relation) := none
  /-- The services. -/
  services : Option (List Service) := none
deriving DecidableEq, Repr

namespace Document

/-- The document of a DID that says nothing yet. -/
def new (did : String) : Document where
  context := [.text Suite.didContext]
  id := did

/-! ### Queries -/

/-- The methods that the document lists. -/
def methodList (d : Document) : List Method :=
  d.methods.getD []

/-- The services that the document lists. -/
def serviceList (d : Document) : List Service :=
  d.services.getD []

/-- The entries of a purpose, if the relationship is there. -/
def relationship? (d : Document) : Purpose → Option (List Relation)
  | .authentication => d.authentication
  | .assertionMethod => d.assertionMethod
  | .keyAgreement => d.keyAgreement
  | .capabilityInvocation => d.capabilityInvocation
  | .capabilityDelegation => d.capabilityDelegation

/-- The entries of a purpose. -/
def relationship (d : Document) (p : Purpose) : List Relation :=
  (d.relationship? p).getD []

/-- The document with other entries for a purpose. -/
def withRelationship (d : Document) (p : Purpose) (entries : Option (List Relation)) : Document :=
  match p with
  | .authentication => { d with authentication := entries }
  | .assertionMethod => { d with assertionMethod := entries }
  | .keyAgreement => { d with keyAgreement := entries }
  | .capabilityInvocation => { d with capabilityInvocation := entries }
  | .capabilityDelegation => { d with capabilityDelegation := entries }

/-- The document with one more entry for a purpose. -/
def addRelation (d : Document) (p : Purpose) (entry : Relation) : Document :=
  d.withRelationship p (some (d.relationship p ++ [entry]))

/-- The first service with this identifier, or whose local identifier is the local part of it. -/
def service? (d : Document) (id : String) : Option Service :=
  d.serviceList.find? fun s => s.id == id || s.localId == localPart id

/-- The full form of the identifier of a method: what is no DID URL is a fragment of this document,
its leading number signs not counting. -/
def fullMethodId (d : Document) (id : String) : String :=
  if "did:".toList.isPrefixOf id.toList then id
  else d.id ++ "#" ++ String.ofList (id.toList.dropWhile (· == '#'))

/-- The first listed method with this identifier. -/
def method? (d : Document) (id : String) : Option Method :=
  d.methodList.find? fun m => m.id == d.fullMethodId id

/-- The identifiers of the methods of a purpose. -/
def methodIds (d : Document) (p : Purpose) : List String :=
  (d.relationship p).map Relation.methodId

/-- The method that an entry stands for, unless it refers to one that is not listed. -/
def resolveRelation? (d : Document) : Relation → Option Method
  | .text id => d.method? id
  | .value m => some m

/-- The first method of a purpose; entries that refer to no listed method are passed over. -/
def selectMethod? (d : Document) (p : Purpose) : Option Method :=
  (d.relationship p).findSome? d.resolveRelation?

/-- The purposes of the method with this identifier. -/
def purposes (d : Document) (id : String) : List Purpose :=
  Purpose.all.filter fun p => (d.methodIds p).contains id

/-- The method has a key with this thumbprint. -/
def hasThumbprint (thumbprint : String) (m : Method) : Bool :=
  match m.jwk with
  | .ok key => key.thumbprint == thumbprint
  | .error _ => false

/-- The identifier of the first listed method whose key has the thumbprint of the given one. -/
def methodIdOfKey? (d : Document) (key : Jwk) : Option String :=
  (d.methodList.find? (hasThumbprint key.thumbprint)).map Method.id

/-! ### JSON form -/

/-- The contexts: a lone reference stands for itself, all else is a list. -/
def contextToJson : List Context → Json
  | [.text s] => .string s
  | list => .array (list.map Context.toJson)

/-- Read the contexts: a value that is no list is a list of one. -/
def contextOfJson : Json → List Context
  | .array items => items.map Context.ofJson
  | v => [Context.ofJson v]

/-- The JSON form of an entry of a relationship. -/
def relationToJson : Relation → Json :=
  TextOr.toJson Method.toJson

/-- Read an entry of a relationship. -/
def relationOfJson? : Json → Option Relation :=
  TextOr.ofJson? Method.ofJson?

/-- The JSON form of a relationship, if it is there. -/
def relationsToJson? (entries : Option (List Relation)) : Option Json :=
  entries.map fun list => .array (list.map relationToJson)

/-- The JSON form of a document. -/
def toJson (d : Document) : Json :=
  .compact
    [("@context", some (contextToJson d.context)), ("id", some (.string d.id)),
      ("alsoKnownAs", d.alsoKnownAs.map Json.strings),
      ("controller", d.controller.map fun c => c.toJson .string),
      ("verificationMethod", d.methods.map fun list => .array (list.map Method.toJson)),
      ("authentication", relationsToJson? d.authentication),
      ("assertionMethod", relationsToJson? d.assertionMethod),
      ("keyAgreement", relationsToJson? d.keyAgreement),
      ("capabilityInvocation", relationsToJson? d.capabilityInvocation),
      ("capabilityDelegation", relationsToJson? d.capabilityDelegation),
      ("service", d.services.map fun list => .array (list.map Service.toJson))]

/-- The members of a document. -/
def slots : List Json.Slot :=
  Json.slotWithDefault "@context" ::
    ["id", "alsoKnownAs", "controller", "verificationMethod", "authentication", "assertionMethod",
      "keyAgreement", "capabilityInvocation", "capabilityDelegation", "service"].map Json.slot

/-- Read the JSON form. -/
def ofJson? (v : Json) : Option Document := do
  let members ← v.record? slots
  let relations (name : String) := Json.optional? members name (Json.listOf? relationOfJson?)
  let context ← Json.defaulted? members "@context" [] fun v => some (contextOfJson v)
  let id ← Json.required? members "id" Json.string?
  let alsoKnownAs ← Json.optional? members "alsoKnownAs" (Json.listOf? Json.string?)
  let controller ← Json.optional? members "controller" (OneOrMany.ofJson? Json.string?)
  let methods ← Json.optional? members "verificationMethod" (Json.listOf? Method.ofJson?)
  let authentication ← relations "authentication"
  let assertionMethod ← relations "assertionMethod"
  let keyAgreement ← relations "keyAgreement"
  let capabilityInvocation ← relations "capabilityInvocation"
  let capabilityDelegation ← relations "capabilityDelegation"
  let services ← Json.optional? members "service" (Json.listOf? Service.ofJson?)
  return {
    context, id, alsoKnownAs, controller, methods, authentication, assertionMethod, keyAgreement,
    capabilityInvocation, capabilityDelegation, services : Document }

/-- What a reader of a document looks at. -/
def shape : Json.Shape :=
  .record <| slots.map fun s =>
    (s.name, if s.name == "service" then .list Service.shape else .whole)

end Document

end DidMethods
