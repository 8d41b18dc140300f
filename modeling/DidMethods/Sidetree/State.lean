import DidMethods.Document.Basic
import DidMethods.Sidetree.Entry

/-!
# States of a document

A state holds the keys and the services of a document (`Sidetree.State`). Together with a DID it
gives the document (`State.toDocument`), and the document gives it back (`State.ofDocument`). A new
state is made of keys and services as a caller writes them (`State.ofInputs`), and has to be a
sound one (`State.check`): identifiers are unique and well formed, no key is private, and every
service can be reached.
-/

namespace DidMethods.Sidetree

/-- The keys and services of a document. -/
structure State where
  /-- The keys. -/
  keys : List KeyEntry := []
  /-- The services. -/
  services : List ServiceEntry := []
deriving DecidableEq, Repr

/-- A key for a new state. -/
structure KeyInput where
  /-- The identifier, of which the part after its last number sign counts; by default the
  thumbprint. -/
  id : Option String := none
  /-- The type of the verification method. -/
  type : Option String := none
  /-- The key. -/
  key : Jwk
  /-- The purposes. -/
  purposes : List Purpose := []
deriving DecidableEq, Repr

/-- The entry that a key becomes. -/
def KeyInput.toEntry (k : KeyInput) : KeyEntry where
  id := match k.id with
    | some id => localPart id
    | none => k.key.toPublic.thumbprint
  type := k.type.getD Suite.jsonWebKey2020
  key := k.key.toPublic
  purposes := Purpose.inOrder k.purposes

namespace State

/-- The state is sound. -/
def check (s : State) : Outcome Unit := do
  KeyEntry.checkAfter [] s.keys
  ServiceEntry.checkAfter [] s.services

/-- The state of some keys and services. -/
def ofInputs (keys : List KeyInput) (services : List Service) : Outcome State := do
  let services ← services.mapM ServiceEntry.ofService
  let state : State := { keys := keys.map KeyInput.toEntry, services := services }
  state.check
  return state

/-! ### Documents -/

/-- The entry of a method of a document, with the purposes that the document gives it. -/
def keyOfMethod (d : Document) (m : Method) : Outcome KeyEntry := do
  let key ← m.jwk
  return { id := localPart m.id, type := m.type, key, purposes := d.purposes m.id }

/-- The state that a document shows. -/
def ofDocument (d : Document) : Outcome State := do
  let keys ← d.methodList.mapM (keyOfMethod d)
  let services ← d.serviceList.mapM ServiceEntry.ofService
  return { keys, services }

/-- A document with a reference to the method of a key, once for each time that the key has some
purpose. -/
def addPurposes (did : String) (d : Document) (e : KeyEntry) : Document :=
  e.purposes.foldl (fun d p => d.addRelation p (.text (e.toMethod did).id)) d

/-- A list, unless it is empty. -/
def unlessEmpty {α : Type} (list : List α) : Option (List α) :=
  if list.isEmpty then none else some list

/-- The document of a DID with this state. -/
def toDocument (did : String) (s : State) : Document :=
  let base : Document :=
    { context := [.text Suite.didContext, .value (.object [("@base", .string did)])], id := did }
  { s.keys.foldl (addPurposes did) base with
    methods := unlessEmpty (s.keys.map (KeyEntry.toMethod did))
    services := unlessEmpty (s.services.map (ServiceEntry.toService did)) }

/-! ### JSON form -/

/-- The JSON form. -/
def toJson (s : State) : Json :=
  .object
    [("publicKeys", .array (s.keys.map KeyEntry.toJson)),
      ("services", .array (s.services.map ServiceEntry.toJson))]

/-- Read the JSON form, with a reader for keys. -/
def ofJsonWith? (key? : Json → Option KeyEntry) (v : Json) : Option State := do
  let members ← v.record? (["publicKeys", "services"].map Json.slotWithDefault)
  let keys ← Json.defaulted? members "publicKeys" [] (Json.listOf? key?)
  let services ← Json.defaulted? members "services" [] (Json.listOf? ServiceEntry.ofJson?)
  return { keys, services : State }

/-- Read the JSON form. -/
def ofJson? : Json → Option State :=
  ofJsonWith? KeyEntry.ofJson?

/-- Read the JSON form within a value that is looked at twice. -/
def ofTaggedJson? : Json → Option State :=
  ofJsonWith? KeyEntry.ofTaggedJson?

/-- What a reader looks at. -/
def shape : Json.Shape :=
  .record [("publicKeys", .list KeyEntry.shape), ("services", .list ServiceEntry.shape)]

end State

end DidMethods.Sidetree
