import DidMethods.Sidetree.State

/-!
# Patches

A patch changes a state: it replaces the state, or it adds or removes keys or services. An entry is
known by its identifier, and adding one takes the place of the entry that had it before, at the end
of the list (`Sidetree.put`).
-/

namespace DidMethods.Sidetree

/-! ### Lists of entries -/

section Entries

variable {α : Type} (id : α → String)

/-- The entries without the ones of some identifiers. -/
def drop (ids : List String) (entries : List α) : List α :=
  entries.filter fun e => !ids.contains (id e)

/-- The entries with a new one, which replaces any of its identifier. -/
def put (entries : List α) (e : α) : List α :=
  drop id [id e] entries ++ [e]

/-- The entries with some new ones, each of which replaces any of its identifier. -/
def putAll (entries new : List α) : List α :=
  new.foldl (put id) entries

end Entries

/-! ### Changes -/

/-- A change of a state. -/
inductive Patch where
  /-- Another state takes its place. -/
  | replace (state : State)
  /-- Keys are added. -/
  | addKeys (keys : List KeyEntry)
  /-- Keys are removed. -/
  | removeKeys (ids : List String)
  /-- Services are added. -/
  | addServices (services : List ServiceEntry)
  /-- Services are removed. -/
  | removeServices (ids : List String)
deriving DecidableEq, Repr

/-- The state after a patch. -/
def State.apply (s : State) : Patch → State
  | .replace state => state
  | .addKeys keys => { s with keys := putAll KeyEntry.id s.keys keys }
  | .removeKeys ids => { s with keys := drop KeyEntry.id ids s.keys }
  | .addServices services => { s with services := putAll ServiceEntry.id s.services services }
  | .removeServices ids => { s with services := drop ServiceEntry.id ids s.services }

/-- The state after some patches. -/
def State.applyAll (s : State) (patches : List Patch) : State :=
  patches.foldl State.apply s

namespace Patch

/-! ### JSON form -/

/-- The name of the action. -/
def action : Patch → String
  | replace _ => "replace"
  | addKeys _ => "add-public-keys"
  | removeKeys _ => "remove-public-keys"
  | addServices _ => "add-services"
  | removeServices _ => "remove-services"

/-- What the action is about. -/
def content : Patch → Json.Member
  | replace state => ("document", state.toJson)
  | addKeys keys => ("publicKeys", .array (keys.map KeyEntry.toJson))
  | removeKeys ids => ("ids", Json.strings ids)
  | addServices services => ("services", .array (services.map ServiceEntry.toJson))
  | removeServices ids => ("ids", Json.strings ids)

/-- The JSON form. -/
def toJson (p : Patch) : Json :=
  .object [("action", .string p.action), p.content]

/-- Read what an action is about. -/
def ofContent? (action : String) (rest : Json) : Option Patch := do
  let get {α : Type} (name : String) (read : Json → Option α) : Option α := do
    let members ← rest.record? [Json.slot name]
    Json.required? members name read
  match action with
  | "replace" => (get "document" State.ofTaggedJson?).map replace
  | "add-public-keys" =>
    (get "publicKeys" (Json.listOf? KeyEntry.ofTaggedJson?)).map addKeys
  | "remove-public-keys" => (get "ids" (Json.listOf? Json.string?)).map removeKeys
  | "add-services" => (get "services" (Json.listOf? ServiceEntry.ofJson?)).map addServices
  | "remove-services" => (get "ids" (Json.listOf? Json.string?)).map removeServices
  | _ => none

/-- Read the JSON form: an object, or a list whose first item is the action. -/
def ofJson? : Json → Option Patch
  | .array (.string action :: rest) => ofContent? action (.array rest)
  | .object members => do
    let members ← (Json.object members).flatRecord? ["action"]
    let action ← Json.required? members "action" Json.string?
    ofContent? action (.object members)
  | _ => none

end Patch

end DidMethods.Sidetree
