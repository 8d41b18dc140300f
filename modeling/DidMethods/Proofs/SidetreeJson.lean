import DidMethods.Proofs.ContentHash
import DidMethods.Proofs.JwkJson
import DidMethods.Sidetree.InitialState

/-!
# Reading back the operation that a DID carries

What is written of keys, services, patches and deltas is read as the same keys, services, patches
and deltas (`DidMethods.Sidetree.Delta.ofJson?_asWritten`), also from canonical JSON
(`DidMethods.Sidetree.InitialState.ofJson?_toJson`). Either form is an object that shows the members
which were written, and the order in which it shows them is not looked at.

The only thing that the canonical text does not keep is the order of members in the map that an
endpoint may be. A map has no such order, so nothing is lost; but here a map is a list of members,
and what is read is the list in the order of the text (`DidMethods.Endpoint.ordered` and its kin).
Neither the hash of a delta (`DidMethods.Sidetree.Delta.hash_ordered`) nor the effect of patches
(`DidMethods.Sidetree.State.ordered_applyAll`) has to do with this order.
-/

namespace DidMethods

open Json

/-! ### Keys -/

theorem Purpose.ofJson?_asWritten (p : Purpose) : ofJson? p.toJson = some p :=
  ofName?_name p

theorem Purpose.ofTaggedJson?_asWritten (p : Purpose) : ofTaggedJson? p.toJson = some p :=
  ofName?_name p

namespace Sidetree

namespace KeyEntry

/-- An entry is read from any object that shows its members. -/
theorem ofJsonWith?_object {found : List Member} (h : (found.map (·.1)).Nodup) {e : KeyEntry}
    {key? : Json → Option Jwk} {purpose? : Json → Option Purpose} {key : Json}
    (hid : found.lookup "id" = some (.string e.id))
    (htype : found.lookup "type" = some (.string e.type))
    (hkey : found.lookup "publicKeyJwk" = some key) (hreadKey : key? key = some e.key)
    (hpurposes : found.lookup "purposes" =
      if e.purposes.isEmpty then none else some (.array (e.purposes.map Purpose.toJson)))
    (hreadPurpose : ∀ p : Purpose, purpose? p.toJson = some p) :
    ofJsonWith? key? purpose? (object found) = some e := by
  have hread : defaulted? found "purposes" [] (listOf? purpose?) = some e.purposes := by
    cases hempty : e.purposes with
    | nil =>
      -- a key without purposes is written without the member
      rw [hempty] at hpurposes
      exact defaulted?_of_lookup_none hpurposes
    | cons p rest =>
      rw [hempty] at hpurposes
      exact defaulted?_of_lookup hpurposes (listOf?_array_self fun p _ => hreadPurpose p)
  simp only [ofJsonWith?, record?_object h, Option.bind_eq_bind, Option.bind_some,
    requiredString?_of_lookup hid, requiredString?_of_lookup htype,
    required?_of_lookup hkey hreadKey, hread]
  rfl

theorem nodup_names : ["id", "type", "publicKeyJwk", "purposes"].Nodup := by decide

/-- **An entry for a key is read back as it was written**, with any readers that read back its key
and its purposes. -/
theorem ofJsonWith?_asWritten {key? : Json → Option Jwk} {purpose? : Json → Option Purpose}
    (hkey : ∀ k : Jwk, key? k.toJson = some k)
    (hpurpose : ∀ p : Purpose, purpose? p.toJson = some p) (e : KeyEntry) :
    ofJsonWith? key? purpose? e.toJson = some e := by
  refine ofJsonWith?_object (nodup_present ?names) (lookup_present ?names "id")
    (lookup_present ?names "type") (lookup_present ?names "publicKeyJwk") (hkey e.key)
    (lookup_present ?names "purposes") hpurpose
  exact nodup_names

theorem ofTaggedJson?_asWritten (e : KeyEntry) : ofTaggedJson? e.toJson = some e :=
  e.ofJsonWith?_asWritten Jwk.ofTaggedJson?_asWritten Purpose.ofTaggedJson?_asWritten

theorem ofJson?_asWritten (e : KeyEntry) : ofJson? e.toJson = some e :=
  e.ofJsonWith?_asWritten Jwk.ofJson?_asWritten Purpose.ofJson?_asWritten

/-- **An entry for a key is read back from its canonical text.** -/
theorem ofTaggedJson?_toJson (e : KeyEntry) : ofTaggedJson? e.toJson.sorted = some e := by
  rw [toJson, compact_eq, sorted_object]
  refine ofJsonWith?_object (nodup_sortedObject (nodup_present ?names))
    (lookup_sortedPresent ?names "id") (lookup_sortedPresent ?names "type")
    (lookup_sortedPresent ?names "publicKeyJwk") e.key.ofTaggedJson?_toJson
    ((lookup_sortedPresent ?names "purposes").trans ?_) Purpose.ofTaggedJson?_asWritten
  · exact nodup_names
  · -- the names of purposes are texts
    change Option.map sorted (if e.purposes.isEmpty then none else _) = _
    split
    · rfl
    · exact congrArg some (sorted_list _ _)

theorem exists_purposes {e : KeyEntry} {v : Json}
    (h : v ∈ if e.purposes.isEmpty then none
      else some (Json.array (e.purposes.map Purpose.toJson))) :
    v = .array (e.purposes.map Purpose.toJson) :=
  (Option.some.inj (Option.ite_none_left_eq_some.mp h).2).symm

theorem hasNumber_toJson (e : KeyEntry) : e.toJson.hasNumber = false := by
  refine hasNumber_compact ?_
  simp only [List.forall_mem_cons, Option.mem_some_iff, forall_eq']
  refine ⟨rfl, rfl, e.key.hasNumber_toJson, fun v hv => ?_, fun _ h => absurd h List.not_mem_nil⟩
  rw [exists_purposes hv, hasNumber_array, List.forall_mem_map]
  exact fun _ _ => rfl

theorem depth_toJson (e : KeyEntry) : e.toJson.depth ≤ 2 := by
  refine depth_compact ?_
  simp only [List.forall_mem_cons, Option.mem_some_iff, forall_eq']
  refine ⟨Nat.zero_le 1, Nat.zero_le 1, e.key.depth_toJson, fun v hv => ?_,
    fun _ h => absurd h List.not_mem_nil⟩
  rw [exists_purposes hv, depth_array, List.forall_mem_map]
  exact fun _ _ => Nat.le_refl 0

end KeyEntry

end Sidetree

/-! ### Services -/

namespace Endpoint

/-- The endpoint with the members of a map in order. -/
def ordered : Endpoint → Endpoint
  | .text s => .text s
  | .value members => .value (sortedObject members)

theorem toJson_ordered (e : Endpoint) : toJson (ordered e) = (toJson e).sorted := by
  cases e <;> rfl

/-- **An endpoint is read back as it was written.** No name occurs twice in it, so that the last
member of a name is the only one. -/
theorem ofJson?_asWritten {e : Endpoint} (h : (toJson e).distinctNames = true) :
    ofJson? (toJson e) = some e := by
  cases e with
  | text s => rfl
  | value members =>
    have hlast : (object members).lastWins = object members := lastWins_eq_self h
    have hmap : map? (.object members) = some members := by
      rw [map?, hlast]
      rfl
    change (map? (.object members)).map TextOr.value = _
    rw [hmap]
    rfl

/-- **An endpoint is read back from its canonical text**, up to the order of members. -/
theorem ofJson?_toJson {e : Endpoint} (h : (toJson e).distinctNames = true) :
    ofJson? (toJson e).sorted = some (ordered e) := by
  rw [← toJson_ordered]
  refine ofJson?_asWritten ?_
  rw [toJson_ordered]
  exact distinctNames_sorted h

/-- What is read as an endpoint has distinct names. -/
theorem distinctNames_of_ofJson? {v : Json} {e : Endpoint} (h : ofJson? v = some e) :
    (toJson e).distinctNames = true := by
  have hmap : ∀ w : Json, (map? w).map TextOr.value = some e → (toJson e).distinctNames = true := by
    intro w hw
    obtain ⟨members, hmembers, rfl⟩ := Option.map_eq_some_iff.mp hw
    have hlast := distinctNames_lastWins w
    rw [map?] at hmembers
    cases hv : w.lastWins <;> simp only [hv, members?, reduceCtorEq] at hmembers
    rw [hv, Option.some.inj hmembers] at hlast
    exact hlast
  cases v with
  | string s =>
    rw [← Option.some.inj h]
    rfl
  | null | bool _ | number _ | array _ | object _ =>
    simp only [ofJson?, TextOr.ofJson?] at h
    exact hmap _ h

end Endpoint

namespace Sidetree

namespace ServiceEntry

/-- The entry with the members of a map in order. -/
def ordered (e : ServiceEntry) : ServiceEntry :=
  { e with endpoint := e.endpoint.ordered }

theorem sorted_toJson_ordered (e : ServiceEntry) : e.ordered.toJson.sorted = e.toJson.sorted := by
  simp only [toJson, sorted_object, sortedObject, sortedMembers_eq_map, List.map_cons,
    List.map_nil, ordered, Endpoint.toJson_ordered, sorted_sorted]

/-- An entry is read from any object that shows its members. -/
theorem ofJson?_object {found : List Member} (h : (found.map (·.1)).Nodup) {e : ServiceEntry}
    {endpoint : Json} (hid : found.lookup "id" = some (.string e.id))
    (htype : found.lookup "type" = some (.string e.type))
    (hendpoint : found.lookup "serviceEndpoint" = some endpoint)
    (hread : Endpoint.ofJson? endpoint = some e.endpoint) : ofJson? (object found) = some e := by
  simp only [ofJson?, record?_object h, Option.bind_eq_bind, Option.bind_some,
    requiredString?_of_lookup hid, requiredString?_of_lookup htype,
    required?_of_lookup hendpoint hread]
  rfl

theorem nodup_names : ["id", "type", "serviceEndpoint"].Nodup := by decide

/-- **An entry for a service is read back as it was written.** -/
theorem ofJson?_asWritten {e : ServiceEntry} (h : e.endpoint.toJson.distinctNames = true) :
    ofJson? e.toJson = some e := by
  refine ofJson?_object ?names rfl rfl rfl (Endpoint.ofJson?_asWritten h)
  exact nodup_names

/-- **An entry for a service is read back from its canonical text**, up to the order of members. -/
theorem ofJson?_toJson {e : ServiceEntry} (h : e.endpoint.toJson.distinctNames = true) :
    ofJson? e.toJson.sorted = some e.ordered := by
  refine ofJson?_object (nodup_sortedObject ?names) (lookup_sortedObject ?names "id")
    (lookup_sortedObject ?names "type") (lookup_sortedObject ?names "serviceEndpoint")
    (Endpoint.ofJson?_toJson h)
  exact nodup_names

theorem hasNumber_toJson {e : ServiceEntry} (h : e.endpoint.toJson.hasNumber = false) :
    e.toJson.hasNumber = false := by
  rw [toJson, hasNumber_object]
  simp only [List.forall_mem_cons]
  exact ⟨rfl, rfl, h, fun _ h => absurd h List.not_mem_nil⟩

theorem depth_toJson {e : ServiceEntry} {n : Nat} (h : e.endpoint.toJson.depth ≤ n) :
    e.toJson.depth ≤ n + 1 := by
  rw [toJson, depth_object]
  simp only [List.forall_mem_cons]
  exact ⟨Nat.zero_le n, Nat.zero_le n, h, fun _ h => absurd h List.not_mem_nil⟩

/-- The endpoint of what is read as an entry has distinct names. -/
theorem distinctNames_of_ofJson? {v : Json} {e : ServiceEntry} (h : ofJson? v = some e) :
    e.endpoint.toJson.distinctNames = true := by
  simp only [ofJson?, Option.bind_eq_bind, Option.bind_eq_some_iff, Option.pure_def,
    Option.some.injEq] at h
  obtain ⟨members, -, id, -, type, -, endpoint, hendpoint, rfl⟩ := h
  obtain ⟨w, -, hw⟩ := Option.bind_eq_some_iff.mp hendpoint
  exact Endpoint.distinctNames_of_ofJson? hw

end ServiceEntry

/-! ### States -/

namespace State

/-- The state with the members of the maps in it in order. -/
def ordered (s : State) : State :=
  { s with services := s.services.map ServiceEntry.ordered }

theorem sorted_toJson_ordered (s : State) : s.ordered.toJson.sorted = s.toJson.sorted := by
  have hservices : (s.services.map ServiceEntry.ordered).map (fun e => e.toJson.sorted) =
      s.services.map fun e => e.toJson.sorted := by
    rw [List.map_map]
    exact List.map_congr_left fun e _ => e.sorted_toJson_ordered
  simp only [toJson, sorted_object, sortedObject, sortedMembers_eq_map, List.map_cons,
    List.map_nil, ordered, sorted_array, List.map_map, Function.comp_def] at hservices ⊢
  rw [hservices]

/-- A state is read from any object that shows its members. -/
theorem ofJsonWith?_object {found : List Member} (h : (found.map (·.1)).Nodup) {s : State}
    {key? : Json → Option KeyEntry} {keys services : Json}
    (hkeys : found.lookup "publicKeys" = some keys) (hreadKeys : listOf? key? keys = some s.keys)
    (hservices : found.lookup "services" = some services)
    (hreadServices : listOf? ServiceEntry.ofJson? services = some s.services) :
    ofJsonWith? key? (object found) = some s := by
  simp only [ofJsonWith?, record?_object h, Option.bind_eq_bind, Option.bind_some,
    defaulted?_of_lookup hkeys hreadKeys, defaulted?_of_lookup hservices hreadServices]
  rfl

theorem nodup_names : ["publicKeys", "services"].Nodup := by decide

/-- **A state is read back as it was written**, with any reader that reads back its keys. -/
theorem ofJsonWith?_asWritten {key? : Json → Option KeyEntry}
    (hkey : ∀ e : KeyEntry, key? e.toJson = some e) {s : State}
    (h : ∀ e ∈ s.services, e.endpoint.toJson.distinctNames = true) :
    ofJsonWith? key? s.toJson = some s := by
  refine ofJsonWith?_object ?names rfl (listOf?_array_self fun e _ => hkey e) rfl
    (listOf?_array_self fun e he => ServiceEntry.ofJson?_asWritten (h e he))
  exact nodup_names

/-- **A state is read back from its canonical text**, up to the order of members. -/
theorem ofTaggedJson?_toJson {s : State}
    (h : ∀ e ∈ s.services, e.endpoint.toJson.distinctNames = true) :
    ofTaggedJson? s.toJson.sorted = some s.ordered := by
  have hkeys : listOf? KeyEntry.ofTaggedJson? (Json.array (s.keys.map KeyEntry.toJson)).sorted =
      some s.keys := by
    rw [sorted_list]
    exact listOf?_array_self fun e _ => e.ofTaggedJson?_toJson
  have hservices : listOf? ServiceEntry.ofJson?
      (Json.array (s.services.map ServiceEntry.toJson)).sorted =
        some (s.services.map ServiceEntry.ordered) := by
    rw [sorted_list]
    exact listOf?_array fun e he => ServiceEntry.ofJson?_toJson (h e he)
  refine ofJsonWith?_object (nodup_sortedObject ?names)
    (lookup_sortedObject ?names "publicKeys") hkeys (lookup_sortedObject ?names "services")
    hservices
  exact nodup_names

theorem hasNumber_toJson {s : State} (h : ∀ e ∈ s.services, e.endpoint.toJson.hasNumber = false) :
    s.toJson.hasNumber = false := by
  rw [toJson, hasNumber_object]
  simp only [List.forall_mem_cons, hasNumber_array, List.forall_mem_map]
  exact ⟨fun e _ => e.hasNumber_toJson, fun e he => ServiceEntry.hasNumber_toJson (h e he),
    fun _ h => absurd h List.not_mem_nil⟩

theorem depth_toJson {s : State} {n : Nat}
    (h : ∀ e ∈ s.services, e.endpoint.toJson.depth ≤ n + 1) : s.toJson.depth ≤ n + 4 := by
  rw [toJson, depth_object]
  simp only [List.forall_mem_cons, depth_array, List.forall_mem_map]
  exact ⟨fun e _ => Nat.le_trans e.depth_toJson (by omega),
    fun e he => ServiceEntry.depth_toJson (h e he), fun _ h => absurd h List.not_mem_nil⟩

/-- The endpoints of what is read as a state have distinct names. -/
theorem distinctNames_of_ofTaggedJson? {v : Json} {s : State} (h : ofTaggedJson? v = some s) :
    ∀ e ∈ s.services, e.endpoint.toJson.distinctNames = true := by
  simp only [ofTaggedJson?, ofJsonWith?, Option.bind_eq_bind, Option.bind_eq_some_iff,
    Option.pure_def, Option.some.injEq] at h
  obtain ⟨members, -, keys, -, services, hservices, rfl⟩ := h
  intro e he
  obtain rfl | ⟨v, hv⟩ := defaulted?_cases hservices
  · exact absurd he List.not_mem_nil
  · obtain ⟨w, hw⟩ := exists_read_of_mem hv he
    exact ServiceEntry.distinctNames_of_ofJson? hw

end State

/-! ### Patches -/

namespace Patch

/-- The services that a patch brings in. -/
def services : Patch → List ServiceEntry
  | replace state => state.services
  | addServices services => services
  | addKeys _ | removeKeys _ | removeServices _ => []

/-- The patch with the members of the maps in it in order. -/
def ordered : Patch → Patch
  | replace state => replace state.ordered
  | addServices services => addServices (services.map ServiceEntry.ordered)
  | p => p

theorem sorted_toJson_ordered (p : Patch) : p.ordered.toJson.sorted = p.toJson.sorted := by
  -- the member behind the action keeps its name, and its value is the same in order
  have hcontent : p.ordered.content.1 = p.content.1 ∧
      p.ordered.content.2.sorted = p.content.2.sorted := by
    cases p with
    | replace state => exact ⟨rfl, state.sorted_toJson_ordered⟩
    | addServices services =>
      refine ⟨rfl, ?_⟩
      simp only [ordered, content, sorted_array, List.map_map]
      exact congrArg Json.array (List.map_congr_left fun e _ => e.sorted_toJson_ordered)
    | addKeys _ | removeKeys _ | removeServices _ => exact ⟨rfl, rfl⟩
  have haction : p.ordered.action = p.action := by cases p <;> rfl
  simp only [toJson, sorted_object, sortedObject, sortedMembers_eq_map, List.map_cons,
    List.map_nil, haction, hcontent.1, hcontent.2]

/-- What is read of the value behind the action of a patch. -/
def readContent? (p : Patch) (v : Json) : Option Patch :=
  match p with
  | replace _ => (State.ofTaggedJson? v).map replace
  | addKeys _ => (listOf? KeyEntry.ofTaggedJson? v).map addKeys
  | removeKeys _ => (listOf? string? v).map removeKeys
  | addServices _ => (listOf? ServiceEntry.ofJson? v).map addServices
  | removeServices _ => (listOf? string? v).map removeServices

/-- A patch is read from any object that shows its members. -/
theorem ofJson?_object {found : List Member} (h : (found.map (·.1)).Nodup) {p : Patch} {v : Json}
    (haction : found.lookup "action" = some (.string p.action))
    (hcontent : found.lookup p.content.1 = some v) :
    ofJson? (object found) = p.readContent? v := by
  have hget : ∀ {α : Type} (read : Json → Option α), (do
      let members ← (object found).record? [Json.slot p.content.1]
      Json.required? members p.content.1 read) = read v := by
    intro α read
    rw [record?_object h, Option.bind_eq_bind, Option.bind_some, required?, hcontent]
    rfl
  simp only [ofJson?, flatRecord?_object h, Option.bind_eq_bind, Option.bind_some,
    requiredString?_of_lookup haction]
  cases p with
  | replace state => exact congrArg (Option.map replace) (hget _)
  | addKeys keys => exact congrArg (Option.map addKeys) (hget _)
  | removeKeys ids => exact congrArg (Option.map removeKeys) (hget _)
  | addServices services => exact congrArg (Option.map addServices) (hget _)
  | removeServices ids => exact congrArg (Option.map removeServices) (hget _)

theorem nodup_names (p : Patch) :
    ([("action", .string p.action), p.content].map (·.1) : List String).Nodup := by
  cases p <;> simp [content]

theorem lookup_content (p : Patch) :
    [("action", .string p.action), p.content].lookup p.content.1 = some p.content.2 := by
  cases p <;> rfl

/-- **A patch is read back as it was written.** -/
theorem ofJson?_asWritten {p : Patch}
    (h : ∀ e ∈ p.services, e.endpoint.toJson.distinctNames = true) :
    ofJson? p.toJson = some p := by
  refine (ofJson?_object p.nodup_names rfl p.lookup_content).trans ?_
  cases p with
  | replace state =>
    exact congrArg (Option.map replace)
      (State.ofJsonWith?_asWritten KeyEntry.ofTaggedJson?_asWritten h)
  | addKeys keys =>
    exact congrArg (Option.map addKeys)
      (listOf?_array_self fun e _ => e.ofTaggedJson?_asWritten)
  | removeKeys ids => exact congrArg (Option.map removeKeys) (listOf?_strings ids)
  | addServices services =>
    exact congrArg (Option.map addServices)
      (listOf?_array_self fun e he => ServiceEntry.ofJson?_asWritten (h e he))
  | removeServices ids => exact congrArg (Option.map removeServices) (listOf?_strings ids)

/-- **A patch is read back from its canonical text**, up to the order of members. -/
theorem ofJson?_toJson {p : Patch}
    (hdistinct : ∀ e ∈ p.services, e.endpoint.toJson.distinctNames = true) :
    ofJson? p.toJson.sorted = some p.ordered := by
  have hcontent := (lookup_sortedObject p.nodup_names p.content.1).trans
    (congrArg (Option.map sorted) p.lookup_content)
  refine (ofJson?_object (nodup_sortedObject p.nodup_names)
    (lookup_sortedObject p.nodup_names "action") hcontent).trans ?_
  cases p with
  | replace state =>
    exact congrArg (Option.map replace) (State.ofTaggedJson?_toJson hdistinct)
  | addKeys keys =>
    rw [content, sorted_list]
    exact congrArg (Option.map addKeys) (listOf?_array_self fun e _ => e.ofTaggedJson?_toJson)
  | removeKeys ids =>
    rw [content, sorted_strings]
    exact congrArg (Option.map removeKeys) (listOf?_strings ids)
  | addServices services =>
    rw [content, sorted_list]
    exact congrArg (Option.map addServices)
      (listOf?_array fun e he => ServiceEntry.ofJson?_toJson (hdistinct e he))
  | removeServices ids =>
    rw [content, sorted_strings]
    exact congrArg (Option.map removeServices) (listOf?_strings ids)

theorem hasNumber_toJson {p : Patch}
    (h : ∀ e ∈ p.services, e.endpoint.toJson.hasNumber = false) : p.toJson.hasNumber = false := by
  rw [toJson, hasNumber_object]
  simp only [List.forall_mem_cons]
  refine ⟨rfl, ?_, fun _ h => absurd h List.not_mem_nil⟩
  cases p with
  | replace state => exact State.hasNumber_toJson h
  | addKeys keys =>
    rw [content, hasNumber_array, List.forall_mem_map]
    exact fun e _ => e.hasNumber_toJson
  | addServices services =>
    rw [content, hasNumber_array, List.forall_mem_map]
    exact fun e he => ServiceEntry.hasNumber_toJson (h e he)
  | removeKeys ids | removeServices ids =>
    rw [content, strings, hasNumber_array, List.forall_mem_map]
    exact fun _ _ => rfl

theorem depth_toJson {p : Patch} {n : Nat}
    (h : ∀ e ∈ p.services, e.endpoint.toJson.depth ≤ n + 1) : p.toJson.depth ≤ n + 5 := by
  rw [toJson, depth_object]
  simp only [List.forall_mem_cons]
  refine ⟨Nat.zero_le _, ?_, fun _ h => absurd h List.not_mem_nil⟩
  cases p with
  | replace state => exact State.depth_toJson h
  | addKeys keys =>
    rw [content, depth_array, List.forall_mem_map]
    exact fun e _ => Nat.le_trans e.depth_toJson (by omega)
  | addServices services =>
    rw [content, depth_array, List.forall_mem_map]
    exact fun e he => Nat.le_succ_of_le (ServiceEntry.depth_toJson (h e he))
  | removeKeys ids | removeServices ids =>
    rw [content, strings, depth_array, List.forall_mem_map]
    exact fun _ _ => Nat.zero_le _

/-- The endpoints of what is read as a patch have distinct names. -/
theorem distinctNames_of_ofContent? {action : String} {rest : Json} {p : Patch}
    (h : ofContent? action rest = some p) :
    ∀ e ∈ p.services, e.endpoint.toJson.distinctNames = true := by
  have hnone : ∀ e ∈ ([] : List ServiceEntry), e.endpoint.toJson.distinctNames = true :=
    fun _ h => absurd h List.not_mem_nil
  unfold ofContent? at h
  split at h <;> simp only [Option.map_eq_some_iff, reduceCtorEq] at h
  · -- a state takes the place of another one
    obtain ⟨state, hget, rfl⟩ := h
    obtain ⟨members, -, hrequired⟩ := Option.bind_eq_some_iff.mp hget
    obtain ⟨v, -, hstate⟩ := Option.bind_eq_some_iff.mp hrequired
    exact State.distinctNames_of_ofTaggedJson? hstate
  · obtain ⟨keys, -, rfl⟩ := h
    exact hnone
  · obtain ⟨ids, -, rfl⟩ := h
    exact hnone
  · -- services are added
    obtain ⟨services, hget, rfl⟩ := h
    obtain ⟨members, -, hrequired⟩ := Option.bind_eq_some_iff.mp hget
    obtain ⟨v, -, hservices⟩ := Option.bind_eq_some_iff.mp hrequired
    intro e he
    obtain ⟨w, hw⟩ := exists_read_of_mem hservices he
    exact ServiceEntry.distinctNames_of_ofJson? hw
  · obtain ⟨ids, -, rfl⟩ := h
    exact hnone

theorem distinctNames_of_ofJson? {v : Json} {p : Patch} (h : ofJson? v = some p) :
    ∀ e ∈ p.services, e.endpoint.toJson.distinctNames = true := by
  unfold ofJson? at h
  split at h
  · exact distinctNames_of_ofContent? h
  · obtain ⟨members, -, h⟩ := Option.bind_eq_some_iff.mp h
    obtain ⟨action, -, h⟩ := Option.bind_eq_some_iff.mp h
    exact distinctNames_of_ofContent? h
  · cases h

end Patch

namespace State

/-- The entries that are left do not depend on their endpoints. -/
theorem map_ordered_drop (ids : List String) (entries : List ServiceEntry) :
    (drop ServiceEntry.id ids entries).map ServiceEntry.ordered =
      drop ServiceEntry.id ids (entries.map ServiceEntry.ordered) := by
  rw [drop, drop, List.filter_map]
  rfl

theorem map_ordered_putAll (new old : List ServiceEntry) :
    (putAll ServiceEntry.id old new).map ServiceEntry.ordered =
      putAll ServiceEntry.id (old.map ServiceEntry.ordered) (new.map ServiceEntry.ordered) := by
  induction new generalizing old with
  | nil => rfl
  | cons e new ih =>
    rw [putAll, List.foldl_cons, ← putAll, ih, put, List.map_append, map_ordered_drop]
    rfl

/-- Patches do not look into endpoints. -/
theorem ordered_apply (s : State) (p : Patch) :
    (s.apply p).ordered = s.ordered.apply p.ordered := by
  cases p with
  | replace state => rfl
  | addKeys keys => rfl
  | removeKeys ids => rfl
  | addServices services =>
    exact congrArg (State.mk s.keys) (map_ordered_putAll services s.services)
  | removeServices ids => exact congrArg (State.mk s.keys) (map_ordered_drop ids s.services)

theorem ordered_applyAll (patches : List Patch) (s : State) :
    (s.applyAll patches).ordered = s.ordered.applyAll (patches.map Patch.ordered) := by
  induction patches generalizing s with
  | nil => rfl
  | cons p patches ih =>
    change ((s.apply p).applyAll patches).ordered = _
    rw [ih, ordered_apply]
    rfl

end State

/-! ### Deltas -/

namespace Delta

/-- The services that a delta brings in. -/
def services (d : Delta) : List ServiceEntry :=
  d.patches.flatMap Patch.services

/-- The delta with the members of the maps in it in order. -/
def ordered (d : Delta) : Delta :=
  { d with patches := d.patches.map Patch.ordered }

theorem sorted_toJson_ordered (d : Delta) : d.ordered.toJson.sorted = d.toJson.sorted := by
  have hpatches : (d.patches.map Patch.ordered).map (fun p => p.toJson.sorted) =
      d.patches.map fun p => p.toJson.sorted := by
    rw [List.map_map]
    exact List.map_congr_left fun p _ => p.sorted_toJson_ordered
  simp only [toJson, sorted_object, sortedObject, sortedMembers_eq_map, List.map_cons,
    List.map_nil, ordered, sorted_array, List.map_map, Function.comp_def] at hpatches ⊢
  rw [hpatches]

/-- The order of members does not matter for the octets that are hashed. -/
theorem canonicalBytes_ordered (d : Delta) :
    d.ordered.toJson.canonicalBytes = d.toJson.canonicalBytes := by
  rw [← canonicalBytes_sorted, sorted_toJson_ordered, canonicalBytes_sorted]

theorem hash_ordered (d : Delta) : d.ordered.hash = d.hash := by
  rw [hash, hash, ContentHash.ofJson, ContentHash.ofJson, canonicalBytes_ordered]

theorem check_ordered (d : Delta) : d.ordered.check = d.check := by
  rw [check, check, size, size, canonicalBytes_ordered]

/-- A delta is read from any object that shows its members. -/
theorem ofJson?_object {found : List Member} (h : (found.map (·.1)).Nodup) {d : Delta}
    {patches : Json} (hpatches : found.lookup "patches" = some patches)
    (hread : listOf? Patch.ofJson? patches = some d.patches)
    (hcommitment : found.lookup "updateCommitment" = some (.string d.updateCommitment)) :
    ofJson? (object found) = some d := by
  simp only [ofJson?, record?_object h, Option.bind_eq_bind, Option.bind_some,
    required?_of_lookup hpatches hread, requiredString?_of_lookup hcommitment]
  rfl

theorem nodup_names : ["patches", "updateCommitment"].Nodup := by decide

/-- The services of a patch are among those of the delta. -/
theorem forall_services {d : Delta} {P : ServiceEntry → Prop} (h : ∀ e ∈ d.services, P e)
    {p : Patch} (hp : p ∈ d.patches) : ∀ e ∈ p.services, P e :=
  fun e he => h e (List.mem_flatMap.mpr ⟨p, hp, he⟩)

/-- **A delta is read back as it was written.** -/
theorem ofJson?_asWritten {d : Delta}
    (h : ∀ e ∈ d.services, e.endpoint.toJson.distinctNames = true) :
    ofJson? d.toJson = some d := by
  refine ofJson?_object ?names rfl
    (listOf?_array_self fun _ hp => Patch.ofJson?_asWritten (forall_services h hp)) rfl
  exact nodup_names

/-- **A delta is read back from its canonical text**, up to the order of members. -/
theorem ofJson?_toJson {d : Delta}
    (h : ∀ e ∈ d.services, e.endpoint.toJson.distinctNames = true) :
    ofJson? d.toJson.sorted = some d.ordered := by
  have hpatches : listOf? Patch.ofJson? (Json.array (d.patches.map Patch.toJson)).sorted =
      some (d.patches.map Patch.ordered) := by
    rw [sorted_list]
    exact listOf?_array fun _ hp => Patch.ofJson?_toJson (forall_services h hp)
  refine ofJson?_object (nodup_sortedObject ?names) (lookup_sortedObject ?names "patches") hpatches
    (lookup_sortedObject ?names "updateCommitment")
  exact nodup_names

theorem hasNumber_toJson {d : Delta}
    (h : ∀ e ∈ d.services, e.endpoint.toJson.hasNumber = false) : d.toJson.hasNumber = false := by
  rw [toJson, hasNumber_object]
  simp only [List.forall_mem_cons, hasNumber_array, List.forall_mem_map]
  exact ⟨fun _ hp => Patch.hasNumber_toJson (forall_services h hp), rfl,
    fun _ h => absurd h List.not_mem_nil⟩

theorem depth_toJson {d : Delta} {n : Nat}
    (h : ∀ e ∈ d.services, e.endpoint.toJson.depth ≤ n + 1) : d.toJson.depth ≤ n + 7 := by
  rw [toJson, depth_object]
  simp only [List.forall_mem_cons, depth_array, List.forall_mem_map]
  exact ⟨fun _ hp => Patch.depth_toJson (forall_services h hp), Nat.zero_le _,
    fun _ h => absurd h List.not_mem_nil⟩

/-- The endpoints of what is read as a delta have distinct names. -/
theorem distinctNames_of_ofJson? {v : Json} {d : Delta} (h : ofJson? v = some d) :
    ∀ e ∈ d.services, e.endpoint.toJson.distinctNames = true := by
  simp only [ofJson?, Option.bind_eq_bind, Option.bind_eq_some_iff, Option.pure_def,
    Option.some.injEq] at h
  obtain ⟨members, -, patches, hpatches, commitment, -, rfl⟩ := h
  obtain ⟨w, -, hw⟩ := Option.bind_eq_some_iff.mp hpatches
  intro e he
  obtain ⟨p, hp, he⟩ := List.mem_flatMap.mp he
  obtain ⟨v, hv⟩ := exists_read_of_mem hw hp
  exact Patch.distinctNames_of_ofJson? hv e he

end Delta

/-! ### Suffix data -/

namespace SuffixData

/-- Suffix data are read from any object that shows their members. -/
theorem ofJson?_object {found : List Member} (h : (found.map (·.1)).Nodup) {d : SuffixData}
    (hhash : found.lookup "deltaHash" = some (.string d.deltaHash))
    (hcommitment : found.lookup "recoveryCommitment" = some (.string d.recoveryCommitment)) :
    ofJson? (object found) = some d := by
  simp only [ofJson?, record?_object h, Option.bind_eq_bind, Option.bind_some,
    requiredString?_of_lookup hhash, requiredString?_of_lookup hcommitment]
  rfl

theorem nodup_names : ["deltaHash", "recoveryCommitment"].Nodup := by decide

/-- **Suffix data are read back as they were written.** -/
theorem ofJson?_asWritten (d : SuffixData) : ofJson? d.toJson = some d := by
  refine ofJson?_object ?names rfl rfl
  exact nodup_names

/-- **Suffix data are read back from their canonical text.** -/
theorem ofJson?_toJson (d : SuffixData) : ofJson? d.toJson.sorted = some d := by
  refine ofJson?_object (nodup_sortedObject ?names) (lookup_sortedObject ?names "deltaHash")
    (lookup_sortedObject ?names "recoveryCommitment")
  exact nodup_names

theorem hasNumber_toJson (d : SuffixData) : d.toJson.hasNumber = false := rfl

/-- Suffix data with the same octets are the same. -/
theorem eq_of_canonicalBytes {c d : SuffixData}
    (h : c.toJson.canonicalBytes = d.toJson.canonicalBytes) : c = d := by
  have hsorted := sorted_eq_of_canonicalBytes c.hasNumber_toJson d.hasNumber_toJson h
  have hread := c.ofJson?_toJson
  rw [hsorted, ofJson?_toJson] at hread
  exact (Option.some.inj hread).symm

end SuffixData

/-! ### Requests -/

namespace CreateRequest

/-- A request is read from any object that shows its members. -/
theorem ofJson?_object {found : List Member} (h : (found.map (·.1)).Nodup) {r : CreateRequest}
    {suffixData delta : Json} (htype : found.lookup "type" = some (.string "create"))
    (hsuffix : found.lookup "suffixData" = some suffixData)
    (hreadSuffix : SuffixData.ofJson? suffixData = some r.suffixData)
    (hdelta : found.lookup "delta" = some delta)
    (hreadDelta : Delta.ofJson? delta = some r.delta) : ofJson? (object found) = some r := by
  have hread : required? found "type" typeOfJson? = some () := required?_of_lookup htype rfl
  simp only [ofJson?, record?_object h, Option.bind_eq_bind, Option.bind_some, hread,
    required?_of_lookup hsuffix hreadSuffix, required?_of_lookup hdelta hreadDelta]
  rfl

/-- **A request is read back as it was written.** -/
theorem ofJson?_asWritten {r : CreateRequest}
    (h : ∀ e ∈ r.delta.services, e.endpoint.toJson.distinctNames = true) :
    ofJson? r.toJson = some r := by
  refine ofJson?_object ?names rfl rfl r.suffixData.ofJson?_asWritten rfl
    (Delta.ofJson?_asWritten h)
  exact (by decide : ["type", "suffixData", "delta"].Nodup)

end CreateRequest

/-! ### Initial states -/

namespace InitialState

/-- The initial state with the members of the maps in it in order. -/
def ordered (s : InitialState) : InitialState :=
  { s with delta := s.delta.ordered }

theorem sorted_toJson_ordered (s : InitialState) : s.ordered.toJson.sorted = s.toJson.sorted := by
  simp only [toJson, sorted_object, sortedObject, sortedMembers_eq_map, List.map_cons,
    List.map_nil, ordered, Delta.sorted_toJson_ordered]

/-- **An initial state is read back from its canonical text**, up to the order of members. -/
theorem ofJson?_toJson {s : InitialState}
    (h : ∀ e ∈ s.delta.services, e.endpoint.toJson.distinctNames = true) :
    ofJson? s.toJson.sorted = some s.ordered := by
  have names : ([("suffixData", s.suffixData.toJson), ("delta", s.delta.toJson)].map
      (·.1) : List String).Nodup := (by decide : ["suffixData", "delta"].Nodup)
  simp only [ofJson?, toJson, sorted_object, record?_object (nodup_sortedObject names),
    Option.bind_eq_bind, Option.bind_some,
    required?_of_lookup (lookup_sortedObject names "suffixData") s.suffixData.ofJson?_toJson,
    required?_of_lookup (lookup_sortedObject names "delta") (Delta.ofJson?_toJson h)]
  rfl

theorem hasNumber_toJson {s : InitialState}
    (h : ∀ e ∈ s.delta.services, e.endpoint.toJson.hasNumber = false) :
    s.toJson.hasNumber = false := by
  rw [toJson, hasNumber_object]
  simp only [List.forall_mem_cons]
  exact ⟨s.suffixData.hasNumber_toJson, Delta.hasNumber_toJson h,
    fun _ h => absurd h List.not_mem_nil⟩

/-- Seven containers stand around the map of an endpoint. -/
theorem depth_toJson {s : InitialState} {n : Nat}
    (h : ∀ e ∈ s.delta.services, e.endpoint.toJson.depth ≤ n + 1) : s.toJson.depth ≤ n + 8 := by
  have hsuffix : s.suffixData.toJson.depth = 1 := rfl
  rw [toJson, depth_object]
  simp only [List.forall_mem_cons]
  exact ⟨hsuffix ▸ by omega, Delta.depth_toJson h, fun _ h => absurd h List.not_mem_nil⟩

/-- The endpoints of what is read as an initial state have distinct names. -/
theorem distinctNames_of_ofJson? {v : Json} {s : InitialState} (h : ofJson? v = some s) :
    ∀ e ∈ s.delta.services, e.endpoint.toJson.distinctNames = true := by
  simp only [ofJson?, Option.bind_eq_bind, Option.bind_eq_some_iff, Option.pure_def,
    Option.some.injEq] at h
  obtain ⟨members, -, suffixData, -, delta, hdelta, rfl⟩ := h
  obtain ⟨w, -, hw⟩ := Option.bind_eq_some_iff.mp hdelta
  exact Delta.distinctNames_of_ofJson? hw

end InitialState

end Sidetree

end DidMethods
