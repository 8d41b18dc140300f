import DidMethods.Proofs.SelfCertification
import DidMethods.Proofs.StateDocument
import Mathlib.Data.List.Nodup

/-!
# States that come with a DID

A new state is checked before a DID is made of it (`DidMethods.Sidetree.State.check_eq_ok`). A
state that comes with a DID is not. What its patches bring in is what the document shows, and so a
long form can resolve to a document with two methods of one identifier and a private key in it
(`DidMethods.IonMethod.LongForm.resolve_faulty`).

Patches do not do any harm of their own. Whatever is true of each entry that they bring in is true
of each entry of the state they lead to, and since an entry takes the place of the one that had its
identifier before, identifiers are pairwise different unless a whole state is brought in where they
are not (`DidMethods.Sidetree.State.All.applyAll`). So the checks that are left out are the ones of
the patches themselves: where these are sound, the document is
(`DidMethods.IonMethod.LongForm.sound_of_patches`).
-/

namespace DidMethods

theorem Endpoint.IsUsable.ordered {e : Endpoint} (h : e.IsUsable) : e.ordered.IsUsable := by
  cases e with
  | text url => exact h
  | value members =>
    intro hnil
    have hlength := (Json.sortedObject_perm members).length_eq
    rw [hnil, List.length_map] at hlength
    exact h (List.eq_nil_of_length_eq_zero hlength.symm)

namespace Sidetree

/-! ### Lists of entries -/

section Entries

variable {α : Type} {id : α → String} {p : α → Prop} {entries new : List α}

theorem AllDistinct.drop (h : AllDistinct id p entries) (ids : List String) :
    AllDistinct id p (drop id ids entries) where
  each e he := h.each e (List.mem_filter.mp he).1
  nodup := h.nodup.sublist (List.filter_sublist.map id)

/-- The place of the new entry is free. -/
theorem AllDistinct.put (h : AllDistinct id p entries) {e : α} (he : p e) :
    AllDistinct id p (put id entries e) where
  each := List.forall_mem_append.mpr ⟨(h.drop [id e]).each, List.forall_mem_singleton.mpr he⟩
  nodup := by
    rw [Sidetree.put, List.map_append, List.map_singleton]
    -- an entry that is still there has another identifier, or it had been dropped
    refine List.nodup_append.mpr ⟨(h.drop [id e]).nodup, by simp, ?_⟩
    rintro _ ha _ hb rfl
    obtain ⟨f, hf, hid⟩ := List.mem_map.mp ha
    have hdropped := (List.mem_filter.mp hf).2
    rw [hid, List.mem_singleton.mp hb] at hdropped
    simp at hdropped

/-- **Entries that are put take the place of those with their identifiers**: there are no two of
one identifier if there were none before, even if there are some among the new ones. -/
theorem AllDistinct.putAll (h : AllDistinct id p entries) (hnew : ∀ e ∈ new, p e) :
    AllDistinct id p (putAll id entries new) := by
  induction new generalizing entries with
  | nil => exact h
  | cons e new ih =>
    obtain ⟨he, hnew⟩ := List.forall_mem_cons.mp hnew
    exact ih (h.put he) hnew

end Entries

/-- A sound state is sound when the members of its maps are put in order. -/
theorem State.Sound.ordered {s : State} (h : s.Sound) : s.ordered.Sound where
  keys := h.keys
  services := by
    refine ⟨fun e he => ?_, ?_⟩
    · obtain ⟨f, hf, rfl⟩ := List.mem_map.mp he
      have hsound := h.services.each f hf
      exact ⟨hsound.id, hsound.type, hsound.endpoint.ordered⟩
    · -- the identifiers do not change
      have hids : ServiceEntry.id ∘ ServiceEntry.ordered = ServiceEntry.id := rfl
      rw [State.ordered, List.map_map, hids]
      exact h.services.nodup

/-! ### Patches -/

/-- Something is true of each key and of each service that a patch brings in. The identifiers have
to be different only where a whole state is brought in. -/
def Patch.All (p : KeyEntry → Prop) (q : ServiceEntry → Prop) : Patch → Prop
  | .replace state => state.All p q
  | .addKeys keys => ∀ e ∈ keys, p e
  | .removeKeys _ => True
  | .addServices services => ∀ e ∈ services, q e
  | .removeServices _ => True

/-- Where a whole state is brought in, identifiers are pairwise different. -/
def Patch.NoRepeats (patch : Patch) : Prop := patch.All (fun _ => True) fun _ => True

/-- The entries that a patch brings in may stand in a document. -/
def Patch.Sound (patch : Patch) : Prop := patch.All KeyEntry.Sound ServiceEntry.Sound

namespace State

variable {p : KeyEntry → Prop} {q : ServiceEntry → Prop} {s : State}

theorem All.empty : State.All p q {} :=
  ⟨.nil, .nil⟩

/-- **A patch keeps a state as good as its entries are.** -/
theorem All.apply (h : s.All p q) {patch : Patch} (hpatch : patch.All p q) :
    (s.apply patch).All p q := by
  cases patch with
  | replace state => exact hpatch
  | addKeys keys => exact ⟨h.keys.putAll hpatch, h.services⟩
  | removeKeys ids => exact ⟨h.keys.drop ids, h.services⟩
  | addServices services => exact ⟨h.keys, h.services.putAll hpatch⟩
  | removeServices ids => exact ⟨h.keys, h.services.drop ids⟩

/-- **A list of patches keeps a state as good as their entries are.** -/
theorem All.applyAll (h : s.All p q) {patches : List Patch}
    (hpatches : ∀ patch ∈ patches, patch.All p q) : (s.applyAll patches).All p q := by
  induction patches generalizing s with
  | nil => exact h
  | cons patch patches ih =>
    obtain ⟨hpatch, hpatches⟩ := List.forall_mem_cons.mp hpatches
    exact ih (h.apply hpatch) hpatches

/-! ### The document of a sound state -/

theorem fullId_injective (did : String) : Function.Injective fun id : String => s!"{did}#{id}" := by
  intro id id' h
  have hlist := congrArg String.toList h
  simp only [String.toList_append] at hlist
  exact String.toList_inj.mp (List.append_cancel_left hlist)

/-- Methods and services of a document have different identifiers if the entries of its state
have. -/
theorem All.nodup_document (h : s.All p q) (did : String) :
    ((s.toDocument did).methodList.map Method.id).Nodup ∧
      ((s.toDocument did).serviceList.map Service.id).Nodup := by
  have hkeys := h.keys.nodup.map (fullId_injective did)
  have hservices := h.services.nodup.map (fullId_injective did)
  rw [List.map_map] at hkeys hservices
  rw [methodList_toDocument, serviceList_toDocument, List.map_map, List.map_map]
  exact ⟨hkeys, hservices⟩

/-- The methods of a document have the keys of its state. -/
theorem All.jwk_document (h : s.All p q) (did : String) :
    ∀ m ∈ (s.toDocument did).methodList, ∃ e, p e ∧ m.jwk = .ok e.key := by
  intro m hm
  rw [methodList_toDocument] at hm
  obtain ⟨e, he, rfl⟩ := List.mem_map.mp hm
  exact ⟨e, h.keys.each e he, rfl⟩

end State

end Sidetree

/-! ### Long forms -/

namespace IonMethod.LongForm

open Sidetree

/-- **A long form whose patches are sound resolves to a sound document**: its state passes the check
of new states, and no method has a private key. If no patch brings in a whole state with repeated
identifiers, then none are repeated in the document, and the check is passed exactly if each entry
that is left in the end would pass it by itself. -/
theorem sound_of_patches {did : String} {l : LongForm} {s : InitialState}
    (h : (LongForm.resolve did).isOk = true) (hl : LongForm.parse did = .ok l)
    (hs : InitialState.decode l.segment = .ok s)
    (hrepeats : ∀ patch ∈ s.delta.patches, patch.NoRepeats) :
    ∃ document, (LongForm.resolve did).document = some document ∧
      (document.methodList.map Method.id).Nodup ∧ (document.serviceList.map Service.id).Nodup ∧
      (s.state.check = .ok () ↔
        (∀ e ∈ s.state.keys, IsLocalId e.id ∧ e.key.isPrivate = false) ∧
          ∀ e ∈ s.state.services, e.Sound) ∧
      ((∀ patch ∈ s.delta.patches, patch.Sound) →
        s.state.check = .ok () ∧
          ∀ m ∈ document.methodList, ∃ key, m.jwk = .ok key ∧ key.IsPublic) := by
  obtain ⟨_, _, hdoc, hres⟩ := exists_of_resolve h
  obtain ⟨l', s', hl', hs', -, rfl, rfl⟩ := document_eq_ok.mp hdoc
  obtain rfl := Except.ok.inj (hl'.symm.trans hl)
  obtain rfl := Except.ok.inj (hs'.symm.trans hs)
  -- the run starts from the empty state, of which everything is true
  have hdistinct : s'.state.All (fun _ => True) fun _ => True := State.All.empty.applyAll hrepeats
  obtain ⟨hmethods, hservices⟩ := hdistinct.nodup_document l'.uri
  refine ⟨_, by rw [hres]; rfl, hmethods, hservices, ?_, fun hpatches => ?_⟩
  · rw [State.check_eq_ok]
    constructor
    · exact fun hall => ⟨hall.keys.each, hall.services.each⟩
    · rintro ⟨hkeys, hentries⟩
      exact ⟨⟨hkeys, hdistinct.keys.nodup⟩, ⟨hentries, hdistinct.services.nodup⟩⟩
  · have hsound : s'.state.Sound := State.All.empty.applyAll hpatches
    refine ⟨hsound.check, fun m hm => ?_⟩
    obtain ⟨e, he, hjwk⟩ := hsound.jwk_document l'.uri m hm
    exact ⟨e.key, hjwk, he.key⟩

theorem sound_of_patches_sample : ∃ document,
    (LongForm.resolve (longForm none sampleRequest)).document = some document ∧
      (document.methodList.map Method.id).Nodup ∧ (document.serviceList.map Service.id).Nodup ∧
      (InitialState.ofRequest sampleRequest).ordered.state.check = .ok () ∧
      ∀ m ∈ document.methodList, ∃ key, m.jwk = .ok key ∧ key.IsPublic := by
  have hnetwork : ∀ n ∈ (none : Option String), n ≠ "" → IsNetwork n := nofun
  have hsound : sampleState.ordered.Sound := (State.sound_of_ofInputs ofInputs_sample).ordered
  -- the only patch brings in the state that the request was made for
  have hpatches : ∀ patch ∈ (InitialState.ofRequest sampleRequest).ordered.delta.patches,
      patch.Sound := List.forall_mem_singleton.mpr hsound
  have hrepeats : ∀ patch ∈ (InitialState.ofRequest sampleRequest).ordered.delta.patches,
      patch.NoRepeats :=
    List.forall_mem_singleton.mpr (hsound.mono (fun _ _ => trivial) fun _ _ => trivial)
  have hresolves : (LongForm.resolve (longForm none sampleRequest)).isOk = true := by
    rw [LongForm.resolve, document_sample hnetwork]
    rfl
  obtain ⟨document, hdocument, hmethods, hservices, -, hrest⟩ :=
    sound_of_patches hresolves (LongForm.parse_longForm hnetwork sampleRequest) decode_sample
      hrepeats
  obtain ⟨hcheck, hpublic⟩ := hrest hpatches
  exact ⟨document, hdocument, hmethods, hservices, hcheck, hpublic⟩

/-! ### A long form with faults -/

/-- A private key. -/
def privateKey : Jwk :=
  .okp
    { crv := "Ed25519", x := "11qYAYKxCrfVS_7TyWQHOg7hcvPapiMlrwIaaPcHURo",
      d := some "nWGxne_9WmC6hEr0kuwsxERJxWl7MmkZcDusAxyuf2A" }

/-- A state that is not sound in any respect: the identifiers are no identifiers and occur twice,
one of the keys is private, and the endpoints are no URLs. -/
def faultyState : State where
  keys := [⟨"no id", Suite.jsonWebKey2020, privateKey, []⟩,
    ⟨"no id", Suite.jsonWebKey2020, sampleKey, []⟩]
  services := [⟨"no id", "Hub", .text "nowhere"⟩, ⟨"no id", "Hub", .text "nowhere"⟩]

/-- The request for this state. -/
def faultyRequest : CreateRequest :=
  .made sampleKey sampleKey faultyState

theorem sorted_faulty : faultyRequest.delta.toJson.sorted =
    .object [("patches", .array [.object [("action", .string "replace"), ("document", .object
      [("publicKeys", .array [
        .object [("id", .string "no id"), ("publicKeyJwk", .object
          [("crv", .string "Ed25519"), ("d", .string "nWGxne_9WmC6hEr0kuwsxERJxWl7MmkZcDusAxyuf2A"),
            ("kty", .string "OKP"), ("x", .string "11qYAYKxCrfVS_7TyWQHOg7hcvPapiMlrwIaaPcHURo")]),
          ("type", .string "JsonWebKey2020")],
        .object [("id", .string "no id"), ("publicKeyJwk", .object
          [("crv", .string "Ed25519"), ("kty", .string "OKP"),
            ("x", .string "11qYAYKxCrfVS_7TyWQHOg7hcvPapiMlrwIaaPcHURo")]),
          ("type", .string "JsonWebKey2020")]]),
      ("services", .array [
        .object [("id", .string "no id"), ("serviceEndpoint", .string "nowhere"),
          ("type", .string "Hub")],
        .object [("id", .string "no id"), ("serviceEndpoint", .string "nowhere"),
          ("type", .string "Hub")]])])]]),
    ("updateCommitment", .string sampleKey.commitment)] := by
  simp [sampleKey, privateKey, faultyState, faultyRequest, CreateRequest.made,
    Delta.toJson, Patch.toJson, Patch.action, Patch.content, State.toJson, KeyEntry.toJson,
    ServiceEntry.toJson, Suite.jsonWebKey2020, Endpoint.toJson, TextOr.toJson, Jwk.toJson,
    Json.compact, Jwk.Params.members, Json.sortedObject, Json.sortedMembers, Json.sortMembers,
    List.mergeSort, List.MergeSort.Internal.splitInTwo, Utf16.le, Utf16.units, Utf16.unitsOfChar,
    Utf16.listLe]

theorem new_faulty : CreateRequest.new sampleKey sampleKey faultyState = .ok faultyRequest := by
  have hsize : ¬ faultyRequest.delta.size > Delta.maxSize := by
    rw [Delta.size, Json.canonicalBytes, Json.canonical, sorted_faulty, commitment_sampleKey,
      Bytes.ofString_ofList]
    decide +kernel
  exact CreateRequest.new_eq_ok.mpr ⟨if_neg hsize, rfl⟩

/-- **A long form can resolve to a document that is not sound in any respect.** -/
theorem resolve_faulty : ∃ l s document,
    LongForm.parse (longForm none faultyRequest) = .ok l ∧
      InitialState.decode l.segment = .ok s ∧
      (LongForm.resolve (longForm none faultyRequest)).isOk = true ∧
      (LongForm.resolve (longForm none faultyRequest)).document = some document ∧
      s.state.check ≠ .ok () ∧
      ¬ (document.methodList.map Method.id).Nodup ∧ ¬ (document.serviceList.map Service.id).Nodup ∧
      (∃ e ∈ s.state.keys, ¬ IsLocalId e.id) ∧ (∃ e ∈ s.state.services, ¬ e.endpoint.IsUsable) ∧
      ∃ m ∈ document.methodList, ∃ key, m.jwk = .ok key ∧ key.isPrivate = true := by
  have hnetwork : ∀ n ∈ (none : Option String), n ≠ "" → IsNetwork n := nofun
  have hmaps : ∀ e ∈ faultyState.services, InitialState.Readable e.endpoint := by
    intro e he
    obtain rfl : e = ⟨"no id", "Hub", .text "nowhere"⟩ := by simpa [faultyState] using he
    exact ⟨rfl, rfl, by decide⟩
  have hdecode := InitialState.decode_ofRequest new_faulty hmaps
  have hdocument := LongForm.document_longForm hnetwork new_faulty hdecode
  have hstate : (InitialState.ofRequest faultyRequest).ordered.state = faultyState := rfl
  have hid : ¬ IsLocalId "no id" := fun h => absurd (h.digits ' ' (by decide)) (by decide)
  refine ⟨_, _, faultyState.ordered.toDocument (longForm none faultyRequest),
    LongForm.parse_longForm hnetwork faultyRequest, hdecode, ?_, ?_, ?_⟩
  · rw [LongForm.resolve, hdocument]
    rfl
  · rw [LongForm.resolve, hdocument]
    rfl
  · rw [hstate, State.methodList_toDocument, State.serviceList_toDocument]
    refine ⟨fun h => ?_, ?_, ?_, ⟨_, List.mem_cons_self, hid⟩, ⟨_, List.mem_cons_self, ?_⟩,
      ⟨_, List.mem_cons_self, privateKey, rfl, rfl⟩⟩
    · exact hid ((State.check_eq_ok.mp h).keys.each _ List.mem_cons_self).1
    · simp [faultyState, State.ordered, KeyEntry.toMethod]
    · simp [faultyState, State.ordered, ServiceEntry.toService, ServiceEntry.ordered]
    · rintro ⟨u, hu⟩
      cases hu

end IonMethod.LongForm

end DidMethods
