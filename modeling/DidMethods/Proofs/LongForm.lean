import DidMethods.IonMethod.LongForm
import DidMethods.Proofs.DidSyntax
import DidMethods.Proofs.SidetreeJson
import DidMethods.Proofs.StateCheck

/-!
# Long forms resolve

What is created can be resolved. A long form is put together from a network, a suffix and a segment
with the initial state, and taken apart into these again
(`DidMethods.IonMethod.LongForm.parse_longForm`); the segment is read back
(`DidMethods.Sidetree.InitialState.decode_encode`); and the state passes all checks that a
stranger's state has to pass (`DidMethods.Sidetree.InitialState.check_ofRequest`). So the long form
of a request resolves, to the document of its state and the commitments of its keys
(`DidMethods.IonMethod.resolve_longForm`).
-/

namespace DidMethods

open Json

/-! ### Requests -/

namespace Sidetree

/-- The request for a state, before its size is looked at. -/
def CreateRequest.made (recovery update : Jwk) (state : State) : CreateRequest :=
  let delta : Delta := { patches := [.replace state], updateCommitment := update.commitment }
  { suffixData := { deltaHash := delta.hash, recoveryCommitment := recovery.commitment }, delta }

/-- The size of the delta is all that a request can fail for. -/
theorem CreateRequest.new_eq_ok {recovery update : Jwk} {state : State} {r : CreateRequest} :
    CreateRequest.new recovery update state = .ok r ↔
      (made recovery update state).delta.check = .ok () ∧ made recovery update state = r := by
  rw [CreateRequest.new, ofCommitments]
  constructor
  · intro h
    obtain ⟨u, hcheck, h⟩ := Outcome.bind_eq_ok.mp h
    exact ⟨hcheck, Except.ok.inj h⟩
  · rintro ⟨hcheck, rfl⟩
    exact Outcome.bind_eq_ok.mpr ⟨(), hcheck, rfl⟩

/-- The request with the members of the maps in it in order. -/
def CreateRequest.ordered (r : CreateRequest) : CreateRequest :=
  { r with delta := r.delta.ordered }

/-- The services of a request are the ones of its state. -/
theorem CreateRequest.services_made (recovery update : Jwk) (state : State) :
    (made recovery update state).delta.services = state.services :=
  List.append_nil _

namespace InitialState

/-- The octets of a state are read as this state, up to the order of members. -/
theorem parse?_canonicalBytes {s : InitialState}
    (hdistinct : ∀ e ∈ s.delta.services, e.endpoint.toJson.distinctNames = true)
    (hnumber : ∀ e ∈ s.delta.services, e.endpoint.toJson.hasNumber = false)
    (hdepth : s.toJson.depth ≤ maxDepth) :
    parse? s.toJson.canonicalBytes = some s.ordered := by
  rw [parse?, canonicalBytes, ofBytes?_ofString, ofText?_canonical (hasNumber_toJson hnumber) shape hdepth,
    Option.bind_eq_bind, Option.bind_some, ofJson?_toJson hdistinct]

/-- **The last segment of a DID is read back**, up to the order of members. -/
theorem decode_encode {s : InitialState}
    (hdistinct : ∀ e ∈ s.delta.services, e.endpoint.toJson.distinctNames = true)
    (hnumber : ∀ e ∈ s.delta.services, e.endpoint.toJson.hasNumber = false)
    (hdepth : s.toJson.depth ≤ maxDepth) : decode s.encode = .ok s.ordered := by
  rw [decode, encode, Base64Url.decode?_encode]
  change orFail _ _ (parse? _) = _
  rw [parse?_canonicalBytes hdistinct hnumber hdepth]
  rfl

/-- What a state is checked for. -/
theorem check_eq_ok {s : InitialState} {suffix : String} :
    s.check suffix = .ok () ↔
      s.delta.check = .ok () ∧ ContentHash.verify s.delta.toJson s.suffixData.deltaHash = .ok () ∧
        ContentHash.check s.suffixData.recoveryCommitment = .ok () ∧
        ContentHash.check s.delta.updateCommitment = .ok () ∧ s.suffixData.suffix = suffix := by
  rw [check]
  constructor
  · intro h
    obtain ⟨⟨⟩, hsize, h⟩ := Outcome.bind_eq_ok.mp h
    obtain ⟨⟨⟩, hdelta, h⟩ := Outcome.bind_eq_ok.mp h
    obtain ⟨⟨⟩, hrecovery, h⟩ := Outcome.bind_eq_ok.mp h
    obtain ⟨⟨⟩, hupdate, h⟩ := Outcome.bind_eq_ok.mp h
    exact ⟨hsize, hdelta, hrecovery, hupdate,
      Decidable.not_not.mp (Outcome.ite_fail_eq_ok.mp h).1⟩
  · rintro ⟨hsize, hdelta, hrecovery, hupdate, rfl⟩
    rw [hsize, hdelta, hrecovery, hupdate, Outcome.ok_bind, Outcome.ok_bind, Outcome.ok_bind,
      Outcome.ok_bind]
    exact if_neg fun h => h rfl

/-- **The state of a request passes every check**, also after it has been put in order. -/
theorem check_ofRequest {recovery update : Jwk} {state : State} {r : CreateRequest}
    (h : CreateRequest.new recovery update state = .ok r) :
    (ofRequest r).ordered.check r.suffix = .ok () := by
  obtain ⟨hcheck, rfl⟩ := CreateRequest.new_eq_ok.mp h
  have hverify : ContentHash.verify (CreateRequest.made recovery update state).delta.ordered.toJson
      (CreateRequest.made recovery update state).delta.hash = .ok () := by
    rw [← Delta.hash_ordered]
    exact ContentHash.verify_ofJson _
  exact check_eq_ok.mpr ⟨(Delta.check_ordered _).trans hcheck, hverify,
    ContentHash.check_commitment _, ContentHash.check_commitment _, rfl⟩

/-- What is asked of an endpoint for its text to be read back: seven containers stand around it. -/
def Readable (e : Endpoint) : Prop :=
  e.toJson.distinctNames = true ∧ e.toJson.hasNumber = false ∧ e.toJson.depth + 7 ≤ maxDepth

/-- **The segment of a request is read back.** -/
theorem decode_ofRequest {recovery update : Jwk} {state : State} {r : CreateRequest}
    (h : CreateRequest.new recovery update state = .ok r)
    (hmaps : ∀ e ∈ state.services, Readable e.endpoint) :
    decode (ofRequest r).encode = .ok (ofRequest r).ordered := by
  have hentries : ∀ e ∈ (ofRequest r).delta.services, Readable e.endpoint := by
    obtain ⟨-, rfl⟩ := CreateRequest.new_eq_ok.mp h
    rw [ofRequest, CreateRequest.services_made]
    exact hmaps
  -- the eight containers around the members of a map, and what is left of the limit
  have hdepth : (ofRequest r).toJson.depth ≤ 119 + 8 :=
    depth_toJson fun e he => Nat.le_of_add_le_add_right (b := 7) (hentries e he).2.2
  exact decode_encode (fun e he => (hentries e he).1) (fun e he => (hentries e he).2.1) hdepth

/-- The state that a request carries is the one that it was made for. -/
theorem state_ofRequest {recovery update : Jwk} {state : State} {r : CreateRequest}
    (h : CreateRequest.new recovery update state = .ok r) :
    (ofRequest r).ordered.state = state.ordered := by
  obtain ⟨-, rfl⟩ := CreateRequest.new_eq_ok.mp h
  rfl

end InitialState

/-- The services of a new state have the endpoints of the services that it was made of. -/
theorem State.exists_service_of_mem {keys : List KeyInput} {services : List Service}
    {state : State} (h : State.ofInputs keys services = .ok state) {e : ServiceEntry}
    (he : e ∈ state.services) : ∃ s ∈ services, s.endpoint.toList = [e.endpoint] := by
  obtain ⟨entries, hentries, rfl, -⟩ := State.ofInputs_eq_ok.mp h
  obtain ⟨s, hs, hservice⟩ := Outcome.exists_of_mem_mapM hentries he
  refine ⟨s, hs, ?_⟩
  rw [ServiceEntry.ofService] at hservice
  split at hservice
  · next endpoint hlist =>
    rw [hlist, ← Except.ok.inj hservice]
  · cases hservice

end Sidetree

/-! ### Taking a long form apart -/

namespace IonMethod

/-- A name that a network can have: it can stand before a suffix in a bare DID. -/
def IsNetwork (network : String) : Prop :=
  ∃ d : Did, Did.parse? s!"did:{name}:{network}:x" = some d ∧ d.isBare = true ∧
    d.id = network ++ ":x"

/-- The DID of the method with an identifier. -/
def didOf (id : String) : String :=
  s!"did:{name}:{id}"

theorem toList_didOf (id : String) :
    (didOf id).toList = 'd' :: 'i' :: 'd' :: ':' :: (name.toList ++ ':' :: id.toList) := by
  simp only [didOf, name, String.toList_append]
  rfl

theorem isMethodChar_of_mem_name : ∀ c ∈ name.toList, Did.isMethodChar c = true :=
  List.all_eq_true.mp (by decide)

/-- Where a suffix can stand, anything can that is made of the same characters. -/
theorem spanId_of_isNetwork {network : String} (h : IsNetwork network) {u : List Char}
    (hu : ∀ c ∈ u, (Did.isIdChar c || c == ':') = true) :
    Did.spanId (network.toList ++ ':' :: u) = (network.toList ++ ':' :: u, []) := by
  obtain ⟨d, hparse, -, hid⟩ := h
  have htext : s!"did:{name}:{network}:x" = didOf (network ++ ":x") := by
    simp only [didOf, String.append_assoc]
    rfl
  rw [htext] at hparse
  have hspan := Did.spanId_of_parse? (toList_didOf _) isMethodChar_of_mem_name hparse
  have hall := congrArg String.toList (hid.symm.trans hspan)
  rw [String.toList_ofList, String.toList_append] at hall
  exact Did.spanId_colon hu network.toList (Did.spanId_snd_eq_nil hall.symm)

theorem networkSegment_cases (network : Option String) :
    networkSegment network = "" ∨
      ∃ n ∈ network, n ≠ "" ∧ networkSegment network = n ++ ":" := by
  unfold networkSegment
  split
  · exact Or.inl rfl
  · exact Or.inl rfl
  · exact Or.inl rfl
  · next n hne _ => exact Or.inr ⟨n, rfl, fun hn => hne hn, rfl⟩

section Parse

variable {network : Option String} {suffix segment : String}
  (hsuffix : ∀ c ∈ suffix.toList, Base64Url.isDigit c = true)
  (hsegment : ∀ c ∈ segment.toList, Base64Url.isDigit c = true)

include hsuffix hsegment

/-- The identifier of a long form is scanned to its end. -/
theorem spanId_longForm (hnetwork : ∀ n ∈ network, n ≠ "" → IsNetwork n) :
    Did.spanId (networkSegment network ++ suffix ++ ":" ++ segment).toList =
      ((networkSegment network ++ suffix ++ ":" ++ segment).toList, []) := by
  have hplain : ∀ c ∈ (suffix ++ ":" ++ segment).toList,
      (Did.isIdChar c || c == ':') = true := by
    intro c hc
    simp only [String.toList_append, List.mem_append] at hc
    rcases hc with (hc | hc) | hc
    · rw [Did.isIdChar_of_isDigit (hsuffix c hc), Bool.true_or]
    · rw [List.mem_singleton.mp hc]
      rfl
    · rw [Did.isIdChar_of_isDigit (hsegment c hc), Bool.true_or]
  rcases networkSegment_cases network with hnone | ⟨n, hn, hne, hsome⟩
  · rw [hnone, String.empty_append]
    exact Did.spanId_of_forall hplain
  · have hlist : (networkSegment network ++ suffix ++ ":" ++ segment).toList =
        n.toList ++ ':' :: (suffix ++ ":" ++ segment).toList := by
      simp [hsome]
    rw [hlist]
    exact spanId_of_isNetwork (hnetwork n hn hne) hplain

omit hsuffix in
theorem not_mem_of_isDigit : ':' ∉ segment.toList :=
  fun hmem => Did.ne_colon_of_isDigit (hsegment ':' hmem) rfl

/-- **A long form is taken apart into what it was put together from.** -/
theorem LongForm.parse_append (hnetwork : ∀ n ∈ network, n ≠ "" → IsNetwork n)
    (hne : segment ≠ "") :
    LongForm.parse (didOf (networkSegment network ++ suffix ++ ":" ++ segment)) =
      .ok ⟨didOf (networkSegment network ++ suffix ++ ":" ++ segment),
        networkSegment network ++ suffix, segment⟩ := by
  have hcolon : ':' ∉ segment.toList := not_mem_of_isDigit hsegment
  have hid : Did.isId (networkSegment network ++ suffix ++ ":" ++ segment).toList = true := by
    rw [String.toList_append]
    exact Did.isId_append _ (fun h => hne (String.toList_eq_nil_iff.mp h)) hcolon
  obtain ⟨d, hparse, huri, hmethod, hdid, -⟩ := Did.parse?_bare (toList_didOf _)
    isMethodChar_of_mem_name (by decide) (spanId_longForm hsuffix hsegment hnetwork) hid
  have hcut : Text.cutLast ':' (networkSegment network ++ suffix ++ ":" ++ segment).toList =
      some ((networkSegment network ++ suffix).toList, segment.toList) := by
    rw [String.toList_append, String.toList_append, List.append_assoc]
    exact Text.cutLast_append _ hcolon
  rw [String.ofList_toList] at hmethod hdid
  simp only [LongForm.parse, Did.parse, hparse, orFail, Outcome.ok_bind, hmethod, hdid, hcut, huri,
    String.ofList_toList]
  exact if_neg fun h => h rfl

omit hsegment in
/-- The suffix is found behind the network. -/
theorem LongForm.suffix_append (uri : String) :
    LongForm.suffix ⟨uri, networkSegment network ++ suffix, segment⟩ = suffix := by
  have hcolon : ':' ∉ suffix.toList := not_mem_of_isDigit hsuffix
  have hlast : Text.afterLast ':' (networkSegment network ++ suffix).toList = suffix.toList := by
    rcases networkSegment_cases network with hnone | ⟨n, -, -, hsome⟩
    · rw [hnone, String.empty_append]
      exact Text.afterLast_of_not_mem hcolon
    · rw [hsome, String.toList_append, String.toList_append, List.append_assoc]
      exact Text.afterLast_append _ hcolon
  rw [LongForm.suffix, hlast, String.ofList_toList]

end Parse

/-! ### Resolving -/

/-- What it takes for a long form to resolve. -/
theorem LongForm.document_eq_ok {did : String} {document : Document} {m : DocumentMetadata} :
    LongForm.document did = .ok (document, m) ↔
      ∃ l s, LongForm.parse did = .ok l ∧ Sidetree.InitialState.decode l.segment = .ok s ∧
        s.check l.suffix = .ok () ∧ document = s.state.toDocument l.uri ∧
        m = unanchoredMetadata l.short s := by
  rw [LongForm.document]
  constructor
  · intro h
    obtain ⟨l, hl, h⟩ := Outcome.bind_eq_ok.mp h
    obtain ⟨s, hs, h⟩ := Outcome.bind_eq_ok.mp h
    obtain ⟨⟨⟩, hcheck, h⟩ := Outcome.bind_eq_ok.mp h
    obtain ⟨rfl, rfl⟩ := Prod.mk.inj (Except.ok.inj h)
    exact ⟨l, s, hl, hs, hcheck, rfl, rfl⟩
  · rintro ⟨l, s, hl, hs, hcheck, rfl, rfl⟩
    rw [hl, Outcome.ok_bind, hs, Outcome.ok_bind, hcheck]
    rfl

theorem longForm_eq (network : Option String) (r : Sidetree.CreateRequest) :
    longForm network r = didOf (networkSegment network ++ r.suffix ++ ":" ++
      (Sidetree.InitialState.ofRequest r).encode) := by
  simp only [longForm, shortForm, didOf, toString, String.append_assoc]

theorem shortForm_eq (network : Option String) (r : Sidetree.CreateRequest) :
    shortForm network r = didOf (networkSegment network ++ r.suffix) := by
  simp only [shortForm, didOf, toString, String.append_assoc]

theorem encode_ne_empty (s : Sidetree.InitialState) : s.encode ≠ "" := by
  intro h
  have hempty : Base64Url.encode [] = "" := by
    simp [Base64Url.encode, BitGroups.encode]
  have hbytes : Bytes.ofString s.toJson.canonical = Bytes.ofString "" :=
    Base64Url.encode_injective (h.trans hempty.symm)
  have hlist := congrArg String.toList (Bytes.ofString_injective hbytes)
  rw [canonical, String.toList_ofList] at hlist
  exact write_object_ne_nil ecma _ hlist

/-- **The long form of a request carries its initial state.** -/
theorem LongForm.parse_longForm {network : Option String}
    (hnetwork : ∀ n ∈ network, n ≠ "" → IsNetwork n) (r : Sidetree.CreateRequest) :
    LongForm.parse (longForm network r) =
      .ok ⟨longForm network r, networkSegment network ++ r.suffix,
        (Sidetree.InitialState.ofRequest r).encode⟩ := by
  rw [longForm_eq]
  exact LongForm.parse_append (fun c => Base64Url.isDigit_of_mem_encode)
    (fun c => Base64Url.isDigit_of_mem_encode) hnetwork (encode_ne_empty _)

/-- The document of a long form whose segment is read back. -/
theorem LongForm.document_longForm {network : Option String}
    (hnetwork : ∀ n ∈ network, n ≠ "" → IsNetwork n) {recovery update : Jwk}
    {state : Sidetree.State} {r : Sidetree.CreateRequest}
    (hr : Sidetree.CreateRequest.new recovery update state = .ok r)
    (hdecode : Sidetree.InitialState.decode (Sidetree.InitialState.ofRequest r).encode =
      .ok (Sidetree.InitialState.ofRequest r).ordered) :
    LongForm.document (longForm network r) =
      .ok (state.ordered.toDocument (longForm network r),
        unanchoredMetadata (shortForm network r) (Sidetree.InitialState.ofRequest r)) := by
  have hshort : s!"did:{name}:{networkSegment network ++ r.suffix}" = shortForm network r :=
    (shortForm_eq network r).symm
  have hsuffix : ∀ c ∈ r.suffix.toList, Base64Url.isDigit c = true :=
    fun c => Base64Url.isDigit_of_mem_encode
  rw [LongForm.document, LongForm.parse_longForm hnetwork, Outcome.ok_bind, hdecode,
    Outcome.ok_bind, LongForm.suffix_append hsuffix, Sidetree.InitialState.check_ofRequest hr,
    Outcome.ok_bind, Sidetree.InitialState.state_ofRequest hr, LongForm.short, hshort]
  rfl

/-! ### A request and its long form -/

/-- A request is made for the state of keys and services, once the services have been checked. -/
theorem request_eq_ok {recovery update : Jwk} {keys : List Sidetree.KeyInput}
    {services : List Service} {r : Sidetree.CreateRequest} :
    request recovery update keys services = .ok r ↔ Service.checkAll services = .ok () ∧
      ∃ state, Sidetree.State.ofInputs keys services = .ok state ∧
        Sidetree.CreateRequest.new recovery update state = .ok r := by
  constructor
  · intro h
    obtain ⟨⟨⟩, hall, h⟩ := Outcome.bind_eq_ok.mp h
    exact ⟨hall, Outcome.bind_eq_ok.mp h⟩
  · rintro ⟨hall, state, hstate, hnew⟩
    rw [request, hall, Outcome.ok_bind, hstate, Outcome.ok_bind, hnew]

/-- A key, as a caller writes it. -/
def sampleKey : Jwk :=
  .okp { crv := "Ed25519", x := "11qYAYKxCrfVS_7TyWQHOg7hcvPapiMlrwIaaPcHURo" }

/-- Keys for a state. -/
def sampleKeys : List Sidetree.KeyInput :=
  [{ id := some "key-1", key := sampleKey, purposes := [.authentication] }]

/-- Services for a state. -/
def sampleServices : List Service :=
  [⟨"hub", "Hub", .one (.value [("b", .string "https://hub.example"), ("a", .array [.null])])⟩]

/-- The state of these keys and services. -/
def sampleState : Sidetree.State where
  keys := [⟨"key-1", Suite.jsonWebKey2020, sampleKey, [.authentication]⟩]
  services := [
    ⟨"hub", "Hub", .value [("b", .string "https://hub.example"), ("a", .array [.null])]⟩]

/-- The request for this state. -/
def sampleRequest : Sidetree.CreateRequest :=
  .made sampleKey sampleKey sampleState

theorem isNetwork_test : IsNetwork "test" := ⟨_, rfl, rfl, rfl⟩

theorem ofInputs_sample : Sidetree.State.ofInputs sampleKeys sampleServices = .ok sampleState :=
  rfl

theorem maps_sample : ∀ s ∈ sampleServices, ∀ e ∈ s.endpoint.toList,
    e.toJson.distinctNames = true ∧ e.toJson.hasNumber = false ∧ e.toJson.depth + 7 ≤ maxDepth := by
  decide +kernel

theorem commitment_sampleKey :
    sampleKey.commitment = "EiDkZAbuLhGapLZbgmisHzwOaVDEFdDPhRMRCxqUCVzXFw" := by
  have hsorted : sampleKey.canonical.toJson.sorted =
      .object [("crv", .string "Ed25519"), ("kty", .string "OKP"),
        ("x", .string "11qYAYKxCrfVS_7TyWQHOg7hcvPapiMlrwIaaPcHURo")] := by
    simp [sampleKey, Jwk.canonical, Jwk.toJson, compact, Jwk.Params.members, sortedObject,
      sortedMembers, sortMembers, List.mergeSort, List.MergeSort.Internal.splitInTwo, Utf16.le,
      Utf16.units, Utf16.unitsOfChar, Utf16.listLe]
  rw [Jwk.commitment, ContentHash.commitment, canonicalBytes, canonical, hsorted,
    Bytes.ofString_ofList]
  decide +kernel

theorem sorted_sample : sampleRequest.delta.toJson.sorted =
    .object [("patches", .array [.object [("action", .string "replace"), ("document", .object
      [("publicKeys", .array [.object [("id", .string "key-1"), ("publicKeyJwk", .object
        [("crv", .string "Ed25519"), ("kty", .string "OKP"),
          ("x", .string "11qYAYKxCrfVS_7TyWQHOg7hcvPapiMlrwIaaPcHURo")]),
        ("purposes", .array [.string "authentication"]), ("type", .string "JsonWebKey2020")]]),
      ("services", .array [.object [("id", .string "hub"), ("serviceEndpoint", .object
        [("a", .array [.null]), ("b", .string "https://hub.example")]),
          ("type", .string "Hub")]])])]]),
    ("updateCommitment", .string sampleKey.commitment)] := by
  simp [sampleKey, sampleState, sampleRequest, Sidetree.CreateRequest.made,
    Sidetree.Delta.toJson, Sidetree.Patch.toJson, Sidetree.Patch.action, Sidetree.Patch.content,
    Sidetree.State.toJson, Sidetree.KeyEntry.toJson, Sidetree.ServiceEntry.toJson, Purpose.toJson,
    Purpose.name, Suite.jsonWebKey2020, Endpoint.toJson, TextOr.toJson, Jwk.toJson, compact,
    Jwk.Params.members, sortedObject, sortedMembers, sortMembers, List.mergeSort,
    List.MergeSort.Internal.splitInTwo, Utf16.le, Utf16.units, Utf16.unitsOfChar, Utf16.listLe]

theorem new_sample :
    Sidetree.CreateRequest.new sampleKey sampleKey sampleState = .ok sampleRequest := by
  have hsize : ¬ sampleRequest.delta.size > Sidetree.Delta.maxSize := by
    rw [Sidetree.Delta.size, canonicalBytes, canonical, sorted_sample, commitment_sampleKey,
      Bytes.ofString_ofList]
    decide +kernel
  exact Sidetree.CreateRequest.new_eq_ok.mpr ⟨if_neg hsize, rfl⟩

theorem checkAll_sample : Service.checkAll sampleServices = .ok () := by
  have hok : (Service.checkAll sampleServices).toBool = true := by decide +kernel
  cases h : Service.checkAll sampleServices with
  | ok u => rfl
  | error f =>
    rw [h] at hok
    cases hok

theorem request_sample :
    request sampleKey sampleKey sampleKeys sampleServices = .ok sampleRequest :=
  request_eq_ok.mpr ⟨checkAll_sample, sampleState, ofInputs_sample, new_sample⟩

theorem decode_sample :
    Sidetree.InitialState.decode (Sidetree.InitialState.ofRequest sampleRequest).encode =
      .ok (Sidetree.InitialState.ofRequest sampleRequest).ordered := by
  refine Sidetree.InitialState.decode_ofRequest new_sample fun e he => ?_
  obtain ⟨s, hs, hlist⟩ := Sidetree.State.exists_service_of_mem ofInputs_sample he
  exact maps_sample s hs e.endpoint (hlist ▸ List.mem_singleton.mpr rfl)

/-- The long form of the request resolves on every network. -/
theorem document_sample {network : Option String}
    (hnetwork : ∀ n ∈ network, n ≠ "" → IsNetwork n) :
    LongForm.document (longForm network sampleRequest) =
      .ok (sampleState.ordered.toDocument (longForm network sampleRequest),
        unanchoredMetadata (shortForm network sampleRequest)
          (Sidetree.InitialState.ofRequest sampleRequest)) :=
  LongForm.document_longForm hnetwork new_sample decode_sample

/-! ### What is created can be resolved -/

/-- **What is created can be resolved.** The long form of a request for keys and services resolves
to the document of its state, with the short form as the canonical and the only equivalent
identifier, and with the commitments of the request. It is the state that was asked for, with the
members of each map in the order of the text, which is no part of a map
(`DidMethods.Sidetree.State.ordered`). The maps that endpoints are have distinct names; of them it
is asked that they hold no numbers and do not nest too deep: a text is read with at most
`DidMethods.Json.maxDepth` containers around each other, seven of which stand around an endpoint. -/
theorem resolve_longForm {network : Option String} {keys : List Sidetree.KeyInput}
    {services : List Service} {recovery update : Jwk} {state : Sidetree.State}
    {r : Sidetree.CreateRequest} (hnetwork : ∀ n ∈ network, n ≠ "" → IsNetwork n)
    (hmaps : ∀ s ∈ services, ∀ e ∈ s.endpoint.toList, e.toJson.distinctNames = true ∧
      e.toJson.hasNumber = false ∧ e.toJson.depth + 7 ≤ maxDepth)
    (hstate : Sidetree.State.ofInputs keys services = .ok state)
    (hr : Sidetree.CreateRequest.new recovery update state = .ok r) :
    LongForm.resolve (longForm network r) =
      .ofDocument (state.ordered.toDocument (longForm network r))
        { canonicalId := some (shortForm network r)
          equivalentId := some [shortForm network r]
          published := some false
          additional := [("method", .object
            [("published", .bool false),
              ("recoveryCommitment", .string r.suffixData.recoveryCommitment),
              ("updateCommitment", .string r.delta.updateCommitment)])] } := by
  have hentries : ∀ e ∈ state.services, Sidetree.InitialState.Readable e.endpoint := by
    intro e he
    obtain ⟨s, hs, hlist⟩ := Sidetree.State.exists_service_of_mem hstate he
    exact hmaps s hs e.endpoint (hlist ▸ List.mem_singleton.mpr rfl)
  have hdecode := Sidetree.InitialState.decode_ofRequest hr hentries
  rw [LongForm.resolve, LongForm.document_longForm hnetwork hr hdecode]
  rfl

theorem resolve_longForm_sample :
    LongForm.resolve (longForm (some "test") sampleRequest) =
      .ofDocument (sampleState.ordered.toDocument (longForm (some "test") sampleRequest))
        { canonicalId := some (shortForm (some "test") sampleRequest)
          equivalentId := some [shortForm (some "test") sampleRequest]
          published := some false
          additional := [("method", .object
            [("published", .bool false),
              ("recoveryCommitment", .string sampleRequest.suffixData.recoveryCommitment),
              ("updateCommitment", .string sampleRequest.delta.updateCommitment)])] } :=
  resolve_longForm (fun _ hn _ => Option.mem_some.mp hn ▸ isNetwork_test) maps_sample
    ofInputs_sample new_sample

end IonMethod

end DidMethods
