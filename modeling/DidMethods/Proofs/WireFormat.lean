import DidMethods.Proofs.DocumentJson
import DidMethods.Resolution.Result

/-!
# The wire format

What is sent is received (`DidMethods.ofJson?_toJson_iff_isProper`). A document, a portable DID or the result of a
resolution is received in one of many forms and sent on in one, which is received as the same thing
again; and a request, a delta, a patch or a state is received as it was sent.

Of a result this is true as far as its instants are read back
(`DidMethods.Resolution.ofJson?_asWritten`). The members that a method adds to the metadata of a
document stand among those that every method knows. They are told apart by their names, so that none
of them may have a known name (`DidMethods.DocumentMetadata.otherMembers_append`), and a reader
makes no others (`DidMethods.DocumentMetadata.additional_otherMembers`).
-/

namespace DidMethods

open Json

/-! ### Metadata of a resolution -/

namespace ResolutionMetadata

theorem ofJson?_object {found : List Member} (h : (found.map (·.1)).Nodup) {m : ResolutionMetadata}
    (herror : optional? found "error" codeOfJson? = some m.error)
    (hmessage : optional? found "errorMessage" string? = some m.errorMessage)
    (htype : optional? found "contentType" string? = some m.contentType) :
    ofJson? (object found) = some m := by
  simp only [ofJson?, record?_object h, Option.bind_eq_bind, Option.bind_some, herror, hmessage,
    htype]
  rfl

/-- A registered code is read by its name. -/
theorem code_exact : Exact (fun _ => True) (fun c : Code => .string c.name) codeOfJson? := by
  refine .of_forall (fun c => ?_) fun _ => nofun
  change some ((Code.ofName? c.name).getD .internalError) = some c
  rw [Code.ofName?_name]
  rfl

/-- All that is said about a resolution is read back. -/
theorem ofJson?_asWritten (m : ResolutionMetadata) : ofJson? m.toJson = some m := by
  refine ofJson?_object (nodup_present ?names)
    (code_exact.optional (fun _ _ => trivial) (lookup_present ?names "error"))
    (optionalString?_of_lookup (lookup_present ?names "errorMessage"))
    (optionalString?_of_lookup (lookup_present ?names "contentType"))
  exact (by decide : ["error", "errorMessage", "contentType"].Nodup)

end ResolutionMetadata

/-! ### Metadata of a document -/

namespace DocumentMetadata

/-- Members that a method may add: no name occurs twice, at any depth, and none is known to every
method. -/
structure Additional (members : List Member) : Prop where
  /-- The names are distinct. -/
  distinct : (object members).distinctNames = true
  /-- No name is known to every method. -/
  unknown : ∀ m ∈ members, m.1 ∉ names

/-- **What is read besides the known members can be added to them.** -/
theorem additional_otherMembers (members : List Member) : Additional (otherMembers members) where
  distinct := distinctNames_lastWins (object (members.filter fun m => !names.contains m.1))
  unknown m hm := by
    have hmem := (lastOfName_sublist _).subset hm
    rw [lastWinsMembers_eq_map] at hmem
    obtain ⟨n, hn, rfl⟩ := List.mem_map.mp hmem
    -- the choice between members of one name takes no other names
    simpa using (List.mem_filter.mp hn).2

/-- **Added members are told apart from known ones.** -/
theorem otherMembers_append {known members : List Member} (hknown : ∀ m ∈ known, m.1 ∈ names)
    (h : Additional members) : otherMembers (known ++ members) = members := by
  have hnone : (known.filter fun m => !names.contains m.1) = [] := by
    rw [List.filter_eq_nil_iff]
    intro m hm
    simpa using hknown m hm
  have hall : (members.filter fun m => !names.contains m.1) = members := by
    rw [List.filter_eq_self]
    intro m hm
    simpa using h.unknown m hm
  rw [otherMembers, List.filter_append, hnone, hall, List.nil_append]
  exact object.inj (lastWins_eq_self h.distinct)

/-- The instants in the metadata. -/
def instants (m : DocumentMetadata) : List Instant :=
  m.created.toList ++ m.updated.toList ++ m.nextUpdate.toList

theorem ofJson?_object {found : List Member} (h : (found.map (·.1)).Nodup) {m : DocumentMetadata}
    (hcreated : optional? found "created" instantOfJson? = some m.created)
    (hupdated : optional? found "updated" instantOfJson? = some m.updated)
    (hdeactivated : optional? found "deactivated" bool? = some m.deactivated)
    (hnext : optional? found "nextUpdate" instantOfJson? = some m.nextUpdate)
    (hversion : optional? found "versionId" string? = some m.versionId)
    (hnextVersion : optional? found "nextVersionId" string? = some m.nextVersionId)
    (hequivalent : optional? found "equivalentId" (listOf? string?) = some m.equivalentId)
    (hcanonical : optional? found "canonicalId" string? = some m.canonicalId)
    (hpublished : optional? found "published" bool? = some m.published)
    (hadditional : otherMembers found = m.additional) : ofJson? (object found) = some m := by
  simp only [ofJson?, flatRecord?_object h, Option.bind_eq_bind, Option.bind_some, hcreated,
    hupdated, hdeactivated, hnext, hversion, hnextVersion, hequivalent, hcanonical, hpublished,
    hadditional]
  rfl

theorem instantOfJson?_toJson (t : Instant) :
    instantOfJson? (instantToJson t) = Instant.parse? t.toText := by
  rw [instantOfJson?, instantToJson, string?, Option.bind_some]

/-- An instant that may be missing, and is read back. -/
theorem optionalInstant?_of_lookup {found : List Member} {k : String} {t : Option Instant}
    (hfound : found.lookup k = t.map instantToJson)
    (ht : ∀ i ∈ t.toList, Instant.parse? i.toText = some i) :
    optional? found k instantOfJson? = some t := by
  refine optional?_of_lookup hfound fun i hi => ⟨by simp [instantToJson], ?_⟩
  rw [instantOfJson?_toJson]
  exact ht i (Option.mem_toList.mpr hi)

/-- **Metadata are read back** if their instants are, and if what is added to them can be. -/
theorem ofJson?_asWritten {m : DocumentMetadata} (hadditional : Additional m.additional)
    (hinstants : ∀ t ∈ m.instants, Instant.parse? t.toText = some t) :
    ofJson? m.toJson = some m := by
  simp only [instants, List.forall_mem_append] at hinstants
  obtain ⟨⟨hcreated, hupdated⟩, hnext⟩ := hinstants
  rw [toJson, compact_eq]
  refine ofJson?_object (nodup_present ?names)
    (optionalInstant?_of_lookup (lookup_present ?names "created") hcreated)
    (optionalInstant?_of_lookup (lookup_present ?names "updated") hupdated)
    (Exact.bool.optional (fun _ _ => trivial) (lookup_present ?names "deactivated"))
    (optionalInstant?_of_lookup (lookup_present ?names "nextUpdate") hnext)
    (optionalString?_of_lookup (lookup_present ?names "versionId"))
    (optionalString?_of_lookup (lookup_present ?names "nextVersionId"))
    (Exact.string.list.optional (fun _ _ _ _ => trivial) (lookup_present ?names "equivalentId"))
    (optionalString?_of_lookup (lookup_present ?names "canonicalId"))
    (Exact.bool.optional (fun _ _ => trivial) (lookup_present ?names "published")) ?_
  case names =>
    -- neither among the known names nor among the added ones is there a name twice, nor in both
    rw [List.map_append, List.map_map, List.nodup_append]
    refine ⟨(by decide : names.Nodup), (distinctNames_object.mp hadditional.distinct).1, ?_⟩
    rintro k hk k' hk' rfl
    obtain ⟨n, hn, rfl⟩ := List.mem_map.mp hk'
    exact hadditional.unknown n hn hk
  · -- those that are written of the known members have known names
    rw [present_append]
    refine (congrArg _ (congrArg _ (present_map_some _))).trans
      (otherMembers_append (fun n hn => ?_) hadditional)
    exact (names_present _).subset (List.mem_map.mpr ⟨n, hn, rfl⟩)

/-- What is read can be added to the known members again. -/
theorem additional_of_ofJson? {v : Json} {m : DocumentMetadata} (hread : ofJson? v = some m) :
    Additional m.additional := by
  simp only [ofJson?, Option.bind_eq_bind, Option.bind_eq_some_iff, Option.pure_def,
    Option.some.injEq] at hread
  obtain ⟨members, -, _, -, _, -, _, -, _, -, _, -, _, -, _, -, _, -, _, -, rfl⟩ := hread
  exact additional_otherMembers members

end DocumentMetadata

/-! ### Results -/

namespace Resolution

theorem ofJson?_object {found : List Member} (h : (found.map (·.1)).Nodup) {r : Resolution}
    (hcontext : defaulted? found "@context" ({} : Resolution).context string? = some r.context)
    (hmetadata : defaulted? found "didResolutionMetadata" {} ResolutionMetadata.ofJson? =
      some r.metadata)
    (hdocument : optional? found "didDocument" Document.ofJson? = some r.document)
    (hdocumentMetadata : defaulted? found "didDocumentMetadata" {} DocumentMetadata.ofJson? =
      some r.documentMetadata) : ofJson? (object found) = some r := by
  simp only [ofJson?, record?_object h, Option.bind_eq_bind, Option.bind_some, hcontext, hmetadata,
    hdocument, hdocumentMetadata]
  rfl

/-- All that a result takes over without looking into it could have been read. -/
structure IsProper (r : Resolution) : Prop where
  /-- The document, if there is one. -/
  document : ∀ d ∈ r.document, d.IsProper
  /-- What a method adds to the metadata. -/
  additional : DocumentMetadata.Additional r.documentMetadata.additional

/-- **A proper result is read back** if its instants are. -/
theorem ofJson?_asWritten {r : Resolution} (h : r.IsProper)
    (hinstants : ∀ t ∈ r.documentMetadata.instants, Instant.parse? t.toText = some t) :
    ofJson? r.toJson = some r := by
  refine ofJson?_object ?names (defaulted?_of_lookup rfl rfl)
    (defaulted?_of_lookup rfl r.metadata.ofJson?_asWritten) ?_
    (defaulted?_of_lookup rfl (DocumentMetadata.ofJson?_asWritten h.additional hinstants))
  · exact (by decide : ["@context", "didResolutionMetadata", "didDocument",
      "didDocumentMetadata"].Nodup)
  · -- a result without a document is written with `null` in its place
    obtain ⟨context, metadata, document, documentMetadata⟩ := r
    cases document with
    | none => rfl
    | some d => exact Document.exact.optional h.document rfl

/-- **Only proper results are read.** -/
theorem isProper_of_ofJson? {v : Json} {r : Resolution} (hread : ofJson? v = some r) :
    r.IsProper := by
  simp only [ofJson?, Option.bind_eq_bind, Option.bind_eq_some_iff, Option.pure_def,
    Option.some.injEq] at hread
  obtain ⟨members, -, context, -, metadata, -, document, hdocument, documentMetadata, hmetadata,
    rfl⟩ := hread
  refine ⟨Document.exact.of_optional hdocument, ?_⟩
  obtain rfl | ⟨w, hw⟩ := defaulted?_cases hmetadata
  · exact ⟨rfl, fun _ h => absurd h List.not_mem_nil⟩
  · exact DocumentMetadata.additional_of_ofJson? hw

end Resolution

/-! ### All that is sent -/

/-- **What is sent is received.** A document, a portable DID or a result that was read from any
value is read from its own written form again; of a result, the instants have to be read back. Not
only what was read is read back, but all documents, portable DIDs and results in which the values
that have no structure of their own could have been read, and no others. A request, a delta, a patch
or a state of any kind is read as it was written; the maps that endpoints are have distinct names,
as maps do. -/
theorem ofJson?_toJson_iff_isProper :
    (∀ v d, Document.ofJson? v = some d → Document.ofJson? d.toJson = some d) ∧
    (∀ v p, PortableDid.ofJson? v = some p → PortableDid.ofJson? p.toJson = some p) ∧
    (∀ v r, Resolution.ofJson? v = some r →
      (∀ t ∈ r.documentMetadata.instants, Instant.parse? t.toText = some t) →
      Resolution.ofJson? r.toJson = some r) ∧
    (∀ d : Document, Document.ofJson? d.toJson = some d ↔ d.IsProper) ∧
    (∀ p : PortableDid, PortableDid.ofJson? p.toJson = some p ↔ p.document.IsProper) ∧
    (∀ r : Resolution, (∀ t ∈ r.documentMetadata.instants, Instant.parse? t.toText = some t) →
      (Resolution.ofJson? r.toJson = some r ↔ r.IsProper)) ∧
    (∀ r : Sidetree.CreateRequest,
      (∀ e ∈ r.delta.services, e.endpoint.toJson.distinctNames = true) →
      Sidetree.CreateRequest.ofJson? r.toJson = some r) ∧
    (∀ d : Sidetree.Delta, (∀ e ∈ d.services, e.endpoint.toJson.distinctNames = true) →
      Sidetree.Delta.ofJson? d.toJson = some d) ∧
    (∀ p : Sidetree.Patch, (∀ e ∈ p.services, e.endpoint.toJson.distinctNames = true) →
      Sidetree.Patch.ofJson? p.toJson = some p) ∧
    (∀ s : Sidetree.State, (∀ e ∈ s.services, e.endpoint.toJson.distinctNames = true) →
      Sidetree.State.ofJson? s.toJson = some s) := by
  refine ⟨?documentAgain, ?didAgain, ?resultAgain, ?document, ?did, ?result, ?request, ?delta,
    ?patch, ?state⟩
  case documentAgain => exact fun _ _ => Document.exact.again
  case didAgain => exact fun _ _ => PortableDid.exact.again
  case resultAgain =>
    exact fun _ _ hread => Resolution.ofJson?_asWritten (Resolution.isProper_of_ofJson? hread)
  case document => exact fun _ => Document.exact.back_iff
  case did => exact fun _ => PortableDid.exact.back_iff
  case result =>
    exact fun _ hinstants =>
      ⟨Resolution.isProper_of_ofJson?, fun h => Resolution.ofJson?_asWritten h hinstants⟩
  case request => exact fun _ => Sidetree.CreateRequest.ofJson?_asWritten
  case delta => exact fun _ => Sidetree.Delta.ofJson?_asWritten
  case patch => exact fun _ => Sidetree.Patch.ofJson?_asWritten
  case state =>
    exact fun _ => Sidetree.State.ofJsonWith?_asWritten Sidetree.KeyEntry.ofJson?_asWritten

namespace WireFormat

/-! ### Another way to write things -/

/-- A document in a form in which none is written: a list of one context, a member of the other form
of keys, a service as a list, and members that no document has. -/
def receivedDocument : Json :=
  .object
    [("service", .array [.array [.string "did:example:a#hub", .string "Hub",
        .array [.string "https://hub.example", .object [("url", .null), ("url", .bool true)]]]]),
      ("id", .string "did:example:a"), ("proof", .null),
      ("@context", .array [.string Suite.didContext]),
      ("verificationMethod", .array [.object
        [("publicKeyMultibase", .string "z6Mk"), ("publicKeyJwk", .null),
          ("@context", .object [("@base", .string "did:example:a")]),
          ("controller", .string "did:example:a"), ("type", .string Suite.multikey),
          ("id", .string "did:example:a#key")]]),
      ("authentication", .array [.string "did:example:a#key"]), ("keyAgreement", .null)]

/-- What is read of it. -/
def document : Document where
  context := [.text Suite.didContext]
  id := "did:example:a"
  methods := some [{
    context := some (.value (.object [("@base", .string "did:example:a")]))
    id := "did:example:a#key"
    type := Suite.multikey
    controller := "did:example:a"
    key := .multibase "z6Mk" }]
  authentication := some [.text "did:example:a#key"]
  services := some [⟨"did:example:a#hub", "Hub",
    .many [.text "https://hub.example", .value [("url", .bool true)]]⟩]

/-- A portable DID as a list of its members. -/
def receivedDid : Json :=
  .array [.string "did:example:a", receivedDocument, .object [("published", .bool false)], .null]

/-- What is read of it. -/
def did : PortableDid where
  uri := "did:example:a"
  document := document
  metadata := { published := some false }

/-- A result with an instant of another zone, and a member that a method adds. -/
def receivedResult : Json :=
  .object
    [("didDocument", receivedDocument),
      ("didDocumentMetadata", .object
        [("created", .string "2024-02-29t09:05:07.25+01:00"), ("anchor", .bool true),
          ("deactivated", .null)])]

/-- What is read of it. -/
def result : Resolution where
  document := some document
  documentMetadata := {
    created := some ⟨19782, 485, 7, 250000000⟩
    additional := [("anchor", .bool true)] }

/-- Services for a request. -/
def services : List Sidetree.ServiceEntry :=
  [⟨"hub", "Hub", .value [("b", .string "https://hub.example"), ("a", .array [.null])]⟩]

/-- A request with patches of two kinds. -/
def request : Sidetree.CreateRequest where
  suffixData := { deltaHash := "hash", recoveryCommitment := "recovery" }
  delta := {
    patches := [.replace { services := services }, .addServices services]
    updateCommitment := "update" }

theorem ofJson?_toJson_iff_isProper_received :
    (Document.ofJson? receivedDocument = some document ∧ document.toJson ≠ receivedDocument ∧
      Document.ofJson? document.toJson = some document ∧ document.IsProper) ∧
    (PortableDid.ofJson? receivedDid = some did ∧ PortableDid.ofJson? did.toJson = some did ∧
      did.document.IsProper) ∧
    (Resolution.ofJson? receivedResult = some result ∧
      Resolution.ofJson? result.toJson = some result ∧ result.IsProper) ∧
    Sidetree.CreateRequest.ofJson? request.toJson = some request ∧
    Sidetree.Delta.ofJson? request.delta.toJson = some request.delta ∧
    (∀ p ∈ request.delta.patches, Sidetree.Patch.ofJson? p.toJson = some p) ∧
    Sidetree.State.ofJson? ({ services := services } : Sidetree.State).toJson =
      some { services := services } := by
  obtain ⟨hdocument, hdid, hresult, hproperDocument, hproperDid, hproperResult, hrequest, hdelta,
    hpatch, hstate⟩ := ofJson?_toJson_iff_isProper
  have hd : Document.ofJson? receivedDocument = some document := by decide +kernel
  have hp : PortableDid.ofJson? receivedDid = some did := by decide +kernel
  have hr : Resolution.ofJson? receivedResult = some result := by decide +kernel
  have hinstants : ∀ t ∈ result.documentMetadata.instants,
      Instant.parse? t.toText = some t := by decide +kernel
  have hpatches : ∀ p ∈ request.delta.patches, ∀ e ∈ p.services,
      e.endpoint.toJson.distinctNames = true := by decide +kernel
  have hd' := hdocument _ _ hd
  have hp' := hdid _ _ hp
  have hr' := hresult _ _ hr hinstants
  exact ⟨⟨hd, by decide +kernel, hd', (hproperDocument _).mp hd'⟩,
    ⟨hp, hp', (hproperDid _).mp hp'⟩, ⟨hr, hr', (hproperResult _ hinstants).mp hr'⟩,
    hrequest _ (by decide +kernel), hdelta _ (by decide +kernel),
    fun p hp => hpatch p (hpatches p hp), hstate _ (by decide +kernel)⟩

end WireFormat

end DidMethods
