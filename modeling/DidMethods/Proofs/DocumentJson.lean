import DidMethods.Bearer.Portable
import DidMethods.Proofs.JsonExact
import DidMethods.Proofs.SidetreeJson

/-!
# Reading back a written document

A document can be read back if the values in it that have no structure of their own could have been
read (`DidMethods.Document.IsProper`): contexts and the maps that endpoints are. These documents are
the ones that are ever read, and they are read back as they are written
(`DidMethods.Document.exact`); the same holds of the form in which a DID is handed over
(`DidMethods.PortableDid.exact`).

Three choices have to come out the same way again. A context is a reference or a value that defines
terms, and it is the kind of value alone that says which (`DidMethods.Context.ofJson_toJson`); a
lone context that is a reference stands for the list, and a list of contexts is never mistaken for
one context. A key stands among the members of its method, under one name of two, of which the
reader tries one first (`DidMethods.KeyMaterial.ofMembers?_of_lookup`). And an endpoint is a list of
endpoints only if it is none itself.
-/

namespace DidMethods

open Json

/-! ### Contexts -/

namespace Context

/-- What defines terms is no text, and every object in it is a map. -/
def IsProper : Context → Prop
  | .text _ => True
  | .value v => v.string? = none ∧ v.distinctNames = true

/-- **A context is the same kind of context again.** -/
theorem ofJson_toJson {c : Context} (h : c.IsProper) : ofJson c.toJson = c := by
  cases c with
  | text s => rfl
  | value v =>
    obtain ⟨hstring, hdistinct⟩ := h
    have hlast := lastWins_eq_self hdistinct
    cases v with
    | string s => cases hstring
    | null | bool _ | number _ | array _ | object _ => exact congrArg TextOr.value hlast

theorem isProper_ofJson (v : Json) : (ofJson v).IsProper := by
  have hdistinct := distinctNames_lastWins v
  cases v with
  | string s => trivial
  | null | bool _ | number _ | array _ | object _ => exact ⟨rfl, hdistinct⟩

end Context

/-! ### Methods -/

namespace KeyMaterial

/-- A key is read from any members among which it is the only one. -/
theorem ofMembers?_of_lookup {found : List Member} (h : (found.map (·.1)).Nodup) {key : KeyMaterial}
    (hkey : found.lookup key.member.1 = some key.member.2)
    (hother : ∀ k, key = .multibase k → found.lookup "publicKeyJwk" = none) :
    ofMembers? found = some key := by
  have honly : ∀ name, only? found name = found.lookup name := fun name =>
    if_pos (uniqueNames_of_nodup h [name])
  rw [ofMembers?, honly, honly]
  cases key with
  | jwk k =>
    have hlookup : found.lookup "publicKeyJwk" = some k.toJson := hkey
    rw [hlookup, Option.bind_some, k.ofTaggedJson?_asWritten]
  | multibase k =>
    -- the name that is tried first is not there
    have hlookup : found.lookup "publicKeyMultibase" = some (.string k) := hkey
    rw [hother k rfl, hlookup]
    rfl

end KeyMaterial

namespace Method

/-- The context of a method, if it has one, could have been read, and is not written as one that is
missing. -/
def IsProper (m : Method) : Prop :=
  ∀ c ∈ m.context, c.IsProper ∧ c ≠ .value .null

theorem nodup_names (key : KeyMaterial) :
    ["@context", "id", "type", "controller", key.member.1].Nodup := by
  cases key <;> simp [KeyMaterial.member]

theorem ofJson?_object {found : List Member} (h : (found.map (·.1)).Nodup) {m : Method}
    (hcontext : optional? found "@context" (fun v => some (Context.ofJson v)) = some m.context)
    (hid : required? found "id" string? = some m.id)
    (htype : required? found "type" string? = some m.type)
    (hcontroller : required? found "controller" string? = some m.controller)
    (hkey : KeyMaterial.ofMembers? found = some m.key) : ofJson? (object found) = some m := by
  simp only [ofJson?, flatRecord?_object h, Option.bind_eq_bind, Option.bind_some, hcontext, hid,
    htype, hcontroller, hkey]
  rfl

theorem optionalContext?_of_lookup {found : List Member} {context : Option Context}
    (hfound : found.lookup "@context" = context.map Context.toJson)
    (h : ∀ c ∈ context, c.IsProper ∧ c ≠ .value .null) :
    optional? found "@context" (fun v => some (Context.ofJson v)) = some context := by
  refine optional?_of_lookup hfound fun c hc => ?_
  obtain ⟨hproper, hnull⟩ := h c hc
  refine ⟨fun hwrite => ?_, congrArg some (Context.ofJson_toJson hproper)⟩
  cases c with
  | text s => cases hwrite
  | value v =>
    obtain rfl : v = .null := hwrite
    exact hnull rfl

/-- **The methods that are read are the proper ones, and these are read back.** -/
theorem exact : Exact IsProper toJson ofJson? where
  back {m} hm := by
    rw [toJson, compact_eq]
    refine ofJson?_object (nodup_present ?names)
      (optionalContext?_of_lookup (lookup_present ?names "@context") hm)
      (requiredString?_of_lookup (lookup_present ?names "id"))
      (requiredString?_of_lookup (lookup_present ?names "type"))
      (requiredString?_of_lookup (lookup_present ?names "controller"))
      (KeyMaterial.ofMembers?_of_lookup (nodup_present ?names)
        ((lookup_present ?names m.key.member.1).trans ?_)
        fun k hk => (lookup_present ?names "publicKeyJwk").trans ?_)
    case names => exact nodup_names m.key
    · cases m.key <;> rfl
    · rw [hk]
      rfl
  sound {v m} hread := by
    simp only [ofJson?, Option.bind_eq_bind, Option.bind_eq_some_iff, Option.pure_def,
      Option.some.injEq] at hread
    obtain ⟨members, -, context, hcontext, id, -, type, -, controller, -, key, -, rfl⟩ := hread
    intro c hc
    obtain ⟨w, hw, hread⟩ := optional?_cases hcontext hc
    obtain rfl := Option.some.inj hread
    refine ⟨Context.isProper_ofJson w, fun hnull => ?_⟩
    -- nothing but `null` is read as the value `null`
    cases w with
    | null => exact hw rfl
    | string _ | bool _ | number _ | array _ | object _ => cases hnull
  ne_null _ := nofun

end Method

/-! ### Services -/

theorem Endpoint.exact : Exact (fun e => (toJson e).distinctNames = true) toJson ofJson? where
  back := ofJson?_asWritten
  sound := distinctNames_of_ofJson?
  ne_null {e} _ := by cases e <;> nofun

namespace Service

/-- The endpoints that are maps have distinct names. -/
def IsProper (s : Service) : Prop :=
  ∀ e ∈ s.endpoint.toList, e.toJson.distinctNames = true

/-- What is a list is no endpoint. -/
theorem endpoint_array (items : List Json) : Endpoint.ofJson? (.array items) = none := rfl

theorem ofJson?_object {found : List Member} (h : (found.map (·.1)).Nodup) {s : Service}
    (hid : required? found "id" string? = some s.id)
    (htype : required? found "type" string? = some s.type)
    (hendpoint : required? found "serviceEndpoint" (OneOrMany.ofJson? Endpoint.ofJson?) =
      some s.endpoint) : ofJson? (object found) = some s := by
  simp only [ofJson?, record?_object h, Option.bind_eq_bind, Option.bind_some, hid, htype,
    hendpoint]
  rfl

/-- **The services that are read are the proper ones, and these are read back.** -/
theorem exact : Exact IsProper toJson ofJson? where
  back {s} hs := by
    refine ofJson?_object ?names (requiredString?_of_lookup rfl) (requiredString?_of_lookup rfl)
      ((Endpoint.exact.oneOrMany endpoint_array).required hs rfl)
    exact (by decide : ["id", "type", "serviceEndpoint"].Nodup)
  sound {v s} hread := by
    simp only [ofJson?, Option.bind_eq_bind, Option.bind_eq_some_iff, Option.pure_def,
      Option.some.injEq] at hread
    obtain ⟨members, -, id, -, type, -, endpoint, hendpoint, rfl⟩ := hread
    exact (Endpoint.exact.oneOrMany endpoint_array).of_required hendpoint
  ne_null _ := nofun

end Service

/-! ### Documents -/

namespace Document

/-- All that a document takes over without looking into it could have been read. -/
structure IsProper (d : Document) : Prop where
  /-- The contexts. -/
  context : ∀ c ∈ d.context, c.IsProper
  /-- The methods that are listed. -/
  methods : ∀ list ∈ d.methods, ∀ m ∈ list, m.IsProper
  /-- The methods that stand in relationships. -/
  relations : ∀ p, ∀ list ∈ d.relationship? p, ∀ r ∈ list, ∀ m ∈ r.value?, m.IsProper
  /-- The services. -/
  services : ∀ list ∈ d.services, ∀ s ∈ list, s.IsProper

/-- The contexts of a document are read together. -/
theorem context_exact : Exact (fun contexts => ∀ c ∈ contexts, c.IsProper) contextToJson
    fun v => some (contextOfJson v) where
  back {contexts} h := by
    have hlist : (contexts.map Context.toJson).map Context.ofJson = contexts := by
      rw [List.map_map]
      exact (List.map_congr_left fun c hc => Context.ofJson_toJson (h c hc)).trans (List.map_id _)
    rw [contextToJson.eq_def]
    split
    · rfl  -- a lone reference is read as a list of one
    · exact congrArg some hlist
  sound {v contexts} hread c hc := by
    obtain rfl := Option.some.inj hread
    -- whether it stood in a list or alone, each context was read from something
    have hread : ∃ w, c = Context.ofJson w := by
      cases v with
      | array items =>
        obtain ⟨w, -, rfl⟩ := List.mem_map.mp hc
        exact ⟨w, rfl⟩
      | null | bool _ | number _ | string _ | object _ => exact ⟨_, List.mem_singleton.mp hc⟩
    obtain ⟨w, rfl⟩ := hread
    exact Context.isProper_ofJson w
  ne_null {contexts} _ := by
    rw [contextToJson.eq_def]
    split <;> simp

/-- The entries of a relationship are read one by one. -/
theorem relations_exact :
    Exact (fun list => ∀ r ∈ list, ∀ m ∈ r.value?, m.IsProper)
      (fun list => .array (list.map relationToJson)) (listOf? relationOfJson?) :=
  (Method.exact.textOr fun _ _ => nofun).list

theorem nodup_names :
    ["@context", "id", "alsoKnownAs", "controller", "verificationMethod", "authentication",
      "assertionMethod", "keyAgreement", "capabilityInvocation", "capabilityDelegation",
      "service"].Nodup := by decide

theorem ofJson?_object {found : List Member} (h : (found.map (·.1)).Nodup) {d : Document}
    (hcontext : defaulted? found "@context" [] (fun v => some (contextOfJson v)) = some d.context)
    (hid : required? found "id" string? = some d.id)
    (hknown : optional? found "alsoKnownAs" (listOf? string?) = some d.alsoKnownAs)
    (hcontroller : optional? found "controller" (OneOrMany.ofJson? string?) = some d.controller)
    (hmethods : optional? found "verificationMethod" (listOf? Method.ofJson?) = some d.methods)
    (hauthentication : optional? found "authentication" (listOf? relationOfJson?) =
      some d.authentication)
    (hassertion : optional? found "assertionMethod" (listOf? relationOfJson?) =
      some d.assertionMethod)
    (hagreement : optional? found "keyAgreement" (listOf? relationOfJson?) = some d.keyAgreement)
    (hinvocation : optional? found "capabilityInvocation" (listOf? relationOfJson?) =
      some d.capabilityInvocation)
    (hdelegation : optional? found "capabilityDelegation" (listOf? relationOfJson?) =
      some d.capabilityDelegation)
    (hservices : optional? found "service" (listOf? Service.ofJson?) = some d.services) :
    ofJson? (object found) = some d := by
  simp only [ofJson?, record?_object h, Option.bind_eq_bind, Option.bind_some, hcontext, hid,
    hknown, hcontroller, hmethods, hauthentication, hassertion, hagreement, hinvocation,
    hdelegation, hservices]
  rfl

/-- **The documents that are read are the proper ones, and these are read back.** -/
theorem exact : Exact IsProper toJson ofJson? where
  back {d} hd := by
    refine ofJson?_object (nodup_present ?names)
      (context_exact.defaulted hd.context (lookup_present ?names "@context"))
      (requiredString?_of_lookup (lookup_present ?names "id"))
      (Exact.string.list.optional (fun _ _ _ _ => trivial) (lookup_present ?names "alsoKnownAs"))
      ((Exact.string.oneOrMany fun _ => rfl).optional (fun _ _ _ _ => trivial)
        (lookup_present ?names "controller"))
      (Method.exact.list.optional hd.methods (lookup_present ?names "verificationMethod"))
      (relations_exact.optional (hd.relations .authentication)
        (lookup_present ?names "authentication"))
      (relations_exact.optional (hd.relations .assertionMethod)
        (lookup_present ?names "assertionMethod"))
      (relations_exact.optional (hd.relations .keyAgreement)
        (lookup_present ?names "keyAgreement"))
      (relations_exact.optional (hd.relations .capabilityInvocation)
        (lookup_present ?names "capabilityInvocation"))
      (relations_exact.optional (hd.relations .capabilityDelegation)
        (lookup_present ?names "capabilityDelegation"))
      (Service.exact.list.optional hd.services (lookup_present ?names "service"))
    exact nodup_names
  sound {v d} hread := by
    simp only [ofJson?, Option.bind_eq_bind, Option.bind_eq_some_iff, Option.pure_def,
      Option.some.injEq] at hread
    obtain ⟨members, -, context, hcontext, id, -, alsoKnownAs, -, controller, -, methods, hmethods,
      authentication, hauthentication, assertionMethod, hassertion, keyAgreement, hagreement,
      capabilityInvocation, hinvocation, capabilityDelegation, hdelegation, services, hservices,
      rfl⟩ := hread
    refine ⟨context_exact.of_defaulted (by simp) hcontext, Method.exact.list.of_optional hmethods,
      fun p => ?_, Service.exact.list.of_optional hservices⟩
    cases p with
    | authentication => exact relations_exact.of_optional hauthentication
    | assertionMethod => exact relations_exact.of_optional hassertion
    | keyAgreement => exact relations_exact.of_optional hagreement
    | capabilityInvocation => exact relations_exact.of_optional hinvocation
    | capabilityDelegation => exact relations_exact.of_optional hdelegation
  ne_null _ := nofun

end Document

/-! ### Portable DIDs -/

theorem Jwk.exact : Exact (fun _ => True) Jwk.toJson Jwk.ofJson? :=
  .of_forall Jwk.ofJson?_asWritten fun k => by cases k <;> nofun

namespace DidMetadata

theorem ofJson?_object {found : List Member} (h : (found.map (·.1)).Nodup) {m : DidMetadata}
    (hpublished : optional? found "published" bool? = some m.published)
    (hcanonical : optional? found "canonicalId" string? = some m.canonicalId)
    (hrecovery : optional? found "recoveryKey" Jwk.ofJson? = some m.recoveryKey)
    (hupdate : optional? found "updateKey" Jwk.ofJson? = some m.updateKey) :
    ofJson? (object found) = some m := by
  simp only [ofJson?, record?_object h, Option.bind_eq_bind, Option.bind_some, hpublished,
    hcanonical, hrecovery, hupdate]
  rfl

/-- All that is kept with a DID is read back. -/
theorem exact : Exact (fun _ => True) toJson ofJson? := by
  refine .of_forall (fun m => ?_) fun _ => nofun
  refine ofJson?_object (nodup_present ?names)
    (Exact.bool.optional (fun _ _ => trivial) (lookup_present ?names "published"))
    (optionalString?_of_lookup (lookup_present ?names "canonicalId"))
    (Jwk.exact.optional (fun _ _ => trivial) (lookup_present ?names "recoveryKey"))
    (Jwk.exact.optional (fun _ _ => trivial) (lookup_present ?names "updateKey"))
  exact (by decide : names.Nodup)

end DidMetadata

namespace PortableDid

theorem ofJson?_object {found : List Member} (h : (found.map (·.1)).Nodup) {p : PortableDid}
    (huri : required? found "uri" string? = some p.uri)
    (hdocument : required? found "document" Document.ofJson? = some p.document)
    (hmetadata : required? found "metadata" DidMetadata.ofJson? = some p.metadata)
    (hkeys : optional? found "privateKeys" (listOf? Jwk.ofJson?) = some p.privateKeys) :
    ofJson? (object found) = some p := by
  simp only [ofJson?, record?_object h, Option.bind_eq_bind, Option.bind_some, huri, hdocument,
    hmetadata, hkeys]
  rfl

/-- **A DID that is handed over is read back if its document is.** -/
theorem exact : Exact (fun p => p.document.IsProper) toJson ofJson? where
  back {p} hp := by
    refine ofJson?_object (nodup_present ?names)
      (requiredString?_of_lookup (lookup_present ?names "uri"))
      (Document.exact.required hp (lookup_present ?names "document"))
      (DidMetadata.exact.required trivial (lookup_present ?names "metadata"))
      (Jwk.exact.list.optional (fun _ _ _ _ => trivial) (lookup_present ?names "privateKeys"))
    exact (by decide : ["uri", "document", "metadata", "privateKeys"].Nodup)
  sound {v p} hread := by
    simp only [ofJson?, Option.bind_eq_bind, Option.bind_eq_some_iff, Option.pure_def,
      Option.some.injEq] at hread
    obtain ⟨members, -, uri, -, document, hdocument, metadata, -, privateKeys, -, rfl⟩ := hread
    exact Document.exact.of_required hdocument
  ne_null _ := nofun

end PortableDid

end DidMethods
