import DidMethods.Proofs.DocumentShape
import DidMethods.Proofs.Lookup
import DidMethods.Proofs.ResolverRequests
import DidMethods.Resolver.Standard

/-!
# The parts of a document are found

The identifier of a method or a service is the DID of its document with a fragment behind it. It is
taken apart by the grammar of DID URLs (`DidMethods.Did.parse?_append`), the DID is resolved, and
the fragment is put behind the DID of the document again or compared with local identifiers. All of
these agree where the parts of the document can be told apart (`DidMethods.Document.Addressable`)
and the fragment is not taken for something else (`DidMethods.IsPlainFragment`): then each part is
found under its identifier, and a service also by a query (`DidMethods.Resolver.Finds`).

This is so whenever the method answers with such a document, whatever has been asked before
(`DidMethods.Resolver.finds_of_shows`). The documents of the key method are of this kind
(`DidMethods.KeyMethod.addressable_of_document`).
-/

namespace DidMethods

/-! ### DID URLs on a bare DID -/

namespace Did

variable {u : String} {d : Did}

/-- The parts of a text that is a bare DID. -/
theorem exists_parts_of_isBare (h : parse? u = some d) (hbare : d.isBare = true) :
    ∃ p : Parts, p.Grammatical ∧ p.renderBare = u.toList ∧ d = ofParts p ∧
      p.params = [] ∧ p.path = none ∧ p.query = none ∧ p.fragment = none := by
  obtain ⟨p, hscan, rfl⟩ := Option.map_eq_some_iff.mp h
  obtain ⟨hp, hrender⟩ := grammatical_of_scan? hscan
  obtain ⟨hparams, hpath, hquery, hfragment⟩ : p.params = [] ∧ p.path = none ∧ p.query = none ∧
      p.fragment = none := by
    simpa [isBare, ofParts, and_assoc] using hbare
  refine ⟨p, hp, ?_, rfl, hparams, hpath, hquery, hfragment⟩
  rw [← hrender, Parts.render, hparams, hpath, hquery, hfragment]
  simp [Parts.renderParams, Parts.renderAfter]

theorem uri_of_isBare (h : parse? u = some d) (hbare : d.isBare = true) : d.uri = u := by
  obtain ⟨p, -, hrender, rfl, -⟩ := exists_parts_of_isBare h hbare
  rw [ofParts, hrender, String.ofList_toList]

/-- A DID begins like one. -/
theorem scheme_of_isBare (h : parse? u = some d) (hbare : d.isBare = true) (rest : String) :
    "did:".toList <+: (u ++ rest).toList := by
  obtain ⟨p, -, hu, -⟩ := exists_parts_of_isBare h hbare
  rw [String.toList_append, ← hu]
  exact ⟨p.method ++ ':' :: p.id ++ rest.toList, by simp [Parts.renderBare]⟩

/-- A bare DID with a query or a fragment behind it. -/
theorem parse?_append (h : parse? u = some d) (hbare : d.isBare = true)
    {query fragment : Option (List Char)} (hquery : ∀ t ∈ query, '#' ∉ t)
    (hfragment : ∀ t ∈ fragment, '\n' ∉ t) {s : String}
    (hs : s.toList = u.toList ++ Parts.renderAfter '?' query ++ Parts.renderAfter '#' fragment) :
    parse? s = some
      { d with url := s, query := query.map String.ofList,
               fragment := fragment.map String.ofList } := by
  obtain ⟨p, hp, hu, rfl, hparams, hpath, -, -⟩ := exists_parts_of_isBare h hbare
  have hq : { p with query, fragment }.Grammatical :=
    { hp with query := hquery, fragment := hfragment }
  have hrender : { p with query, fragment }.render = s.toList := by
    rw [hs, ← hu, Parts.render, hparams, hpath]
    simp [Parts.renderParams, Parts.renderBare]
  rw [parse?_of_render hq hrender]
  simp only [ofParts, hrender, String.ofList_toList]
  rfl

theorem parse?_fragment (h : parse? u = some d) (hbare : d.isBare = true) {f : String}
    (hf : '\n' ∉ f.toList) :
    parse? (u ++ "#" ++ f) =
      some { d with url := u ++ "#" ++ f, query := none, fragment := some f } := by
  have hs : (u ++ "#" ++ f).toList =
      u.toList ++ Parts.renderAfter '?' none ++ Parts.renderAfter '#' (some f.toList) := by
    simp [String.toList_append, Parts.renderAfter]
  rw [parse?_append h hbare (by simp) (by simpa using hf) hs, Option.map_none, Option.map_some,
    String.ofList_toList]

theorem parse?_query (h : parse? u = some d) (hbare : d.isBare = true) {q : String}
    (hq : '#' ∉ q.toList) :
    parse? (u ++ "?" ++ q) =
      some { d with url := u ++ "?" ++ q, query := some q, fragment := none } := by
  have hs : (u ++ "?" ++ q).toList =
      u.toList ++ Parts.renderAfter '?' (some q.toList) ++ Parts.renderAfter '#' none := by
    simp [String.toList_append, Parts.renderAfter]
  rw [parse?_append h hbare (by simpa using hq) (by simp) hs, Option.map_none, Option.map_some,
    String.ofList_toList]

/-- A query that names a service. -/
theorem queryMap_service {f : String} (hquery : d.query = some ("service=" ++ f))
    (hf : '&' ∉ f.toList) : d.queryMap = [("service", f)] := by
  have hlist : ("service=" ++ f).toList = "service".toList ++ '=' :: f.toList := by
    rw [String.toList_append]
    rfl
  have hpiece : '&' ∉ ("service=" ++ f).toList := by
    rw [String.toList_append]
    exact fun hmem => (List.mem_append.mp hmem).elim (by decide) hf
  have hpair : queryPair ("service=" ++ f).toList = ("service", f) := by
    rw [queryPair, hlist, Text.cutFirst_append (by decide)]
    simp
  rw [queryMap, queryPairs, hquery]
  simp only [Text.splitAll_of_not_mem hpiece]
  rw [List.filter_cons_of_pos (by simp [hlist]), List.filter_nil, List.map_singleton, hpair]
  rfl

end Did

/-! ### The parts of a document -/

/-- A fragment that is taken as it is: a single line that does not begin like a DID or with another
number sign. -/
structure IsPlainFragment (f : String) : Prop where
  /-- It is a single line. -/
  line : '\n' ∉ f.toList
  /-- It does not begin with a number sign. -/
  sharp : f.toList.head? ≠ some '#'
  /-- It does not begin like a DID. -/
  scheme : ¬ "did:".toList <+: f.toList

/-- A document of a DID whose parts can be told apart by their identifiers. -/
structure Document.Addressable (d : Document) (u : String) : Prop where
  /-- The DID. -/
  id : d.id = u
  /-- No two methods have one identifier. -/
  methods : (d.methodList.map Method.id).Nodup
  /-- No two services have one local identifier. -/
  services : (d.serviceList.map Service.localId).Nodup

namespace Document

variable {d : Document} {u f : String}

/-- A DID URL is a full identifier already. -/
theorem fullMethodId_of_did {id : String} (h : "did:".toList <+: id.toList) :
    d.fullMethodId id = id :=
  if_pos (by simpa using h)

theorem dropWhile_sharp (hf : IsPlainFragment f) : f.toList.dropWhile (· == '#') = f.toList := by
  have hsharp := hf.sharp
  cases hlist : f.toList with
  | nil => rfl
  | cons c rest =>
    rw [hlist] at hsharp
    exact List.dropWhile_cons_of_neg (by simpa using hsharp)

theorem fullMethodId_of_plain (hf : IsPlainFragment f) : d.fullMethodId f = d.id ++ "#" ++ f := by
  rw [fullMethodId, if_neg (by simpa using hf.scheme), dropWhile_sharp hf, String.ofList_toList]

/-- A number sign before a fragment makes no difference. -/
theorem fullMethodId_sharp (hf : IsPlainFragment f) :
    d.fullMethodId ("#" ++ f) = d.id ++ "#" ++ f := by
  have hlist : ("#" ++ f).toList = '#' :: f.toList := String.toList_append ..
  rw [fullMethodId, hlist, if_neg (by simp), List.dropWhile_cons_of_pos (p := (· == '#')) rfl,
    dropWhile_sharp hf, String.ofList_toList]

/-- A method is found under what stands for its identifier. -/
theorem method?_of_fullMethodId (h : d.Addressable u) {m : Method} (hm : m ∈ d.methodList)
    {id : String} (hid : d.fullMethodId id = m.id) : d.method? id = some m := by
  rw [method?, hid]
  exact find?_eq_some_of_nodup h.methods hm (beq_self_eq_true _) fun _ _ hb => beq_iff_eq.mp hb

/-- A method is found under its fragment. -/
theorem method?_fragment (h : d.Addressable u) (hf : IsPlainFragment f) {m : Method}
    (hm : m ∈ d.methodList) (hid : m.id = u ++ "#" ++ f) : d.method? f = some m :=
  method?_of_fullMethodId h hm (by rw [fullMethodId_of_plain hf, h.id, hid])

theorem method?_eq_none_of_fragment (hid : d.id = u) (hf : IsPlainFragment f)
    (hnone : ∀ m ∈ d.methodList, m.id ≠ u ++ "#" ++ f) : d.method? f = none := by
  rw [method?, fullMethodId_of_plain hf, hid]
  exact List.find?_eq_none.mpr fun m hm => by simpa using hnone m hm

/-- **Services are looked up by their local identifiers**: whose whole identifier is the one that is
looked for, has the local part of it as well. -/
theorem service?_eq (id : String) :
    d.service? id = d.serviceList.find? fun s => s.localId == localPart id := by
  refine congrArg (fun p => d.serviceList.find? p) (funext fun s => ?_)
  refine Bool.or_eq_right_iff_imp.mpr fun hid => ?_
  rw [Service.localId, beq_iff_eq.mp hid]
  exact beq_self_eq_true _

/-- A service is found under every identifier that ends with its local one. -/
theorem service?_of_localPart (h : d.Addressable u) {v : Service} (hv : v ∈ d.serviceList)
    {id : String} (hlocal : localPart id = v.localId) : d.service? id = some v := by
  rw [service?_eq, hlocal]
  exact find?_eq_some_of_nodup h.services hv (beq_self_eq_true _) fun b _ hb => beq_iff_eq.mp hb

/-- A service is found under its fragment. -/
theorem service?_fragment (h : d.Addressable u) (hf : '#' ∉ f.toList) {v : Service}
    (hv : v ∈ d.serviceList) (hid : v.id = u ++ "#" ++ f) : d.service? f = some v := by
  refine service?_of_localPart h hv ?_
  rw [localPart_of_not_mem hf, Service.localId, hid, localPart_append u hf]

variable {url : Did} {part : Resource} {v : Service}

theorem resource_of_bare (hquery : url.query = none) (hfragment : url.fragment = none) :
    d.resource url = .ok (.document d) := by
  rw [resource, Did.queryMap, Did.queryPairs, hquery, hfragment]
  rfl

theorem resource_of_fragment (hquery : url.query = none) (hfragment : url.fragment = some f)
    (hpart : d.part? f = some part) : d.resource url = .ok part := by
  rw [resource, Did.queryMap, Did.queryPairs, hquery, hfragment]
  exact Outcome.orFail_eq_ok.mpr hpart

/-- A service that the query names comes before everything else. -/
theorem resource_of_service {id : String} (hquery : url.queryMap.lookup "service" = some id) :
    d.resource url =
      orFail .notFound s!"service {id} not found in document" ((d.service? id).map .service) := by
  rw [resource, hquery]

theorem resource_of_query (hquery : url.queryMap = [("service", f)])
    (hservice : d.service? f = some v) : d.resource url = .ok (.service v) := by
  have hlookup : url.queryMap.lookup "service" = some f := by
    rw [hquery]
    rfl
  rw [resource_of_service hlookup]
  exact Outcome.orFail_eq_ok.mpr (Option.map_eq_some_iff.mpr ⟨v, hservice, rfl⟩)

end Document

/-! ### Through a resolver -/

namespace Resolver

variable {ω κ : Type}

/-- In this state the DID resolves to a document, and all that the document has can be found under
its identifier. -/
structure Finds [ResultCache κ] (r : Resolver ω) (u : String) (s : ω × κ) (d : Document) :
    Prop where
  /-- The document. -/
  document : (r.dereference u s).1 = .ok (.document d)
  /-- A method, under its fragment. -/
  method : ∀ m ∈ d.methodList, ∀ f, m.id = u ++ "#" ++ f → IsPlainFragment f →
    (r.dereference m.id s).1 = .ok (.method m)
  /-- A service, under its fragment, unless a method has the same. -/
  service : ∀ v ∈ d.serviceList, ∀ f, v.id = u ++ "#" ++ f → IsPlainFragment f → '#' ∉ f.toList →
    (∀ m ∈ d.methodList, m.id ≠ v.id) → (r.dereference v.id s).1 = .ok (.service v)
  /-- A service, by a query for its local identifier. -/
  query : ∀ v ∈ d.serviceList, ∀ f, v.id = u ++ "#" ++ f → '#' ∉ f.toList → '&' ∉ f.toList →
    (r.dereference (u ++ "?service=" ++ f) s).1 = .ok (.service v)

/-- A result that is an addressable document, and no error. -/
def Shows (u : String) (v : Resolution) : Prop :=
  v.errorCode? = none ∧ ∃ d, v.document = some d ∧ d.Addressable u

variable {r : Resolver ω} {u url : String} {s : ω × κ} {parsed bare : Did} {v : Resolution}
  {d : Document}

theorem dereference_eq_resource [ResultCache κ] (hparse : Did.parse? url = some parsed)
    (hresolve : (r.resolveOrFail parsed.uri s).1 = .ok v) (herror : v.errorCode? = none)
    (hdocument : v.document = some d) : (r.dereference url s).1 = d.resource parsed := by
  have hof : v.documentOf parsed.uri = .ok d := by
    rw [Resolution.documentOf, herror, hdocument]
    rfl
  rw [dereference_of_parse? hparse, hresolve, Outcome.ok_bind, hof, Outcome.ok_bind]

/-- **What a document has is found**, where the bare DID resolves to it. -/
theorem finds_of_resolveOrFail [ResultCache κ] (hparse : Did.parse? u = some bare)
    (hbare : bare.isBare = true) (hresolve : (r.resolveOrFail u s).1 = .ok v)
    (herror : v.errorCode? = none) (hdocument : v.document = some d) (h : d.Addressable u) :
    r.Finds u s d := by
  have huri := Did.uri_of_isBare hparse hbare
  have hresource : ∀ {url parsed}, Did.parse? url = some parsed → parsed.uri = u →
      (r.dereference url s).1 = d.resource parsed := by
    rintro url parsed hurl rfl
    exact dereference_eq_resource hurl hresolve herror hdocument
  obtain ⟨hquery, hfragment⟩ : bare.query = none ∧ bare.fragment = none := by
    simp only [Did.isBare, Bool.and_eq_true, Option.isNone_iff_eq_none] at hbare
    exact ⟨hbare.1.2, hbare.2⟩
  refine ⟨?_, fun m hm f hid hf => ?_, fun v hv f hid hf hsharp hnone => ?_,
    fun v hv f hid hsharp hamp => ?_⟩
  · rw [hresource hparse huri]
    exact Document.resource_of_bare hquery hfragment
  · rw [hid, hresource (Did.parse?_fragment hparse hbare hf.line) huri]
    refine Document.resource_of_fragment rfl rfl ?_
    rw [Document.part?, Document.method?_fragment h hf hm hid]
    rfl
  · rw [hid] at hnone ⊢
    rw [hresource (Did.parse?_fragment hparse hbare hf.line) huri]
    refine Document.resource_of_fragment rfl rfl ?_
    rw [Document.part?, Document.method?_eq_none_of_fragment h.id hf hnone,
      Document.service?_fragment h hsharp hv hid]
    rfl
  · have hservice : '#' ∉ ("service=" ++ f).toList := by
      rw [String.toList_append]
      exact fun hmem => (List.mem_append.mp hmem).elim (by decide) hsharp
    have hurl : u ++ "?service=" ++ f = u ++ "?" ++ ("service=" ++ f) := by
      rw [← String.toList_inj]
      simp
    rw [hurl, hresource (Did.parse?_query hparse hbare hservice) huri]
    exact Document.resource_of_query (Did.queryMap_service rfl hamp)
      (Document.service?_fragment h hsharp hv hid)

/-- What is found after some requests is what the method has answered at some time. -/
theorem finds_after [LawfulCache κ] {m : DidMethod ω} (hparse : Did.parse? u = some bare)
    (hbare : bare.isBare = true) (hlast : r.IsLast bare.method m)
    (hanswer : ∀ w, r.exceeded? ((m.resolve u r.options).run w).1 = none ∧
      Shows u ((m.resolve u r.options).run w).1.result)
    {w : ω} {c : κ} (hempty : ∀ key v, ¬ LawfulCache.Holds c key v) (requests : List Request) :
    ∃ w' d, ((m.resolve u r.options).run w').1.result.document = some d ∧ d.Addressable u ∧
      r.Finds u (r.after requests (w, c)) d := by
  have hmethod : r.methodOf u = .ok m := methodOf_eq_ok.mpr ⟨bare, hparse, hlast⟩
  have hanswers : r.AnswersOnly fun key v =>
      key = u → ∃ w', ((m.resolve u r.options).run w').1.result = v := by
    rintro did m' w' hm' - rfl
    rw [hmethod] at hm'
    obtain rfl := Except.ok.inj hm'
    exact ⟨w', rfl⟩
  have hheld := holdsOnly_after (s := (w, c)) hanswers
    (fun key v hv => absurd hv (hempty key v)) requests
  -- a kept result is an earlier answer
  obtain ⟨w', hresolve⟩ : ∃ w', (r.resolveOrFail u (r.after requests (w, c))).1 =
      .ok ((m.resolve u r.options).run w').1.result := by
    rcases resolveOrFail_cases hmethod (r.after requests (w, c)) with ⟨v, hv, hfound⟩ | hasked
    · obtain ⟨w', rfl⟩ := hheld u v hfound rfl
      exact ⟨w', hv⟩
    · rw [awaited_of_inTime (hanswer _).1] at hasked
      exact ⟨_, hasked⟩
  obtain ⟨herror, d, hdocument, h⟩ := (hanswer w').2
  exact ⟨w', d, hdocument, h, finds_of_resolveOrFail hparse hbare hresolve herror hdocument h⟩

end Resolver

/-! ### The key method -/

namespace KeyMethod

variable {options : KeyOptions} {did : String} {d : Document}

theorem isPlainFragment_encode58 (data : Bytes) :
    IsPlainFragment (Multibase.encode58 data) where
  line hmem := absurd (Multibase.isIdChar_of_mem_encode58 hmem).1 (by decide)
  sharp := by simp [Multibase.encode58, Multibase.mark58]
  scheme := by
    simp only [Multibase.encode58, String.toList_ofList]
    rintro ⟨rest, hrest⟩
    exact absurd (List.cons.inj hrest).1 (by decide)

/-- The identifiers of the methods of a document are its DID with a multikey behind it. -/
theorem id_of_mem_methodList (h : document options did = .ok d) {m : Method}
    (hm : m ∈ d.methodList) : ∃ data, m.id = d.id ++ "#" ++ Multibase.encode58 data := by
  obtain ⟨parsed, -, hd⟩ := wellFormed_of_document h
  obtain ⟨codec, hpresents, -⟩ := hd.methods m hm
  obtain ⟨multikey, bytes, -, hid, hdecode, -⟩ := hpresents.key
  obtain ⟨data, hdata, -⟩ := Multikey.decode_eq_ok hdecode
  exact ⟨data, by rw [Multibase.encode58_of_decode? hdata, hid, hd.id]⟩

/-- The parts of the document of a key can be told apart. -/
theorem addressable_of_document (h : document options did = .ok d) : d.Addressable d.id := by
  obtain ⟨_, -, hd⟩ := wellFormed_of_document h
  obtain ⟨parsed, codec, key, primary, derived, -, -, -, -, -, -, -, rfl⟩ := document_eq_ok.mp h
  refine ⟨rfl, hd.distinct, ?_⟩
  rw [serviceList_assemble]
  exact List.nodup_nil

/-- A DID URL has the document of its bare DID. -/
theorem document_bare (h : document options did = .ok d) :
    ∃ bare, Did.parse? d.id = some bare ∧ bare.isBare = true ∧ bare.method = name ∧
      document options d.id = .ok d := by
  obtain ⟨parsed, codec, key, primary, derived, hparse, hmethod, -, -, -, -, -, rfl⟩ :=
    document_eq_ok.mp h
  have hbare := Did.parse?_uri hparse
  rw [id_assemble]
  exact ⟨parsed.bare, hbare, rfl, hmethod, (document_congr options hparse hbare rfl).trans h⟩

/-- What the key method resolves shows a document whose parts can be told apart. -/
theorem shows_resolve (h : document options did = .ok d) :
    (resolve options d.id).document = some d ∧ Resolver.Shows d.id (resolve options d.id) := by
  obtain ⟨-, -, -, -, hdocument⟩ := document_bare h
  have hresolve : resolve options d.id = .ofDocument d {} := by
    rw [resolve, hdocument]
    rfl
  rw [hresolve]
  exact ⟨rfl, rfl, d, rfl, addressable_of_document h⟩

end KeyMethod

namespace Resolver

variable {ω κ : Type}

/-- An answer that is there at once is never too late. -/
theorem exceeded?_of_zero {r : Resolver ω} {a : Answer} (h : a.after = .zero) :
    r.exceeded? a = none := by
  rw [exceeded?, h]
  refine Option.filter_eq_none_iff.mpr fun limit _ => ?_
  have hle : Duration.zero ≤ limit := Nat.zero_le _
  simpa using hle

/-- **What a document has is found under its identifier.** -/
theorem finds_of_shows :
    (∀ (ω κ : Type) [LawfulCache κ] (r : Resolver ω) (m : DidMethod ω) (u : String) (bare : Did),
      Did.parse? u = some bare → bare.isBare = true → r.IsLast bare.method m →
      (∀ w, r.exceeded? ((m.resolve u r.options).run w).1 = none ∧
        Shows u ((m.resolve u r.options).run w).1.result) →
      ∀ (w : ω) (c : κ), (∀ key v, ¬ LawfulCache.Holds c key v) → ∀ requests,
        ∃ w' d, ((m.resolve u r.options).run w').1.result.document = some d ∧ d.Addressable u ∧
          r.Finds u (r.after requests (w, c)) d) ∧
    ∀ (ω κ : Type) [LawfulCache κ] (r : Resolver ω) (options : KeyOptions) (did : String)
      (d : Document), r.IsLast KeyMethod.name (KeyMethod.didMethod options) →
      KeyMethod.document options did = .ok d →
      ∀ (w : ω) (c : κ), (∀ key v, ¬ LawfulCache.Holds c key v) → ∀ requests,
        r.Finds d.id (r.after requests (w, c)) d ∧
        ∀ m ∈ d.methodList, (r.dereference m.id (r.after requests (w, c))).1 = .ok (.method m) := by
  refine ⟨fun ω κ _ r m u bare hparse hbare hlast hanswer w c hempty requests =>
    finds_after hparse hbare hlast hanswer hempty requests, ?_⟩
  intro ω κ _ r options did d hlast hdocument w c hempty requests
  obtain ⟨bare, hparse, hbare, hmethod, -⟩ := KeyMethod.document_bare hdocument
  obtain ⟨hshown, hshows⟩ := KeyMethod.shows_resolve hdocument
  rw [← hmethod] at hlast
  obtain ⟨w', d', hd', -, hfinds⟩ := finds_after hparse hbare hlast
    (fun w => ⟨exceeded?_of_zero rfl, hshows⟩) (w := w) hempty requests
  obtain rfl : d = d' := Option.some.inj (hshown.symm.trans hd')
  refine ⟨hfinds, fun m hm => ?_⟩
  obtain ⟨data, hid⟩ := KeyMethod.id_of_mem_methodList hdocument hm
  exact hfinds.method m hm _ hid (KeyMethod.isPlainFragment_encode58 data)

/-- A method of the sample document, whose fragment has a number sign in it. -/
def sampleMethod : Method where
  id := "did:example:a#key#1"
  type := "Multikey"
  controller := "did:example:a"
  key := .multibase "z6Mk"

/-- A service of the sample document. -/
def sampleService : Service :=
  .ofUrl "did:example:a#files" "Files" "https://files.example"

/-- A document with a method and a service. -/
def sampleDocument : Document where
  id := "did:example:a"
  methods := some [sampleMethod]
  services := some [sampleService]

/-- A DID method that knows this document only. -/
def sampleRegistry : DidMethod Unit where
  name := "example"
  resolve _ _ := return { result := .ofDocument sampleDocument {} }

/-- A resolver for this method. -/
def sampleResolver : Resolver Unit where
  methods := [sampleRegistry]

theorem finds_of_shows_sample :
    (sampleResolver.dereference "did:example:a#key#1"
      (sampleResolver.after [.resolve "did:example:a"] ((), ({} : MemoryCache)))).1 =
        .ok (.method sampleMethod) ∧
    (sampleResolver.dereference "did:example:a?service=files"
      (sampleResolver.after [.resolve "did:example:a"] ((), ({} : MemoryCache)))).1 =
        .ok (.service sampleService) := by
  have hshows : Shows "did:example:a" (.ofDocument sampleDocument {}) :=
    ⟨rfl, sampleDocument, rfl, rfl, by decide, by decide⟩
  obtain ⟨w', d, hd, -, hfinds⟩ := finds_of_shows.1 Unit MemoryCache sampleResolver sampleRegistry
    "did:example:a" (Did.ofParts (Did.bareParts "example".toList "a".toList)) (by decide +kernel)
    rfl ⟨[], [], rfl, rfl, by simp⟩ (fun _ => ⟨rfl, hshows⟩) () {}
    (fun key v => holdsOnly_memory (fun _ _ => False) none key v) [.resolve "did:example:a"]
  obtain rfl : sampleDocument = d := Option.some.inj hd
  exact ⟨hfinds.method sampleMethod (by simp [sampleDocument, Document.methodList]) "key#1"
      (by decide) ⟨by decide, by decide, by decide⟩,
    hfinds.query sampleService (by simp [sampleDocument, Document.serviceList]) "files"
      (by decide) (by decide) (by decide)⟩

end Resolver

end DidMethods
