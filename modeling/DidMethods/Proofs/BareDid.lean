import DidMethods.Proofs.Dereference
import DidMethods.Proofs.DocumentOrError
import DidMethods.Proofs.LongForm

/-!
# A DID URL resolves as its DID

What follows the identifier of a DID URL selects a part of what the DID resolves to; it has no
influence on what that is. The bare DID of a URL is a DID of the same method and identifier
(`DidMethods.Did.parse?_uri`), and it is all that is looked at: the gateway of an ion DID is asked
for it (`DidMethods.IonMethod.resolve_uri`), the document of a long form is the one for it
(`DidMethods.IonMethod.LongForm.coded_document`), and so is the document of a key.

The only thing that tells two DID URLs of one DID apart is the sentence about a DID that is no long
form, which quotes the URL.
-/

namespace DidMethods

variable {u : String} {d : Did}

/-- A DID URL is bare if it is the same text as its bare DID. -/
theorem Did.isBare_iff (h : parse? u = some d) : d.isBare = true ↔ d.url = d.uri := by
  have hurl := url_of_parse? h
  constructor
  · exact fun hbare => hurl.trans (uri_of_isBare h hbare).symm
  · intro heq
    -- the text is read as what it is, and as what is left of it
    have hparse := parse?_uri h
    rw [← heq, hurl, h] at hparse
    rw [Option.some.inj hparse]
    rfl

theorem Did.parse_of_parse? (h : parse? u = some d) : parse u = .ok d :=
  Outcome.orFail_eq_ok.mpr h

namespace IonMethod

/-! ### Through a gateway -/

/-- A DID URL is about its bare DID. -/
theorem subject_uri (h : Did.parse? u = some d) : subject u = subject d.uri := by
  rw [subject, subject, Did.parse_of_parse? h, Did.parse_of_parse? (Did.parse?_uri h)]
  rfl

/-- **A gateway does not see the difference** between a DID URL and its bare DID. -/
theorem resolve_uri (h : Did.parse? u = some d) (m : IonMethod) (gateway? : Option String) :
    m.resolve gateway? u = m.resolve gateway? d.uri := by
  rw [resolve, resolve, subject_uri h]

/-- The calls to a gateway for a bare DID: a single one, unless its URL is none or cannot be sent
to. -/
def identifierRequests (gateway uri : String) : List Http.Request :=
  match Url.parse s!"{gateway}/identifiers/{uri}" with
  | .ok url => if Http.isWeb url then [identifierRequest url] else []
  | .error _ => []

theorem askGateway_snd (gateway uri : String) (c : Http.Client) :
    ((askGateway gateway uri).run c).2 =
      { c with calls := identifierRequests gateway uri ++ c.calls } := by
  rw [askGateway, identifierRequests]
  cases Url.parse s!"{gateway}/identifiers/{uri}" with
  | error f => rfl
  | ok url =>
    change (Http.Client.call (identifierRequest url) c).2 = _
    by_cases hweb : Http.isWeb url = true
    · have hcall : Http.isWeb (identifierRequest url).url = true := hweb
      rw [Http.Client.call_of_isWeb hcall]
      simp only [hweb, if_true]
      rfl
    · have hcall : Http.isWeb (identifierRequest url).url ≠ true := hweb
      rw [Http.Client.call_of_not_isWeb hcall]
      simp only [hweb]
      rfl

/-- A gateway is asked for the bare DID. -/
theorem resolve_snd (h : Did.parse? u = some d) (hmethod : d.method = name) (m : IonMethod)
    (gateway? : Option String) (c : Http.Client) :
    ((m.resolve gateway? u).run c).2 =
      { c with calls := identifierRequests (m.gatewayFor gateway?) d.uri ++ c.calls } := by
  rw [resolve, subject_eq_ok.mpr ⟨d, h, hmethod, rfl⟩]
  exact askGateway_snd _ _ c

/-! ### By itself -/

namespace LongForm

/-- What taking a DID URL apart comes to, by its parts. -/
theorem parse_of_parse? (h : Did.parse? u = some d) :
    parse u =
      if d.method ≠ name then
        fail .methodNotSupported s!"method not supported: {d.method}"
      else
        (orFail .invalidDid s!"{u} is not a long-form DID" (Text.cutLast ':' d.id.toList)).map
          fun cut => ⟨d.uri, String.ofList cut.1, String.ofList cut.2⟩ := by
  rw [parse, Did.parse_of_parse? h, Outcome.ok_bind]
  by_cases hmethod : d.method = name
  · simp only [hmethod, ne_eq, not_true_eq_false, if_false]
    cases Text.cutLast ':' d.id.toList <;> rfl
  · simp only [hmethod, ne_eq, not_false_eq_true, if_true]
    rfl

/-- What has been taken apart is a DID URL, with its bare DID. -/
theorem exists_of_parse {l : LongForm} (h : parse u = .ok l) :
    ∃ d, Did.parse? u = some d ∧ d.uri = l.uri := by
  obtain ⟨d, hd, -⟩ := Outcome.bind_eq_ok.mp h
  have hparse := Outcome.orFail_eq_ok.mp hd
  rw [parse_of_parse? hparse] at h
  obtain ⟨-, h⟩ := Outcome.ite_fail_eq_ok.mp h
  obtain ⟨cut, -, rfl⟩ := Outcome.map_eq_ok.mp h
  exact ⟨d, hparse, rfl⟩

/-- A DID URL of a long form is taken apart as the long form. -/
theorem coded_parse (h : Did.parse? u = some d) : (parse u).coded = (parse d.uri).coded := by
  rw [parse_of_parse? h, parse_of_parse? (Did.parse?_uri h)]
  by_cases hmethod : d.method = name
  · -- the two sentences differ in the text that they quote
    simp only [Did.bare, hmethod, ne_eq, not_true_eq_false, if_false, Outcome.coded_map]
    cases Text.cutLast ':' d.id.toList <;> rfl
  · simp only [Did.bare, hmethod, ne_eq, not_false_eq_true, if_true]

/-- **The document of a DID URL is the one of its bare DID.** -/
theorem coded_document (h : Did.parse? u = some d) :
    (document u).coded = (document d.uri).coded := by
  rw [document, document, Outcome.coded_bind, Outcome.coded_bind, coded_parse h]

/-- What a long form resolves to, but for the sentence about a failure. -/
theorem resolve_congr {s t : String} (h : (document s).coded = (document t).coded) :
    (resolve s).document = (resolve t).document ∧
      (resolve s).documentMetadata = (resolve t).documentMetadata ∧
      (resolve s).errorCode? = (resolve t).errorCode? := by
  rw [resolve, resolve]
  cases hs : document s with
  | ok found =>
    cases ht : document t with
    | ok other =>
      rw [hs, ht] at h
      rw [Except.ok.inj h]
      exact ⟨rfl, rfl, rfl⟩
    | error f =>
      rw [hs, ht] at h
      cases h
  | error f =>
    cases ht : document t with
    | ok other =>
      rw [hs, ht] at h
      cases h
    | error g =>
      rw [hs, ht] at h
      have hcode : f.code = g.code := Except.error.inj h
      simp only [hcode]
      exact ⟨rfl, rfl, rfl⟩

end LongForm

end IonMethod

/-! ### The bare DID is all that counts -/

open IonMethod

/-- **A DID URL resolves as its bare DID.** What is left of the URL without all that follows the
identifier is a DID, and the URL is bare if that is the whole of it. Through a gateway the two come
to the same answer at the same time, and the same request is sent for both, the one for the bare
DID. By themselves they come to the same document with the same metadata, or to errors of one code.
The key method has the same document for both, or the same failure. -/
theorem Did.resolves_as_bare (h : Did.parse? u = some d) :
    Did.parse? d.uri = some d.bare ∧ (d.isBare = true ↔ d.url = d.uri) ∧
      (∀ (m : IonMethod) gateway?, m.resolve gateway? u = m.resolve gateway? d.uri) ∧
      (d.method = name → ∀ (m : IonMethod) gateway? c,
        ((m.resolve gateway? u).run c).2 =
          { c with calls := identifierRequests (m.gatewayFor gateway?) d.uri ++ c.calls }) ∧
      ((LongForm.resolve u).document = (LongForm.resolve d.uri).document ∧
        (LongForm.resolve u).documentMetadata = (LongForm.resolve d.uri).documentMetadata ∧
        (LongForm.resolve u).errorCode? = (LongForm.resolve d.uri).errorCode?) ∧
      ∀ options, KeyMethod.document options u = KeyMethod.document options d.uri :=
  ⟨parse?_uri h, isBare_iff h, resolve_uri h,
    fun hmethod m gateway? => resolve_snd h hmethod m gateway?,
    LongForm.resolve_congr (LongForm.coded_document h),
    fun options => KeyMethod.document_congr options (parse?_uri h) h rfl⟩

/-- A DID URL with every part. -/
def Did.anchoredUrl : String := "did:ion:a;v=1/p?service=x?#key-1/?"

theorem Did.resolves_as_bare_anchored :
    (((ofGateway "http://g").resolve none anchoredUrl).run Resolver.granting).1.result.document =
        some { id := "did:ion:a" } ∧
      (((ofGateway "http://g").resolve none anchoredUrl).run Resolver.granting).2.calls =
        identifierRequests "http://g" "did:ion:a" ∧
      (identifierRequests "http://g" "did:ion:a").length = 1 ∧
      (LongForm.resolve (longForm none sampleRequest ++ "#" ++ "key-1")).document =
        some (sampleState.ordered.toDocument (longForm none sampleRequest)) := by
  have hparts : (parse? anchoredUrl).map (fun d => (d.method, d.uri)) =
      some (name, "did:ion:a") := by
    decide +kernel
  obtain ⟨anchored, hanchored, hparts⟩ := Option.map_eq_some_iff.mp hparts
  obtain ⟨hmethod, huri⟩ := Prod.mk.inj hparts
  obtain ⟨-, -, hanswer, hsent, -⟩ := resolves_as_bare hanchored
  have hgateway : (ofGateway "http://g").gatewayFor none = "http://g" := by decide +kernel
  have hnetwork : ∀ n ∈ (none : Option String), n ≠ "" → IsNetwork n := nofun
  obtain ⟨long, hlong, hlongUri⟩ :=
    LongForm.exists_of_parse (LongForm.parse_longForm hnetwork sampleRequest)
  have hbare := (isBare_iff hlong).mpr ((url_of_parse? hlong).trans hlongUri.symm)
  obtain ⟨-, -, -, -, ⟨hdocument, -⟩, -⟩ :=
    resolves_as_bare (parse?_fragment hlong hbare (f := "key-1") (by decide))
  refine ⟨?_, ?_, by decide +kernel, ?_⟩
  · rw [hanswer, huri, result_of_served Resolver.served_granting rfl]
    rfl
  · rw [hsent hmethod, huri, hgateway]
    exact List.append_nil _
  · rw [hdocument, hlongUri, LongForm.resolve, document_sample hnetwork]
    rfl

end DidMethods
