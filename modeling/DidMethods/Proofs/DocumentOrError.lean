import DidMethods.IonMethod.LongForm
import DidMethods.Proofs.ResolverRequests
import DidMethods.Resolver.Standard

/-!
# A document or an error

A result has a document or an error, and not both (`DidMethods.Resolution.DocumentOrError`). This
holds of what the key method and the ion method come to, whatever becomes of the calls to a gateway,
and of long forms that are resolved by themselves; so it holds of all that a cache ever holds, and of every result
that a resolver for these methods gives (`DidMethods.Resolver.resolve_documentOrError`).

Through a gateway there is a document exactly if the gateway serves one
(`DidMethods.IonMethod.Served`), and then it is the one that is served.
-/

namespace DidMethods

namespace Resolution

/-- There is a document and no error, or an error and no document. -/
def DocumentOrError (r : Resolution) : Prop :=
  (r.document.isSome = true ∧ r.errorCode? = none) ∨
    (r.document = none ∧ r.errorCode?.isSome = true)

variable {r : Resolution}

theorem DocumentOrError.isOk_eq (h : r.DocumentOrError) : r.isOk = r.errorCode?.isNone := by
  rcases h with ⟨hdocument, herror⟩ | ⟨hdocument, herror⟩
  · have hnone : r.metadata.error = none := herror
    simp [isOk, errorCode?, hdocument, hnone]
  · have hsome : r.metadata.error.isNone = false := by
      simpa [errorCode?] using herror
    simp [isOk, errorCode?, hdocument, hsome]

theorem documentOrError_ofDocument (d : Document) (m : DocumentMetadata) :
    (ofDocument d m).DocumentOrError :=
  Or.inl ⟨rfl, rfl⟩

theorem documentOrError_ofError (c : Code) (message : Option String) :
    (ofError c message).DocumentOrError :=
  Or.inr ⟨rfl, rfl⟩

theorem documentOrError_ofOutcome {o : Outcome Resolution}
    (h : ∀ r, o = .ok r → r.DocumentOrError) : (ofOutcome o).DocumentOrError := by
  cases o with
  | ok r => exact h r rfl
  | error f => exact documentOrError_ofError _ _

end Resolution

theorem KeyMethod.documentOrError_resolve (options : KeyOptions) (did : String) :
    (KeyMethod.resolve options did).DocumentOrError := by
  refine Resolution.documentOrError_ofOutcome fun r hr => ?_
  obtain ⟨d, -, rfl⟩ := Outcome.map_eq_ok.mp hr
  exact Resolution.documentOrError_ofDocument d {}

namespace IonMethod

theorem documentOrError_longForm (did : String) : (LongForm.resolve did).DocumentOrError := by
  rw [LongForm.resolve]
  split
  · exact Resolution.documentOrError_ofDocument _ _
  · exact Resolution.documentOrError_ofError _ _

/-! ### Through a gateway -/

/-- The gateway serves an answer for a DID: the text is a DID of this method, the URL of the DID at
the gateway is one, the call there is answered with success, and the body can be read. -/
def Served (m : IonMethod) (gateway? : Option String) (did : String) (c : Http.Client)
    (answer : GatewayAnswer) : Prop :=
  ∃ parsed url status body, Did.parse? did = some parsed ∧ parsed.method = name ∧
    Url.parse s!"{m.gatewayFor gateway?}/identifiers/{parsed.uri}" = .ok url ∧
    ((Http.Client.call (identifierRequest url)).run c).1.answer = .answered status body ∧
    Http.isSuccess status = true ∧ GatewayAnswer.parse? body = some answer

/-- The method itself says whether the DID is anchored. -/
def SaysAnchored (m : DocumentMetadata) (b : Bool) : Prop :=
  ∃ v, m.additional.lookup "method" = some v ∧ v.get? "published" = some (.bool b)

theorem anchored?_eq_some {m : DocumentMetadata} {b : Bool} :
    anchored? m = some b ↔ SaysAnchored m b := by
  have hbool : ∀ v : Json, v.bool? = some b ↔ v = .bool b := by
    intro v
    cases v <;> simp [Json.bool?]
  simp only [anchored?, SaysAnchored, Option.bind_eq_bind, Option.bind_eq_some_iff, hbool,
    exists_eq_right]

variable {m : IonMethod} {gateway? : Option String} {did uri : String} {c : Http.Client}

theorem subject_eq_ok :
    subject did = .ok uri ↔
      ∃ parsed, Did.parse? did = some parsed ∧ parsed.method = name ∧ parsed.uri = uri := by
  rw [subject, Outcome.bind_eq_ok]
  refine exists_congr fun parsed => and_congr Outcome.orFail_eq_ok ?_
  by_cases hmethod : parsed.method = name
  · simp [hmethod, pure, Except.pure]
  · simp only [ne_eq, hmethod, not_false_eq_true, if_true, false_and, iff_false]
    exact nofun

theorem resolutionOfAnswer_of_success {status : Nat} {body : Bytes} {answer : GatewayAnswer}
    (hstatus : Http.isSuccess status = true) (hbody : GatewayAnswer.parse? body = some answer) :
    resolutionOfAnswer uri status body =
      match answer.document with
      | none => .ok (.ofError .notFound s!"no document for {uri}")
      | some d => .ok (.ofDocument d (withAnchored answer.metadata)) := by
  rw [resolutionOfAnswer, hbody]
  simp only [hstatus, not_true_eq_false, if_false]
  rfl

/-- What a call ends with has a document in it, or it comes to an error. -/
theorem resolutionOfReply_cases (uri : String) (reply : Http.Answer) :
    (∃ status body answer d, reply = .answered status body ∧ Http.isSuccess status = true ∧
      GatewayAnswer.parse? body = some answer ∧ answer.document = some d) ∨
    ∃ code message, Resolution.ofOutcome (resolutionOfReply uri reply) = .ofError code message := by
  cases reply with
  | failed => exact Or.inr ⟨_, _, rfl⟩
  | answered status body =>
    by_cases hstatus : Http.isSuccess status = true
    · cases hbody : GatewayAnswer.parse? body with
      | none =>
        refine Or.inr ⟨.internalError, some "failed to deserialize resolution", ?_⟩
        rw [resolutionOfReply, resolutionOfAnswer, hbody, if_neg (not_not_intro hstatus)]
        rfl
      | some answer =>
        cases hdocument : answer.document with
        | none =>
          refine Or.inr ⟨.notFound, some s!"no document for {uri}", ?_⟩
          rw [resolutionOfReply, resolutionOfAnswer_of_success hstatus hbody, hdocument]
          rfl
        | some d => exact Or.inl ⟨status, body, answer, d, rfl, hstatus, hbody, hdocument⟩
    · refine Or.inr ⟨.notFound, some s!"gateway returned {Http.statusText status}", ?_⟩
      rw [resolutionOfReply, resolutionOfAnswer, if_pos hstatus]
      rfl

theorem result_of_url {parsed : Did} {url : Url} (hparse : Did.parse? did = some parsed)
    (hmethod : parsed.method = name)
    (hurl : Url.parse s!"{m.gatewayFor gateway?}/identifiers/{parsed.uri}" = .ok url) :
    ((m.resolve gateway? did).run c).1.result =
      .ofOutcome (resolutionOfReply parsed.uri
        ((Http.Client.call (identifierRequest url)).run c).1.answer) := by
  rw [resolve, subject_eq_ok.mpr ⟨parsed, hparse, hmethod, rfl⟩]
  dsimp only
  rw [askGateway, hurl]
  rfl

/-- What is served is the result. -/
theorem result_of_served {answer : GatewayAnswer} {d : Document}
    (h : m.Served gateway? did c answer) (hdocument : answer.document = some d) :
    ((m.resolve gateway? did).run c).1.result =
      .ofDocument d (withAnchored answer.metadata) := by
  obtain ⟨parsed, url, status, body, hparse, hmethod, hurl, hreply, hstatus, hbody⟩ := h
  rw [result_of_url hparse hmethod hurl, hreply, resolutionOfReply,
    resolutionOfAnswer_of_success hstatus hbody, hdocument]
  rfl

/-- A resolution has what is served, or it comes to an error. -/
theorem resolve_cases (m : IonMethod) (gateway? : Option String) (did : String) (c : Http.Client) :
    (∃ answer d, m.Served gateway? did c answer ∧ answer.document = some d) ∨
      ∃ code message, ((m.resolve gateway? did).run c).1.result = .ofError code message := by
  cases hsubject : subject did with
  | error f =>
    refine Or.inr ⟨f.code, some f.message, ?_⟩
    rw [resolve, hsubject]
    rfl
  | ok uri =>
    obtain ⟨parsed, hparse, hmethod, rfl⟩ := subject_eq_ok.mp hsubject
    cases hurl : Url.parse s!"{m.gatewayFor gateway?}/identifiers/{parsed.uri}" with
    | error f =>
      refine Or.inr ⟨f.code, some f.message, ?_⟩
      rw [resolve, hsubject]
      dsimp only
      rw [askGateway, hurl]
      rfl
    | ok url =>
      rw [result_of_url hparse hmethod hurl]
      rcases resolutionOfReply_cases parsed.uri
        ((Http.Client.call (identifierRequest url)).run c).1.answer with h | h
      · obtain ⟨status, body, answer, d, hreply, hstatus, hbody, hdocument⟩ := h
        exact Or.inl ⟨answer, d, ⟨parsed, url, status, body, hparse, hmethod, hurl, hreply, hstatus,
          hbody⟩, hdocument⟩
      · exact Or.inr h

theorem documentOrError_resolve (m : IonMethod) (gateway? : Option String) (did : String)
    (c : Http.Client) : ((m.resolve gateway? did).run c).1.result.DocumentOrError := by
  rcases m.resolve_cases gateway? did c with ⟨answer, d, hserved, hdocument⟩ | ⟨_, _, herror⟩
  · rw [result_of_served hserved hdocument]
    exact Resolution.documentOrError_ofDocument _ _
  · rw [herror]
    exact Resolution.documentOrError_ofError _ _

/-- The word of the method on whether the DID is anchored counts, if there is one. -/
theorem withAnchored_eq (m : DocumentMetadata) :
    ∃ published, withAnchored m = { m with published } ∧
      (∀ b, SaysAnchored m b → published = some b) ∧
      ((∀ b, ¬ SaysAnchored m b) → published = m.published) := by
  refine ⟨_, rfl, fun b hb => ?_, fun hsilent => ?_⟩
  · rw [anchored?_eq_some.mpr hb, Option.some_or]
  · have hnone : anchored? m = none :=
      Option.eq_none_iff_forall_ne_some.mpr fun b hb => hsilent b (anchored?_eq_some.mp hb)
    rw [hnone, Option.none_or]

end IonMethod

/-! ### Through a resolver -/

namespace Resolver

variable {ω κ : Type}

/-- The resolver knows no methods but the key method and the ion method, however often and in
whatever configurations. -/
def IsStandard [Online ω] (r : Resolver ω) : Prop :=
  ∀ m ∈ r.methods, (∃ options, m = KeyMethod.didMethod options) ∨
    ∃ ion : IonMethod, m = ion.didMethod

theorem IsStandard.answersOnly [Online ω] {r : Resolver ω} (hr : r.IsStandard) :
    r.AnswersOnly fun _ v => v.DocumentOrError := by
  intro did m w hmethod _
  rcases hr m (mem_of_methodOf hmethod) with ⟨options, rfl⟩ | ⟨ion, rfl⟩
  · exact KeyMethod.documentOrError_resolve options did
  · exact ion.documentOrError_resolve r.options.gateway did (Online.client w)

/-- With answers that are documents or errors, so is every result. -/
theorem documentOrError_resolve [LawfulCache κ] {r : Resolver ω}
    (hr : r.AnswersOnly fun _ v => v.DocumentOrError) {s : ω × κ}
    (hs : HoldsOnly (fun _ v => v.DocumentOrError) s.2) (did : String) :
    ((r.resolve did).run s).1.DocumentOrError := by
  change (Resolution.ofOutcome (r.resolveOrFail did s).1).DocumentOrError
  refine Resolution.documentOrError_ofOutcome fun v hv => ?_
  obtain ⟨calls, hcourse⟩ := r.exists_course did s
  rw [hv] at hcourse
  generalize (r.resolveOrFail did s).2 = s' at hcourse
  cases hcourse with
  | found _ _ hheld => exact hs did v hheld
  | late => exact Resolution.documentOrError_ofError _ _
  | answered hmethod _ hask hlimit => exact hr.of_ask hmethod hask hlimit

/-- **Every resolution is either a document or an error.** This is so for the key method with any
options, for the ion method whatever the gateway does, for long forms, and for a resolver for these
methods after any requests, with a cache or without. Such a result is fine unless it has an error
code. Through a gateway there is a document exactly if one is served for the DID, and the result is
what is served, except that the method's own word on whether the DID is anchored counts. -/
theorem resolve_documentOrError :
    (∀ options did, (KeyMethod.resolve options did).DocumentOrError) ∧
    (∀ (m : IonMethod) gateway? did c,
      ((m.resolve gateway? did).run c).1.result.DocumentOrError) ∧
    (∀ did, (IonMethod.LongForm.resolve did).DocumentOrError) ∧
    (∀ (ω : Type) [Online ω] (r : Resolver ω), r.IsStandard → ∀ requests did w,
      ((r.resolve did).run (r.after requests (w, NoCache.mk))).1.DocumentOrError ∧
      ∀ lifetime, ((r.resolve did).run
        (r.after requests (w, ({ lifetime } : MemoryCache)))).1.DocumentOrError) ∧
    (∀ v : Resolution, v.DocumentOrError → v.isOk = v.errorCode?.isNone) ∧
    ∀ (m : IonMethod) gateway? did c, let v := ((m.resolve gateway? did).run c).1.result
      (v.document.isSome = true ↔
        ∃ answer, m.Served gateway? did c answer ∧ answer.document.isSome = true) ∧
      ∀ answer d, m.Served gateway? did c answer → answer.document = some d →
        ∃ published, v = .ofDocument d { answer.metadata with published } ∧
          (∀ b, IonMethod.SaysAnchored answer.metadata b → published = some b) ∧
          ((∀ b, ¬ IonMethod.SaysAnchored answer.metadata b) →
            published = answer.metadata.published) := by
  refine ⟨KeyMethod.documentOrError_resolve, IonMethod.documentOrError_resolve,
    IonMethod.documentOrError_longForm, ?_, fun v => Resolution.DocumentOrError.isOk_eq, ?_⟩
  · intro ω _ r hr requests did w
    have hanswers := hr.answersOnly
    refine ⟨?_, fun lifetime => ?_⟩
    · exact documentOrError_resolve hanswers
        (holdsOnly_after hanswers (holdsOnly_noCache _) requests) did
    · exact documentOrError_resolve hanswers
        (holdsOnly_after hanswers (holdsOnly_memory _ lifetime) requests) did
  · intro m gateway? did c v
    refine ⟨⟨fun hdocument => ?_, ?_⟩, fun answer d hserved hdocument => ?_⟩
    · rcases m.resolve_cases gateway? did c with ⟨answer, d, hserved, hsome⟩ | ⟨_, _, herror⟩
      · exact ⟨answer, hserved, Option.isSome_iff_exists.mpr ⟨d, hsome⟩⟩
      · have hnone : v.document = none := congrArg Resolution.document herror
        rw [hnone] at hdocument
        cases hdocument
    · rintro ⟨answer, hserved, hsome⟩
      obtain ⟨d, hdocument⟩ := Option.isSome_iff_exists.mp hsome
      have hv : v = _ := IonMethod.result_of_served hserved hdocument
      rw [hv]
      rfl
    · obtain ⟨published, hmetadata, hsays, hsilent⟩ := IonMethod.withAnchored_eq answer.metadata
      exact ⟨published, hmetadata ▸ IonMethod.result_of_served hserved hdocument, hsays, hsilent⟩

/-- A DID of the ion method. -/
def anchoredDid : Did where
  uri := "did:ion:a"
  url := "did:ion:a"
  method := "ion"
  id := "a"
  params := none
  path := none
  query := none
  fragment := none

/-- What a gateway says of a DID that the method has anchored, after a remark that is no text. -/
def anchoredBody : Bytes :=
  Bytes.ofString "\x7b\"remark\":\"" ++ 0xff ::
    Bytes.ofString ("\",\"didDocument\":\x7b\"id\":\"did:ion:a\"\x7d,"
      ++ "\"didDocumentMetadata\":\x7b\"method\":\x7b\"published\":true\x7d\x7d\x7d")

/-- What can be read there. -/
def anchoredAnswer : IonMethod.GatewayAnswer where
  document := some { id := "did:ion:a" }
  metadata := { additional := [("method", .object [("published", .bool true)])] }

/-- A client all whose calls end with this answer. -/
def granting : Http.Client where
  reply _ _ := { answer := .answered 200 anchoredBody }

theorem served_granting :
    (IonMethod.ofGateway "http://g").Served none "did:ion:a" granting anchoredAnswer := by
  have hurl : ((Url.parse s!"http://g/identifiers/did:ion:a").toOption.map Http.isWeb) =
      some true := by decide +kernel
  obtain ⟨url, hurl, hweb⟩ := Option.map_eq_some_iff.mp hurl
  refine ⟨anchoredDid, url, 200, anchoredBody, by decide +kernel, rfl,
    Outcome.toOption_eq_some.mp hurl, ?_, rfl, by decide +kernel⟩
  change (Http.Client.call (IonMethod.identifierRequest url) granting).1.answer = _
  have hcall : Http.isWeb (IonMethod.identifierRequest url).url = true := hweb
  rw [Http.Client.call_of_isWeb hcall]
  rfl

theorem resolve_documentOrError_granting :
    (((IonMethod.ofGateway "http://g").resolve none "did:ion:a").run granting).1.result =
      .ofDocument { id := "did:ion:a" } { anchoredAnswer.metadata with published := some true } ∧
    (((Resolver.standard (some "http://g")).resolve "did:ion:a#b").run
      ((Resolver.standard (some "http://g")).after [.resolve "did:ion:a#b", .clear]
        (granting, ({} : MemoryCache)))).1.DocumentOrError := by
  obtain ⟨-, -, -, hresolver, -, hgateway⟩ := resolve_documentOrError
  refine ⟨?_, ?_⟩
  · obtain ⟨published, hv, hsays, -⟩ :=
      (hgateway _ none "did:ion:a" granting).2 anchoredAnswer _ served_granting rfl
    rw [hv, hsays true ⟨_, rfl, rfl⟩]
  · refine (hresolver Http.Client _ (fun m hm => ?_) _ _ granting).2 none
    rcases List.mem_cons.mp hm with rfl | hm
    · exact Or.inl ⟨_, rfl⟩
    · exact Or.inr ⟨_, List.mem_singleton.mp hm⟩

end Resolver

end DidMethods
