import DidMethods.Resolver.Basic

/-!
# Resources of a document

A DID URL addresses a document or a part of it: a verification method or a service
(`Document.resource`). To dereference the URL is to resolve its bare DID and to find the part
(`Resolver.dereference`).
-/

namespace DidMethods

/-- What a DID URL addresses. -/
inductive Resource where
  /-- The document itself. -/
  | document (d : Document)
  /-- A verification method. -/
  | method (m : Method)
  /-- A service. -/
  | service (s : Service)
deriving DecidableEq, Repr

/-- The part of a document that a fragment addresses: a verification method, or else a service. -/
def Document.part? (d : Document) (fragment : String) : Option Resource :=
  ((d.method? fragment).map .method).or ((d.service? fragment).map .service)

/-- What a DID URL addresses in the document of its DID. A service that the query names comes before
whatever the fragment names. -/
def Document.resource (d : Document) (url : Did) : Outcome Resource :=
  match url.queryMap.lookup "service", url.fragment with
  | some id, _ =>
    orFail .notFound s!"service {id} not found in document" ((d.service? id).map .service)
  | none, none => .ok (.document d)
  | none, some fragment => orFail .notFound s!"{url.url} not found in document" (d.part? fragment)

/-- The document that a resolution came to, or the failure that it came to an error. -/
def Resolution.documentOf (r : Resolution) (uri : String) : Outcome Document :=
  match r.errorCode? with
  | some code =>
    let message := r.metadata.errorMessage.getD ""
    fail code s!"failed to resolve {uri}: {message}"
  | none => orFail .notFound s!"no document for {uri}" r.document

/-- Find what a DID URL addresses. -/
def Resolver.dereference {ω κ : Type} [ResultCache κ] (r : Resolver ω) (url : String) :
    Action (ω × κ) Resource := do
  let parsed ← Action.ofOutcome (orFail .invalidDidUrl s!"invalid DID URL: {url}" (Did.parse? url))
  let result ← r.resolveOrFail parsed.uri
  let document ← Action.ofOutcome (result.documentOf parsed.uri)
  Action.ofOutcome (document.resource parsed)

end DidMethods
