import DidMethods.Did.Basic
import DidMethods.Resolver.Answer
import DidMethods.Resolver.Cache
import DidMethods.Text.Quoted

/-!
# Resolvers

A resolver knows some DID methods and passes each DID on to the one that it names
(`Resolver.resolveOrFail`). What has been resolved before is taken from a cache, by the very text
that was asked for: a DID URL and its bare DID have entries of their own, and a result that is an
error is kept like any other. A method that takes longer than the resolver waits gives a result that
says so, which is not kept.

The state of a resolution is a pair: what the methods need to know of the world, and the cache.
-/

namespace DidMethods

/-- What a method is told besides the DID. -/
structure ResolutionOptions where
  /-- The gateway to use instead of the one that a method is configured with. -/
  gateway : Option String := none
deriving DecidableEq, Repr

/-- A DID method as a resolver sees it, in a world `ω`. -/
structure DidMethod (ω : Type) where
  /-- The name of the method. -/
  name : String
  /-- Resolve a DID or DID URL of the method. -/
  resolve : String → ResolutionOptions → StateM ω Answer

/-- A resolver for some methods. -/
structure Resolver (ω : Type) where
  /-- The methods in the order of their registration. -/
  methods : List (DidMethod ω) := []
  /-- How long an answer is waited for. -/
  timeout : Option Duration := none
  /-- What every method is told. -/
  options : ResolutionOptions := {}

namespace Resolver

variable {ω κ : Type}

/-- The method of a name, the last one that was registered. -/
def find? (r : Resolver ω) (name : String) : Option (DidMethod ω) :=
  r.methods.reverse.find? fun m => m.name == name

/-- The names of the methods in order, each once. -/
def methodNames (r : Resolver ω) : List String :=
  (r.methods.map DidMethod.name).eraseDups.mergeSort (· ≤ ·)

/-- The resolver as it is shown to a developer. -/
def toText (r : Resolver ω) : String :=
  let names := ", ".intercalate (r.methodNames.map Text.quote)
  let timeout := match r.timeout with
    | some limit => "Some(" ++ limit.toText ++ ")"
    | none => "None"
  "DidResolver \x7b methods: [" ++ names ++ "], timeout: " ++ timeout ++ ", .. \x7d"

/-- The method that a DID or DID URL names. -/
def methodOf (r : Resolver ω) (did : String) : Outcome (DidMethod ω) := do
  let parsed ← Did.parse did
  orFail .methodNotSupported s!"no resolver for {parsed.method}" (r.find? parsed.method)

/-- The time that an answer was waited for in vain. -/
def exceeded? (r : Resolver ω) (a : Answer) : Option Duration :=
  r.timeout.filter fun limit => !(a.after ≤ limit)

/-- The result when an answer was waited for in vain. -/
def timedOut (limit : Duration) : Resolution :=
  .ofError .internalError s!"resolution timed out after {limit.toText}"

variable [ResultCache κ]

/-- Ask a method, and keep its result unless it takes too long. -/
def askMethod (r : Resolver ω) (m : DidMethod ω) (did : String) :
    Action (ω × κ) Resolution := do
  let answer ← Action.first (m.resolve did r.options)
  match r.exceeded? answer with
  | some limit => return timedOut limit
  | none =>
    Action.second (ResultCache.set did answer.result)
    return answer.result

/-- Resolve a DID or DID URL. What fails here is only that it is none, that its method is not known
or that the cache fails; all that goes wrong in a method is a result. -/
def resolveOrFail (r : Resolver ω) (did : String) : Action (ω × κ) Resolution := do
  let method ← Action.ofOutcome (r.methodOf did)
  match ← Action.second (ResultCache.get did) with
  | some kept => return kept
  | none => r.askMethod method did

/-- Resolve a DID or DID URL; every failure becomes a result. -/
def resolve (r : Resolver ω) (did : String) : StateM (ω × κ) Resolution := do
  return .ofOutcome (← (r.resolveOrFail did).run)

end Resolver

end DidMethods
