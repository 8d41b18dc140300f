import DidMethods.Fault
import DidMethods.Json.Record

/-!
# Purposes

What a verification method can be used for; each purpose is a relationship of the document.
-/

namespace DidMethods

/-- What a verification method can be used for. -/
inductive Purpose where
  /-- Authenticate the subject. -/
  | authentication
  /-- Express claims. -/
  | assertionMethod
  /-- Agree on keys. -/
  | keyAgreement
  /-- Invoke a capability. -/
  | capabilityInvocation
  /-- Delegate a capability. -/
  | capabilityDelegation
deriving DecidableEq, Repr

namespace Purpose

/-- Every purpose, in the order of documents. -/
def all : List Purpose :=
  [authentication, assertionMethod, keyAgreement, capabilityInvocation, capabilityDelegation]

/-- The name of the relationship. -/
def name : Purpose → String
  | authentication => "authentication"
  | assertionMethod => "assertionMethod"
  | keyAgreement => "keyAgreement"
  | capabilityInvocation => "capabilityInvocation"
  | capabilityDelegation => "capabilityDelegation"

/-- The purpose of a name. -/
def ofName? (s : String) : Option Purpose :=
  all.find? fun p => p.name == s

/-- The purpose of a name, or the failure that there is none. -/
def ofName (s : String) : Outcome Purpose :=
  orFail .invalidInput s!"unknown purpose: {s}" (ofName? s)

/-- The JSON form: the name. -/
def toJson (p : Purpose) : Json :=
  .string p.name

/-- Read the JSON form. -/
def ofJson? : Json → Option Purpose :=
  Json.case? ofName?

/-- Read the JSON form within a value that is looked at twice. -/
def ofTaggedJson? : Json → Option Purpose :=
  Json.taggedCase? ofName?

theorem ofName?_name (p : Purpose) : ofName? p.name = some p := by
  cases p <;> decide

/-- Some purposes in the order of documents, each once. -/
def inOrder (purposes : List Purpose) : List Purpose :=
  all.filter fun p => purposes.contains p

end Purpose

end DidMethods
