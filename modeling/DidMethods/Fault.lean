/-!
# Faults

Every operation of the library that can fail fails with a `Fault`: a registered code, which a
caller can branch on and a resolver can publish, and an optional sentence that says what went
wrong. `Fault.message` is what a reader is shown: the sentence if there is one, the code otherwise.

Reading JSON text is the one activity whose failures carry no code of their own. Such a fault is
*unclassified*: it counts as an internal error wherever a code is needed, yet it matches no code.
-/

namespace DidMethods

/-- The registered causes of failure. -/
inductive Code where
  /-- The identifier does not follow the DID syntax. -/
  | invalidDid
  /-- The DID URL does not follow the DID URL syntax. -/
  | invalidDidUrl
  /-- No resolver, or not this one, knows the DID method. -/
  | methodNotSupported
  /-- There is no document for the DID. -/
  | notFound
  /-- The bytes are no public key of their type. -/
  | invalidPublicKey
  /-- The public key has another length than its codec fixes. -/
  | invalidPublicKeyLength
  /-- The public key type or format is unknown. -/
  | unsupportedPublicKeyType
  /-- The public key format is experimental and not enabled. -/
  | invalidPublicKeyType
  /-- Something unexpected happened. -/
  | internalError
  /-- The hash is malformed or does not match the content. -/
  | invalidHash
  /-- The value has the wrong form. -/
  | invalidFormat
  /-- The value is well formed but not acceptable here. -/
  | invalidInput
  /-- The key is not held, or the document has none for the purpose. -/
  | keyNotFound
  /-- The key algorithm is not supported. -/
  | unsupportedAlgorithm
  /-- The key cannot sign. -/
  | signingError
  /-- The signature does not verify. -/
  | verificationFailed
  /-- A value could not be written. -/
  | serializationError
  /-- A value could not be read. -/
  | deserializationError
  /-- A downstream service could not be reached. -/
  | requestError
deriving DecidableEq, Repr

namespace Code

/-- Every code, in the order of the registry. -/
def all : List Code :=
  [invalidDid, invalidDidUrl, methodNotSupported, notFound, invalidPublicKey,
    invalidPublicKeyLength, unsupportedPublicKeyType, invalidPublicKeyType, internalError,
    invalidHash, invalidFormat, invalidInput, keyNotFound, unsupportedAlgorithm, signingError,
    verificationFailed, serializationError, deserializationError, requestError]

/-- The registered name of a code. -/
def name : Code → String
  | invalidDid => "invalidDid"
  | invalidDidUrl => "invalidDidUrl"
  | methodNotSupported => "methodNotSupported"
  | notFound => "notFound"
  | invalidPublicKey => "invalidPublicKey"
  | invalidPublicKeyLength => "invalidPublicKeyLength"
  | unsupportedPublicKeyType => "unsupportedPublicKeyType"
  | invalidPublicKeyType => "invalidPublicKeyType"
  | internalError => "internalError"
  | invalidHash => "invalidHash"
  | invalidFormat => "invalidFormat"
  | invalidInput => "invalidInput"
  | keyNotFound => "keyNotFound"
  | unsupportedAlgorithm => "unsupportedAlgorithm"
  | signingError => "signingError"
  | verificationFailed => "verificationFailed"
  | serializationError => "serializationError"
  | deserializationError => "deserializationError"
  | requestError => "requestError"

/-- The code of a registered name. -/
def ofName? (s : String) : Option Code :=
  all.find? fun c => c.name == s

theorem mem_all (c : Code) : c ∈ all := by
  cases c <;> decide

theorem ofName?_name (c : Code) : ofName? c.name = some c := by
  cases c <;> decide

end Code

/-- A failure: its cause, and what is said about it. -/
inductive Fault where
  /-- A failure with a registered code and, possibly, a sentence of context. -/
  | raised (code : Code) (context : Option String)
  /-- JSON text or a JSON value could not be read; no code is attached. -/
  | unclassified
deriving DecidableEq, Repr

/-- A result, or the fault that prevented it. -/
abbrev Outcome (α : Type) := Except Fault α

namespace Fault

/-- A failure with a sentence of context. -/
def because (code : Code) (context : String) : Fault :=
  .raised code (some context)

/-- A failure that its code says all about. -/
def plain (code : Code) : Fault :=
  .raised code none

/-- The code to publish; an unclassified failure is an internal error. -/
def code : Fault → Code
  | .raised c _ => c
  | .unclassified => .internalError

/-- The fault was raised with this very code. -/
def isCode : Fault → Code → Bool
  | .raised c _, d => c == d
  | .unclassified, _ => false

/-- What a reader is shown: the context, or the name of the code where there is none. -/
def message : Fault → String
  | .raised _ (some context) => context
  | .raised c none => c.name
  | .unclassified => Code.internalError.name

/-- The same cause under another sentence. -/
def withContext (f : Fault) (context : String) : Fault :=
  .raised f.code (some context)

@[simp] theorem code_because (c : Code) (s : String) : (because c s).code = c := rfl

@[simp] theorem code_plain (c : Code) : (plain c).code = c := rfl

@[simp] theorem message_because (c : Code) (s : String) : (because c s).message = s := rfl

@[simp] theorem message_plain (c : Code) : (plain c).message = c.name := rfl

end Fault

/-- Fail with a code and a sentence. -/
def fail {α : Type} (code : Code) (context : String) : Outcome α :=
  .error (.because code context)

/-- The value of an option, or a fault where there is none. -/
def orFail {α : Type} (code : Code) (context : String) : Option α → Outcome α
  | some a => .ok a
  | none => fail code context

end DidMethods
