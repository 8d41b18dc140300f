import DidMethods.Json.Basic
import DidMethods.Time.Duration
import DidMethods.Url.Basic

/-!
# Clients

What a program sees of a network is what becomes of the calls that it makes. An `Http.Client` says
this for every call, which may depend on the calls before, and keeps the calls that have been made.
Nothing is asked of it, so that what is proved holds for every client and for whatever is at the
other end: a host can be out of reach or take its time, and what comes back can be anything.

A call is all that the client does to get an answer for a request. It connects and sends the
request, and where it is redirected, it may follow, in whatever way and as often as it is made to.
What it sends on the way belongs to the one call and is not counted by itself. The reply is what the
call ends with: the answer of the place where it stops, or none. This is what is meant throughout
when a call *is answered*.
-/

namespace DidMethods

namespace Http

/-- What a request is meant to do. -/
inductive Verb where
  /-- Fetch something. -/
  | get
  /-- Hand something in. -/
  | post
deriving DecidableEq, Repr

/-- A request to the host of a URL. -/
structure Request where
  /-- What it is meant to do. -/
  verb : Verb
  /-- Where it goes. -/
  url : Url
  /-- The type of answer that is asked for, by default any. -/
  accept : String := "*/*"
  /-- The value that is handed in. -/
  body : Option Json := none
deriving DecidableEq, Repr

/-- What a call ends with. -/
inductive Answer where
  /-- No answer: a host could not be reached, the connection broke, or there was no end to the
  redirects. -/
  | failed
  /-- The status and the body of the answer that the client stops at; a body that cannot be read to
  its end counts as empty. -/
  | answered (status : Nat) (body : Bytes)
deriving DecidableEq, Repr

/-- What comes of a call. -/
structure Reply where
  /-- What it ends with. -/
  answer : Answer
  /-- How long it takes. -/
  after : Duration := .zero
deriving DecidableEq, Repr

/-- What becomes of calls, and the calls so far. -/
structure Client where
  /-- The reply to a call for a request, given the calls before it, the latest first. -/
  reply : List Request → Request → Reply
  /-- The calls so far, the latest first. -/
  calls : List Request := []

/-- The type of a value that is handed in. -/
def jsonType : String := "application/json"

/-- The scheme of a URL is one that requests can be sent by. -/
def isWeb (u : Url) : Bool :=
  (u.scheme == "http" || u.scheme == "https") && u.host.isSome

namespace Client

/-- Make a call for a request. One that cannot be sent by its scheme never leaves. -/
def call (r : Request) : StateM Client Reply := fun c =>
  if isWeb r.url then (c.reply c.calls r, { c with calls := r :: c.calls })
  else ({ answer := .failed }, c)

variable {r : Request} {c : Client}

theorem call_of_isWeb (h : isWeb r.url = true) :
    call r c = (c.reply c.calls r, { c with calls := r :: c.calls }) :=
  if_pos h

theorem call_of_not_isWeb (h : isWeb r.url ≠ true) : call r c = ({ answer := .failed }, c) :=
  if_neg h

end Client

end Http

/-- A state in which there is a client. -/
class Online (ω : Type) where
  /-- The client. -/
  client : ω → Http.Client
  /-- The state with the client in another state. -/
  withClient : ω → Http.Client → ω

instance : Online Http.Client where
  client c := c
  withClient _ c := c

/-- Use the client of a larger state. -/
def Online.use {ω α : Type} [Online ω] (x : StateM Http.Client α) : StateM ω α := fun w =>
  let (a, c) := x (client w)
  (a, withClient w c)

end DidMethods
