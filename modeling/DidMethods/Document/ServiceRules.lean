import DidMethods.Document.Service
import DidMethods.Url.Basic

/-!
# What services have to be like

The services of a document have different local identifiers, types that are not too long, and URLs
for endpoints; in an endpoint that is a map, each value that is a text has to be a URL
(`Service.checkAll`). The first service that is not like that decides on the failure.
-/

namespace DidMethods

/-- Each text in the endpoint is a URL. -/
def Endpoint.check : Endpoint → Outcome Unit
  | .text url => (Url.parse url).map fun _ => ()
  | .value members => members.forM fun m =>
    match m.2 with
    | .string url => (Url.parse url).map fun _ => ()
    | _ => .ok ()

namespace Service

/-- The longest type, in octets. -/
def maxTypeLength : Nat := 30

/-- A service by itself, apart from its identifier. -/
def check (s : Service) : Outcome Unit := do
  if s.type.utf8ByteSize > maxTypeLength then
    fail .invalidFormat s!"service type exceeds limit of {maxTypeLength}: {s.type.utf8ByteSize}"
  s.endpoint.toList.forM Endpoint.check

/-- Services after some whose local identifiers are taken. -/
def checkAfter (taken : List String) : List Service → Outcome Unit
  | [] => .ok ()
  | s :: rest => do
    if taken.contains s.localId then
      fail .invalidInput s!"duplicate service ID: {s.id}"
    s.check
    checkAfter (s.localId :: taken) rest

/-- The services of a document. -/
def checkAll (services : List Service) : Outcome Unit :=
  checkAfter [] services

end Service

end DidMethods
