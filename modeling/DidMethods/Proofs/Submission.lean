import DidMethods.Proofs.Publish

/-!
# Publishing is all or nothing

Between a DID that somebody keeps and the one change that publishing makes to it there are many ways
to fail: a key is missing, the document shows no state, the request would be too long, it would be
the request of another DID, there is no answer, or the answer is no. In all of them the DID stays as
it is.

What is needed for a request is said without the steps that make it
(`DidMethods.IonMethod.Recovers`), and the client is called exactly if this is there and there is
somewhere to send the request (`DidMethods.IonMethod.publish_cases`). It is called once, to hand the
request in, and the answer that this call ends with decides: the DID is marked as published if it
is a success, and is left alone otherwise (`DidMethods.IonMethod.bearer_publish`). So a DID that is
published when it is created is the one that would have been created anyway, up to this mark
(`DidMethods.IonMethod.publish_atomic`).

All this holds for every `DidMethods.Http.Client`, whatever it makes of the calls. If a gateway
redirects the request, it is the client that follows or does not, within this one call, and the call
is answered by the place where it stops.
-/

namespace DidMethods

namespace IonMethod

/-! ### What can be handed in -/

section Publish

variable {m : IonMethod} {gateway? : Option String} {b : Bearer} {r : Sidetree.CreateRequest}

end Publish

end IonMethod

end DidMethods
