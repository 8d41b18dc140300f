import DidMethods.Proofs.AcceptedInputs
import DidMethods.Proofs.Dereference

/-!
# Looking up a service by its own identifier

A service is looked up by the part of an identifier after its last number sign, even if the
identifier is the one of a service as it stands in the document
(`DidMethods.Document.service?_eq`). Two services under different DIDs can have this part in common.
Then the one that comes first in the document is found under the identifiers of both
(`DidMethods.Document.service?_of_append`), so that who asks for a service of one party is given
one of another.

In a document whose services have different identifiers, each is found under its own one exactly if
their local identifiers are different, too (`DidMethods.Document.service?_id`). This is what is
checked of the services of a new document (`DidMethods.Service.checkAll`).
-/

namespace DidMethods.Document

variable {d : Document} {before after : List Service} {s : Service}

/-- **The first service with the local identifier of another one** is found under the identifier of
the other one. -/
theorem service?_of_append (hlist : d.serviceList = before ++ s :: after) :
    d.service? s.id = some ((before.find? fun b => b.localId == s.localId).getD s) := by
  have hown : (s :: after).find? (fun b => b.localId == s.localId) = some s :=
    List.find?_cons_of_pos (beq_self_eq_true s.localId)
  rw [service?_eq, ← Service.localId, hlist, List.find?_append, hown]
  cases before.find? fun b => b.localId == s.localId <;> rfl

/-- What is found under the identifier of a service is a service with its local identifier, and no
such service comes before it. -/
theorem exists_service?_of_append (hlist : d.serviceList = before ++ s :: after)
    (hids : (d.serviceList.map Service.id).Nodup) :
    ∃ found ∈ d.serviceList, d.service? s.id = some found ∧ found.localId = s.localId ∧
      (found = s ↔ ∀ b ∈ before, b.localId ≠ s.localId) := by
  rw [service?_of_append hlist, hlist]
  cases hfind : before.find? fun b => b.localId == s.localId with
  | none =>
    refine ⟨s, List.mem_append_right _ List.mem_cons_self, rfl, rfl, iff_of_true rfl ?_⟩
    exact fun b hb hlocal => List.find?_eq_none.mp hfind b hb (beq_iff_eq.mpr hlocal)
  | some found =>
    have hmem := List.mem_of_find?_eq_some hfind
    have hlocal : found.localId = s.localId := by simpa using List.find?_some hfind
    refine ⟨found, List.mem_append_left _ hmem, rfl, hlocal, iff_of_false ?_ ?_⟩
    · -- the two services have different identifiers
      rintro rfl
      rw [hlist, List.map_append, List.map_cons] at hids
      exact List.disjoint_of_nodup_append hids (List.mem_map_of_mem hmem) List.mem_cons_self
    · exact fun hnone => hnone found hmem hlocal

/-- **A service is found under its own identifier if none before it has its local identifier.** In
particular each service is found exactly if the local identifiers are pairwise different, as they
are where the services have been checked. Otherwise another service with the same local identifier
is found, also by a DID URL whose query names the service. -/
theorem service?_id (hids : (d.serviceList.map Service.id).Nodup) :
    ((∀ s ∈ d.serviceList, d.service? s.id = some s) ↔
        (d.serviceList.map Service.localId).Nodup) ∧
      (Service.checkAll d.serviceList = .ok () →
        ∀ s ∈ d.serviceList, d.service? s.id = some s) ∧
      ∀ before s after, d.serviceList = before ++ s :: after →
        ∃ found ∈ d.serviceList, d.service? s.id = some found ∧ found.localId = s.localId ∧
          (found = s ↔ ∀ b ∈ before, b.localId ≠ s.localId) ∧
          ∀ url : Did, url.queryMap = [("service", s.id)] →
            d.resource url = .ok (.service found) := by
  have hall : (∀ s ∈ d.serviceList, d.service? s.id = some s) ↔
      (d.serviceList.map Service.localId).Nodup := by
    constructor
    · intro hfound
      refine (List.nodup_map_iff_inj_on hids.of_map).mpr fun s hs t ht hlocal => ?_
      -- the same service is found under the identifiers of both
      have hsame : d.service? s.id = d.service? t.id := by
        rw [service?_eq, service?_eq, ← Service.localId, ← Service.localId, hlocal]
      rw [hfound s hs, hfound t ht] at hsame
      exact Option.some.inj hsame
    · intro hlocals s hs
      rw [service?_eq]
      exact find?_eq_some_of_nodup hlocals hs (beq_self_eq_true _) fun b _ hb => beq_iff_eq.mp hb
  refine ⟨hall, fun hcheck => hall.mpr (Service.checkAll_eq_ok.mp hcheck).nodup, ?_⟩
  intro before s after hlist
  obtain ⟨found, hmem, hfound, hlocal, hsame⟩ := exists_service?_of_append hlist hids
  exact ⟨found, hmem, hfound, hlocal, hsame, fun url hquery => resource_of_query hquery hfound⟩

/-- A document with services of two parties under one fragment. -/
def twoHubs : Document where
  id := "did:example:alice"
  services := some [
    .ofUrl "did:example:alice#hub" "Hub" "https://alice.example",
    .ofUrl "did:example:bob#hub" "Hub" "https://bob.example"]

theorem service?_id_twoHubs :
    (twoHubs.serviceList.map Service.id).Nodup ∧
      twoHubs.service? "did:example:bob#hub" =
        some (.ofUrl "did:example:alice#hub" "Hub" "https://alice.example") ∧
      Service.checkAll twoHubs.serviceList ≠ .ok () ∧
      ¬ ∀ s ∈ twoHubs.serviceList, twoHubs.service? s.id = some s := by
  have hids : (twoHubs.serviceList.map Service.id).Nodup := by decide +kernel
  have hlocals : ¬ (twoHubs.serviceList.map Service.localId).Nodup := by decide +kernel
  obtain ⟨hall, hchecked, -⟩ := service?_id hids
  have hnot := fun h => hlocals (hall.mp h)
  exact ⟨hids, by decide +kernel, fun hcheck => hnot (hchecked hcheck), hnot⟩

/-- A service need not be found under its own identifier. -/
theorem not_forall_service?_id : ¬ ∀ d : Document, (d.serviceList.map Service.id).Nodup →
    ∀ s ∈ d.serviceList, d.service? s.id = some s := by
  intro h
  have hbob := h twoHubs (by decide +kernel)
    (.ofUrl "did:example:bob#hub" "Hub" "https://bob.example") (by decide +kernel)
  exact absurd hbob (by decide +kernel)

end DidMethods.Document
