import DidMethods.Proofs.CanonicalKey
import DidMethods.Proofs.Dereference
import DidMethods.Proofs.StateSoundness

/-!
# Queries of a document agree with its state

Each key of a state appears in several places of a document: it is listed as a method, and each
relationship that it serves refers to it. The queries of a document take different ways to it: by
the full identifier, by the fragment with or without a number sign, by a purpose, or by the
thumbprint of a key. What all of them find is said by the list of keys alone
(`DidMethods.Sidetree.State.AgreesWith`).

A relationship is the list of keys with each key as often as it names the purpose
(`DidMethods.Sidetree.State.relationship_toDocument`), and each reference leads to the method of its
key, as identifiers are distinct. So the first method that a relationship leads to is the one of the
first key that has the purpose at all. A local identifier is made of base64 digits; hence it is
never taken for a DID, and it is what comes after the last number sign whatever the DID is
(`DidMethods.Sidetree.IsLocalId.isPlainFragment`).

Keys are compared by thumbprints. That two different keys have one is not excluded, there being more
keys than thumbprints; the query for a key agrees with the state where the key in question shares
its thumbprint with no other key of this state.
-/

namespace DidMethods

namespace Sidetree

/-! ### Local identifiers as fragments -/

namespace IsLocalId

variable {id : String}

theorem not_mem_of_not_digit (h : IsLocalId id) {c : Char} (hc : Base64Url.isDigit c = false) :
    c ∉ id.toList := by
  intro hmem
  rw [h.digits c hmem] at hc
  cases hc

/-- A local identifier is taken as it is when it stands for a fragment. -/
theorem isPlainFragment (h : IsLocalId id) : IsPlainFragment id where
  line := h.not_mem_of_not_digit (by decide)
  sharp := fun hhead => h.not_mem_of_not_digit (c := '#') (by decide) (List.mem_of_head? hhead)
  scheme := fun hscheme =>
    h.not_mem_of_not_digit (c := ':') (by decide) (hscheme.subset (by decide))

end IsLocalId

namespace State

/-- What queries of the document of a DID find, if they agree with a state. -/
structure AgreesWith (s : State) (did : String) (d : Document) : Prop where
  /-- The identifiers of a purpose are those of the keys, in their order, each once for each time
  that the key names the purpose. -/
  methodIds : ∀ p, d.methodIds p =
    s.keys.flatMap fun e => List.replicate (e.purposes.count p) (did ++ "#" ++ e.id)
  /-- They are the identifiers of listed methods. -/
  listed : ∀ p, ∀ id ∈ d.methodIds p, ∃ m ∈ d.methodList, m.id = id
  /-- The method that is selected for a purpose is the one of the first key that has it. -/
  selected : ∀ p, d.selectMethod? p =
    (s.keys.find? fun e => p ∈ e.purposes).map (KeyEntry.toMethod did)
  /-- The method of a key is found under each form of its identifier. -/
  method : ∀ e ∈ s.keys, ∀ id ∈ [did ++ "#" ++ e.id, "#" ++ e.id, e.id],
    d.method? id = some (e.toMethod did)
  /-- It belongs to the DID and has this very key. -/
  key : ∀ e ∈ s.keys, (e.toMethod did).id = did ++ "#" ++ e.id ∧
    (e.toMethod did).controller = did ∧ (e.toMethod did).jwk = .ok e.key
  /-- The purposes of a key are found in order, each once. -/
  purposes : ∀ e ∈ s.keys,
    (d.purposes (did ++ "#" ++ e.id)).Pairwise
        (fun p q => Purpose.all.idxOf p < Purpose.all.idxOf q) ∧
      ∀ p, p ∈ d.purposes (did ++ "#" ++ e.id) ↔ p ∈ e.purposes
  /-- A service is found under each form of its identifier. -/
  service : ∀ e ∈ s.services, ∀ id ∈ [did ++ "#" ++ e.id, "#" ++ e.id, e.id],
    d.service? id = some (e.toService did)
  /-- A key is found under the identifier of the first one that is the same. -/
  keyId : ∀ j : Jwk, (∀ e ∈ s.keys, ¬ j.Collide e.key) → d.methodIdOfKey? j =
    (s.keys.find? fun e => e.key.canonical = j.canonical).map fun e => did ++ "#" ++ e.id

section Queries

variable {s : State} {did : String}

theorem methodIds_toDocument (p : Purpose) : (s.toDocument did).methodIds p =
    s.keys.flatMap fun e => List.replicate (e.purposes.count p) (did ++ "#" ++ e.id) := by
  rw [Document.methodIds, relationship_toDocument, List.map_flatMap]
  simp only [List.map_replicate]
  rfl

theorem exists_method_of_mem_methodIds {p : Purpose} {id : String}
    (h : id ∈ (s.toDocument did).methodIds p) :
    ∃ m ∈ (s.toDocument did).methodList, m.id = id := by
  obtain ⟨e, he, -, hid⟩ := mem_methodIds_toDocument.mp h
  rw [methodList_toDocument]
  exact ⟨e.toMethod did, List.mem_map_of_mem he, hid⟩

/-- **The method that is selected is the one of the first key**, if references lead to the
methods of their keys. -/
theorem selectMethod?_toDocument
    (h : ∀ e ∈ s.keys, (s.toDocument did).method? (e.toMethod did).id = some (e.toMethod did))
    (p : Purpose) : (s.toDocument did).selectMethod? p =
      (s.keys.find? fun e => p ∈ e.purposes).map (KeyEntry.toMethod did) := by
  have hresolve : ∀ e ∈ s.keys, (s.toDocument did).resolveRelation? (.text (e.toMethod did).id) =
      some (e.toMethod did) := h
  rw [Document.selectMethod?, relationship_toDocument, findSome?_flatMap_replicate hresolve]
  refine congrArg (Option.map _) (List.find?_congr fun e _ => ?_)
  simp [List.count_eq_zero]

theorem methodIdOfKey?_toDocument {j : Jwk} (h : ∀ e ∈ s.keys, ¬ j.Collide e.key) :
    (s.toDocument did).methodIdOfKey? j =
      (s.keys.find? fun e => e.key.canonical = j.canonical).map fun e => did ++ "#" ++ e.id := by
  rw [Document.methodIdOfKey?, methodList_toDocument, List.find?_map, Option.map_map]
  refine congrArg (Option.map _) (List.find?_congr fun e he => ?_)
  change (e.key.thumbprint == j.thumbprint) = _
  rw [Bool.eq_iff_iff, beq_iff_eq, decide_eq_true_eq]
  exact Jwk.thumbprint_eq_iff (h e he)

section Sound

variable {bare : Did} (hcheck : s.check = .ok ())

include hcheck

/-- The parts of the document of a checked state can be told apart. -/
theorem addressable_toDocument : (s.toDocument did).Addressable did := by
  have hall := check_eq_ok.mp hcheck
  refine ⟨id_toDocument, (hall.nodup_document did).1, ?_⟩
  rw [serviceList_toDocument, List.map_map]
  have hlocal : s.services.map (Service.localId ∘ ServiceEntry.toService did) =
      s.services.map (·.id) :=
    List.map_congr_left fun e he =>
      localPart_of_checkId (checkId_eq_ok.mpr (hall.services.each e he).id) did
  rw [hlocal]
  exact hall.services.nodup

/-- A method of a checked state is found under each form of its identifier. -/
theorem method?_toDocument (hparse : Did.parse? did = some bare) (hbare : bare.isBare = true)
    {e : KeyEntry} (he : e ∈ s.keys) :
    ∀ id ∈ [did ++ "#" ++ e.id, "#" ++ e.id, e.id],
      (s.toDocument did).method? id = some (e.toMethod did) := by
  have hplain := ((check_eq_ok.mp hcheck).keys.each e he).1.isPlainFragment
  have hmem : e.toMethod did ∈ (s.toDocument did).methodList := by
    rw [methodList_toDocument]
    exact List.mem_map_of_mem he
  -- all three are the same full identifier
  have hfull : ∀ id ∈ [did ++ "#" ++ e.id, "#" ++ e.id, e.id],
      (s.toDocument did).fullMethodId id = did ++ "#" ++ e.id := by
    simp only [List.forall_mem_cons, List.not_mem_nil, false_implies, implies_true, and_true]
    refine ⟨Document.fullMethodId_of_did ?_, ?_, ?_⟩
    · rw [String.append_assoc]
      exact Did.scheme_of_isBare hparse hbare ("#" ++ e.id)
    · rw [Document.fullMethodId_sharp hplain, id_toDocument]
    · rw [Document.fullMethodId_of_plain hplain, id_toDocument]
  exact fun id hid =>
    Document.method?_of_fullMethodId (addressable_toDocument hcheck) hmem (hfull id hid)

/-- A service of a checked state is found under each form of its identifier. -/
theorem service?_toDocument {e : ServiceEntry} (he : e ∈ s.services) :
    ∀ id ∈ [did ++ "#" ++ e.id, "#" ++ e.id, e.id],
      (s.toDocument did).service? id = some (e.toService did) := by
  have hid := ((check_eq_ok.mp hcheck).services.each e he).id
  have hsharp : '#' ∉ e.id.toList := hid.not_mem_of_not_digit (by decide)
  have hmem : e.toService did ∈ (s.toDocument did).serviceList := by
    rw [serviceList_toDocument]
    exact List.mem_map_of_mem he
  have hown : (e.toService did).localId = e.id := localPart_of_checkId (checkId_eq_ok.mpr hid) did
  have hlocal : ∀ id ∈ [did ++ "#" ++ e.id, "#" ++ e.id, e.id], localPart id = e.id := by
    simp only [List.forall_mem_cons, List.not_mem_nil, false_implies, implies_true, and_true]
    exact ⟨localPart_append did hsharp, localPart_append "" hsharp, localPart_of_not_mem hsharp⟩
  exact fun id hid => Document.service?_of_localPart (addressable_toDocument hcheck) hmem
    ((hlocal id hid).trans hown.symm)

/-- **All queries of the document of a checked state agree with the state**: by identifier in each
of its forms, by purpose, and by key. -/
theorem queries_toDocument (hparse : Did.parse? did = some bare) (hbare : bare.isBare = true) :
    s.AgreesWith did (s.toDocument did) := by
  have hall := check_eq_ok.mp hcheck
  have hmethod := fun e he => method?_toDocument hcheck hparse hbare (e := e) he
  have hpurposes : ∀ e ∈ s.keys,
      (s.toDocument did).purposes (did ++ "#" ++ e.id) = Purpose.inOrder e.purposes :=
    fun e he => purposes_of_nodup (fun e he => checkId_eq_ok.mpr (hall.keys.each e he).1)
      hall.keys.nodup did he
  exact {
    methodIds := methodIds_toDocument
    listed := fun p id hid => exists_method_of_mem_methodIds hid
    selected := selectMethod?_toDocument fun e he => hmethod e he _ List.mem_cons_self
    method := hmethod
    key := fun e _ => ⟨rfl, rfl, rfl⟩
    purposes := fun e he => by
      rw [hpurposes e he]
      exact ⟨Purpose.pairwise_inOrder _, fun p => Purpose.mem_inOrder⟩
    service := fun e he => service?_toDocument hcheck he
    keyId := fun j hj => methodIdOfKey?_toDocument hj }

end Sound

end Queries

/-- Two entries of one key, which share a purpose, and a service. -/
def sharedKey : State where
  keys := [
    ⟨"key-1", Suite.jsonWebKey2020, .okp { crv := "X25519", x := "" },
      [.keyAgreement, .authentication, .keyAgreement]⟩,
    ⟨"key-2", "Multikey", .okp { crv := "X25519", x := "", params := { kid := some "k" } },
      [.keyAgreement]⟩]
  services := [⟨"hub", "Hub", .value [("uri", .string "https://hub.example")]⟩]

theorem queries_toDocument_sharedKey :
    (sharedKey.check = .ok () ∧
      Did.parse? "did:example:a" =
        some (Did.ofParts (Did.bareParts "example".toList "a".toList))) ∧
    sharedKey.AgreesWith "did:example:a" (sharedKey.toDocument "did:example:a") ∧
    (sharedKey.toDocument "did:example:a").methodIds .keyAgreement =
      ["did:example:a#key-1", "did:example:a#key-1", "did:example:a#key-2"] ∧
    (sharedKey.toDocument "did:example:a").methodIdOfKey? (.okp { crv := "X25519", x := "" }) =
      some "did:example:a#key-1" := by
  have hcheck : sharedKey.check = .ok () := rfl
  have hparse : Did.parse? "did:example:a" =
      some (Did.ofParts (Did.bareParts "example".toList "a".toList)) := by decide +kernel
  have hagrees := queries_toDocument hcheck hparse rfl
  have hsame : ∀ e ∈ sharedKey.keys, ¬ Jwk.Collide (.okp { crv := "X25519", x := "" }) e.key := by
    simp only [sharedKey, List.forall_mem_cons, List.not_mem_nil, false_implies, implies_true,
      and_true]
    exact ⟨fun h => h.canonical_ne rfl, fun h => h.canonical_ne rfl⟩
  exact ⟨⟨hcheck, hparse⟩, hagrees, hagrees.methodIds .keyAgreement, hagrees.keyId _ hsame⟩

end State

end Sidetree

end DidMethods
