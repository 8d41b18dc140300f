import DidMethods.Proofs.DidSyntax
import DidMethods.Proofs.Relationships
import DidMethods.Proofs.StateCheck
import Mathlib.Data.List.Nodup

/-!
# A document shows its state

The document that a state gives for a DID gives the state back. A key is kept apart from its
purposes in a document: each relationship refers to the keys that serve it, and the purposes of a
key are found by looking through the relationships for its identifier. So it takes that no two keys
have one identifier, and what is found are the purposes in the order of documents, each once
(`DidMethods.Sidetree.State.purposes_of_nodup`). A state that passes its check has such identifiers
and comes back with its purposes put in order, whatever the DID
(`DidMethods.Sidetree.State.ofDocument_toDocument_of_check`); where the purposes are in order
already (`DidMethods.Sidetree.State.Shown`), as they are in a new state
(`DidMethods.Sidetree.State.shown_of_ofInputs`), it comes back as it was
(`DidMethods.Sidetree.State.ofDocument_toDocument`).
-/

namespace DidMethods

/-! ### Purposes in order -/

namespace Purpose

variable {purposes list : List Purpose}

theorem mem_all (p : Purpose) : p ∈ all := by
  cases p <;> decide

@[simp] theorem mem_inOrder {p : Purpose} : p ∈ inOrder purposes ↔ p ∈ purposes := by
  simp [inOrder, mem_all]

/-- **What it is for purposes to be in the order of documents, each once**: they are a part of the
list of all purposes, and this fixes them by their members. -/
theorem inOrder_eq_iff :
    inOrder purposes = list ↔ list.Sublist all ∧ ∀ p, p ∈ list ↔ p ∈ purposes := by
  constructor
  · rintro rfl
    exact ⟨List.filter_sublist, fun p => mem_inOrder⟩
  · rintro ⟨hsublist, hmem⟩
    -- two parts of a list without repetitions that have the same members are the same part
    have hall : all.Nodup := by decide
    have hsame : ∀ p, p ∈ inOrder purposes ↔ p ∈ list := fun p => mem_inOrder.trans (hmem p).symm
    have hperm : (inOrder purposes).Perm list :=
      (List.perm_ext_iff_of_nodup (hall.filter _) (hall.sublist hsublist)).mpr hsame
    have hsorted : ∀ l : List Purpose, l.Sublist all →
        l.Pairwise fun p q => all.idxOf p ≤ all.idxOf q := by
      intro l hl
      refine List.Pairwise.sublist hl ?_
      decide
    refine hperm.eq_of_pairwise ?_ (hsorted _ List.filter_sublist) (hsorted _ hsublist)
    exact fun p q _ _ hpq hqp => List.idxOf_inj (mem_all p) |>.mp (Nat.le_antisymm hpq hqp)

/-- Purposes in order are in order. -/
@[simp] theorem inOrder_inOrder (purposes : List Purpose) :
    inOrder (inOrder purposes) = inOrder purposes :=
  inOrder_eq_iff.mpr ⟨List.filter_sublist, fun _ => Iff.rfl⟩

/-- Purposes in order come one after the other in the list of all. -/
theorem pairwise_inOrder (purposes : List Purpose) :
    (inOrder purposes).Pairwise fun p q => all.idxOf p < all.idxOf q := by
  refine List.Pairwise.sublist List.filter_sublist ?_
  decide

end Purpose

namespace Sidetree

/-! ### Local identifiers -/

/-- The local part of an identifier in a document is the well-formed identifier that it ends
with. -/
theorem localPart_of_checkId {id : String} (h : checkId id = .ok ()) (did : String) :
    localPart s!"{did}#{id}" = id := by
  refine localPart_append did fun hmem => ?_
  exact absurd (isDigit_of_checkId h '#' hmem) (by decide)

namespace State

/-- What a document can show of a state: the identifiers are well formed, no two keys have the same,
and the purposes of every key are in order. -/
structure Shown (s : State) : Prop where
  /-- The identifiers of keys are well formed. -/
  keys : ∀ e ∈ s.keys, checkId e.id = .ok ()
  /-- No two keys have the same identifier. -/
  nodup : (s.keys.map (·.id)).Nodup
  /-- The purposes of every key are in order. -/
  purposes : ∀ e ∈ s.keys, Purpose.inOrder e.purposes = e.purposes
  /-- The identifiers of services are well formed. -/
  services : ∀ e ∈ s.services, checkId e.id = .ok ()

/-- A new state can be shown. -/
theorem shown_of_ofInputs {keys : List KeyInput} {services : List Service} {s : State}
    (h : ofInputs keys services = .ok s) : s.Shown := by
  obtain ⟨entries, -, rfl, hcheck⟩ := ofInputs_eq_ok.mp h
  obtain ⟨hkeys, hservices⟩ := check_eq_ok.mp hcheck
  refine ⟨fun e he => checkId_eq_ok.mpr (hkeys.each e he).1, hkeys.nodup, fun e he => ?_,
    fun e he => checkId_eq_ok.mpr (hservices.each e he).id⟩
  obtain ⟨k, -, rfl⟩ := List.mem_map.mp he
  exact Purpose.inOrder_inOrder k.purposes

/-! ### The document of a state -/

section Rendering

variable {did : String} {d : Document} {e : KeyEntry} {keys : List KeyEntry} {s : State}
  {p : Purpose}

/-- **A key is entered for its purposes**, as often as it names them. -/
theorem relationship_addPurposes : (addPurposes did d e).relationship p =
    d.relationship p ++ List.replicate (e.purposes.count p) (.text (e.toMethod did).id) := by
  rw [addPurposes, Document.relationship_foldl_addRelation (fun q => q), List.filter_eq,
    List.map_replicate]

/-- **Keys are entered for their purposes** in the order in which they stand. -/
theorem relationship_foldl : (keys.foldl (addPurposes did) d).relationship p =
    d.relationship p ++ keys.flatMap fun e =>
      List.replicate (e.purposes.count p) (.text (e.toMethod did).id) := by
  induction keys generalizing d with
  | nil => simp
  | cons e keys ih =>
    rw [List.foldl_cons, ih, relationship_addPurposes, List.flatMap_cons, List.append_assoc]

/-- The entries of a purpose are references to the keys that serve it. -/
theorem relationship_toDocument : (s.toDocument did).relationship p =
    s.keys.flatMap fun e =>
      List.replicate (e.purposes.count p) (.text (e.toMethod did).id) := by
  let base : Document :=
    { context := [.text Suite.didContext, .value (.object [("@base", .string did)])], id := did }
  have hfold : (s.toDocument did).relationship p =
      (s.keys.foldl (addPurposes did) base).relationship p := by
    cases p <;> rfl
  have hbase : base.relationship p = [] := by
    cases p <;> rfl
  rw [hfold, relationship_foldl, hbase, List.nil_append]

/-- The identifiers under a purpose are those of the keys that serve it. -/
theorem mem_methodIds_toDocument {id : String} :
    id ∈ (s.toDocument did).methodIds p ↔
      ∃ e ∈ s.keys, p ∈ e.purposes ∧ (e.toMethod did).id = id := by
  rw [Document.methodIds, relationship_toDocument, List.map_flatMap]
  simp [Relation.methodId, List.count_eq_zero, eq_comm]

/-- The document is the one of the DID that it is made for. -/
theorem id_toDocument : (s.toDocument did).id = did := by
  have hentry : ∀ d e, (addPurposes did d e).id = d.id := fun d e =>
    Document.foldl_addRelation Document.id_addRelation (fun p => p) (fun _ => _) e.purposes d
  have hfold : ∀ d : Document, (s.keys.foldl (addPurposes did) d).id = d.id := by
    induction s.keys with
    | nil => exact fun _ => rfl
    | cons e keys ih => exact fun d => (ih _).trans (hentry d e)
  exact hfold _

end Rendering

section Purposes

variable {s : State} (hkeys : ∀ e ∈ s.keys, checkId e.id = .ok ())
  (hnodup : (s.keys.map (·.id)).Nodup)

include hkeys hnodup

/-- **The purposes of a key are found again** by its identifier, in the order of documents. -/
theorem purposes_of_nodup (did : String) {e : KeyEntry} (he : e ∈ s.keys) :
    (s.toDocument did).purposes (e.toMethod did).id = Purpose.inOrder e.purposes := by
  have hiff : ∀ p, (e.toMethod did).id ∈ (s.toDocument did).methodIds p ↔ p ∈ e.purposes := by
    intro p
    rw [mem_methodIds_toDocument]
    constructor
    · rintro ⟨f, hf, hp, hid⟩
      -- both keys have this identifier, so they are the same key
      have hlocal := congrArg localPart hid
      rw [KeyEntry.toMethod, KeyEntry.toMethod, localPart_of_checkId (hkeys f hf),
        localPart_of_checkId (hkeys e he)] at hlocal
      obtain rfl := List.inj_on_of_nodup_map hnodup hf he hlocal
      exact hp
    · exact fun hp => ⟨e, he, hp, rfl⟩
  refine List.filter_congr fun p _ => ?_
  exact Bool.eq_iff_iff.mpr (by simp [hiff])

end Purposes

theorem methodList_toDocument (did : String) (s : State) :
    (s.toDocument did).methodList = s.keys.map (KeyEntry.toMethod did) := by
  change (unlessEmpty (s.keys.map (KeyEntry.toMethod did))).getD [] = _
  cases s.keys <;> rfl

theorem serviceList_toDocument (did : String) (s : State) :
    (s.toDocument did).serviceList = s.services.map (ServiceEntry.toService did) := by
  change (unlessEmpty (s.services.map (ServiceEntry.toService did))).getD [] = _
  cases s.services <;> rfl

/-- The state with the purposes of each key in the order of documents, each once. -/
def tidy (s : State) : State :=
  { s with keys := s.keys.map fun e => { e with purposes := Purpose.inOrder e.purposes } }

theorem Shown.tidy_eq {s : State} (h : s.Shown) : s.tidy = s := by
  have hkeys : s.keys.map (fun e => { e with purposes := Purpose.inOrder e.purposes }) =
      s.keys.map id :=
    List.map_congr_left fun e he => by rw [h.purposes e he, id]
  rw [tidy, hkeys, List.map_id]

/-- The document of a state gives the state back, with the purposes of each key in order. -/
theorem ofDocument_toDocument_of_nodup {s : State} (hkeys : ∀ e ∈ s.keys, checkId e.id = .ok ())
    (hnodup : (s.keys.map (·.id)).Nodup) (hservices : ∀ e ∈ s.services, checkId e.id = .ok ())
    (did : String) : ofDocument (s.toDocument did) = .ok s.tidy := by
  have hmethods : (s.toDocument did).methodList.mapM (keyOfMethod (s.toDocument did)) =
      .ok s.tidy.keys := by
    rw [Outcome.mapM_eq_ok, methodList_toDocument, tidy, List.map_map, List.map_map]
    refine List.map_congr_left fun e he => ?_
    change (.ok ⟨localPart (e.toMethod did).id, e.type, e.key,
      (s.toDocument did).purposes (e.toMethod did).id⟩ : Outcome KeyEntry) = .ok _
    rw [purposes_of_nodup hkeys hnodup did he, KeyEntry.toMethod, localPart_of_checkId (hkeys e he)]
  have hentries : (s.toDocument did).serviceList.mapM ServiceEntry.ofService =
      .ok s.services := by
    rw [Outcome.mapM_eq_ok, serviceList_toDocument, List.map_map]
    refine List.map_congr_left fun e he => ?_
    change (.ok ⟨localPart (e.toService did).id, e.type, e.endpoint⟩ : Outcome ServiceEntry) =
      .ok e
    rw [ServiceEntry.toService, localPart_of_checkId (hservices e he)]
  rw [ofDocument, hmethods, Outcome.ok_bind, hentries]
  rfl

/-- The document of a state whose purposes are in order gives this very state back. -/
theorem ofDocument_toDocument {s : State} (h : s.Shown) (did : String) :
    ofDocument (s.toDocument did) = .ok s := by
  rw [ofDocument_toDocument_of_nodup h.keys h.nodup h.services, h.tidy_eq]

/-- **The document of a sound state gives the state back**, for every DID, be it one with number
signs of its own: all is as it was, except that the purposes of each key come back in the order of
documents, each once. A new state has them like this, and comes back as it was. -/
theorem ofDocument_toDocument_of_check {s : State} (h : s.check = .ok ()) (did : String) :
    ofDocument (s.toDocument did) = .ok s.tidy ∧
      ∀ keys services, ofInputs keys services = .ok s → ofDocument (s.toDocument did) = .ok s := by
  obtain ⟨hkeys, hservices⟩ := check_eq_ok.mp h
  refine ⟨?_, fun keys services hnew => ofDocument_toDocument (shown_of_ofInputs hnew) did⟩
  exact ofDocument_toDocument_of_nodup (fun e he => checkId_eq_ok.mpr (hkeys.each e he).1)
    hkeys.nodup (fun e he => checkId_eq_ok.mpr (hservices.each e he).id) did

/-- Two keys that share purposes, which they name in any order and more than once. -/
def untidyState : State where
  keys := [
    ⟨"key-1", Suite.jsonWebKey2020, .okp { crv := "Ed25519", x := "" },
      [.keyAgreement, .authentication, .keyAgreement]⟩,
    ⟨"key-2", "Multikey", .okp { crv := "X25519", x := "" }, [.keyAgreement]⟩]
  services := [⟨"hub", "Hub", .value [("uri", .string "https://hub.example")]⟩]

theorem ofDocument_toDocument_untidy :
    ofDocument (untidyState.toDocument "did:example:a#b") =
        .ok { untidyState with
          keys := [
            ⟨"key-1", Suite.jsonWebKey2020, .okp { crv := "Ed25519", x := "" },
              [.authentication, .keyAgreement]⟩,
            ⟨"key-2", "Multikey", .okp { crv := "X25519", x := "" }, [.keyAgreement]⟩] } :=
  (ofDocument_toDocument_of_check (s := untidyState) rfl "did:example:a#b").1

end State

end Sidetree

end DidMethods
