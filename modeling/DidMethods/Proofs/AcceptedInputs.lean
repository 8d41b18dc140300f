import DidMethods.Proofs.LongForm
import DidMethods.Proofs.StateCheck
import Mathlib.Data.List.Forall2

/-!
# Which inputs make a DID

The keys and services that a caller wants in a document go through two checks before a DID is made
of them. The services are looked at as they are written: each text in an endpoint, also within a
map, has to be a URL, but identifiers may be anything and there may be any number of endpoints. What
becomes of them in a state is looked at again: identifiers have to be well formed, and maps may not
be empty, but they are not looked into. A request that passes both has to fit the limit on its size.

Neither check by itself says what is accepted. Together they accept exactly the inputs that are fine
in each of these respects (`DidMethods.IonMethod.Acceptable`,
`DidMethods.IonMethod.request_isOk_iff`), and all others are refused with one of two codes.
-/

namespace DidMethods

/-! ### Services as they are written -/

/-- A text is a URL; a map is not empty, and each text in it is a URL. -/
def Endpoint.IsReachable : Endpoint → Prop
  | .text url => ∃ u, Url.parse url = .ok u
  | .value members =>
    members ≠ [] ∧ ∀ name url, (name, Json.string url) ∈ members → ∃ u, Url.parse url = .ok u

/-- The check of services as they are written and the one of a state go together. -/
theorem Endpoint.isReachable_iff {e : Endpoint} :
    e.IsReachable ↔ e.check = .ok () ∧ e.IsUsable := by
  have hurl : ∀ url, (Url.parse url).map (fun _ => ()) = .ok () ↔ ∃ u, Url.parse url = .ok u :=
    fun url => Outcome.map_eq_ok.trans (exists_congr fun u => and_iff_left rfl)
  cases e with
  | text url => exact ⟨fun h => ⟨(hurl url).mpr h, h⟩, fun h => h.2⟩
  | value members =>
    refine and_comm.trans (and_congr_left fun _ => Iff.trans ?_ Outcome.forM_eq_ok.symm)
    constructor
    · rintro h ⟨name, v⟩ hm
      cases v with
      | string url => exact (hurl url).mpr (h name url hm)
      | _ => rfl
    · exact fun h name url hm => (hurl url).mp (h (name, .string url) hm)

namespace Service

theorem check_eq_ok {s : Service} :
    s.check = .ok () ↔ s.type.utf8ByteSize ≤ 30 ∧ ∀ e ∈ s.endpoint.toList, e.check = .ok () :=
  Outcome.ite_fail_eq_ok.trans (and_congr Nat.not_lt Outcome.forM_eq_ok)

theorem checkAll_eq_ok {services : List Service} :
    checkAll services = .ok () ↔
      Sidetree.AllDistinct localId (fun s => s.check = .ok ()) services := by
  -- nothing is checked of a service before its identifier
  have hafter : checkAll services = .ok () ↔ _ :=
    (@Sidetree.checkAfter_eq_ok _ _ _ (fun _ => .ok ()) _
      (fun s => s!"duplicate service ID: {s.id}") _ (fun _ => rfl) (fun _ _ _ => rfl) []).trans
      (and_iff_left fun _ _ => List.not_mem_nil)
  simpa only [true_and] using hafter

/-- What is asked of a service. -/
structure Acceptable (s : Service) : Prop where
  /-- What follows the last number sign of its identifier is well formed. -/
  id : Sidetree.IsLocalId s.localId
  /-- The type is not too long. -/
  type : s.type.utf8ByteSize ≤ 30
  /-- There is one endpoint, and it can be reached. -/
  endpoint : ∃ e, s.endpoint.toList = [e] ∧ e.IsReachable

end Service

namespace Sidetree

/-! ### Entries and what they are made of -/

/-- The entry of a service has its local identifier, its type, and its only endpoint. -/
structure ServiceEntry.IsOf (s : Service) (e : ServiceEntry) : Prop where
  /-- The identifier. -/
  id : e.id = s.localId
  /-- The type. -/
  type : e.type = s.type
  /-- The endpoint. -/
  endpoint : s.endpoint.toList = [e.endpoint]

theorem ServiceEntry.ofService_eq_ok {s : Service} {e : ServiceEntry} :
    ofService s = .ok e ↔ IsOf s e := by
  rw [ofService]
  constructor
  · intro h
    split at h
    · next endpoint hlist =>
      obtain rfl := Except.ok.inj h
      exact ⟨rfl, rfl, hlist⟩
    · cases h
  · rintro ⟨hid, htype, hlist⟩
    rw [hlist, ← hid, ← htype]

theorem ServiceEntry.mapM_ofService_eq_ok {services : List Service} {entries : List ServiceEntry} :
    services.mapM ofService = .ok entries ↔ List.Forall₂ IsOf services entries := by
  rw [Outcome.mapM_eq_ok, ← List.forall₂_eq_eq_eq, List.forall₂_map_left_iff,
    List.forall₂_map_right_iff]
  simp only [ofService_eq_ok]

/-- The entries have the local identifiers of the services. -/
theorem ServiceEntry.map_id_eq {services : List Service} {entries : List ServiceEntry}
    (h : List.Forall₂ IsOf services entries) : entries.map id = services.map Service.localId := by
  induction h with
  | nil => rfl
  | cons hof _ ih => rw [List.map_cons, List.map_cons, hof.id, ih]

/-- The identifier that a key gets: what follows the last number sign of the one that is wanted, or
the thumbprint if none is. -/
def KeyInput.localId (k : KeyInput) : String :=
  (k.id.map localPart).getD k.key.thumbprint

theorem KeyInput.id_toEntry (k : KeyInput) : k.toEntry.id = k.localId := by
  rw [toEntry, localId, Jwk.thumbprint_toPublic]
  cases k.id <;> rfl

/-! ### What is asked of inputs -/

/-- What is asked of a key. -/
structure KeyInput.Acceptable (k : KeyInput) : Prop where
  /-- The identifier that it gets is well formed. -/
  id : IsLocalId k.localId
  /-- It is not symmetric. -/
  key : ∀ secret, k.key ≠ .oct secret

theorem KeyInput.acceptable_iff {k : KeyInput} :
    k.Acceptable ↔ IsLocalId k.toEntry.id ∧ k.toEntry.key.isPrivate = false := by
  -- the private members of any other key have been dropped
  have hprivate : k.key.toPublic.isPrivate = false ↔ ∀ secret, k.key ≠ .oct secret := by
    cases k.key <;> simp [Jwk.toPublic, Jwk.isPrivate]
  rw [id_toEntry]
  exact ⟨fun h => ⟨h.id, hprivate.mpr h.key⟩, fun h => ⟨h.1, hprivate.mp h.2⟩⟩

theorem ServiceEntry.IsOf.acceptable_iff {s : Service} {e : ServiceEntry} (hof : IsOf s e) :
    s.Acceptable ↔ s.check = .ok () ∧ e.Sound := by
  rw [Service.check_eq_ok, hof.endpoint, List.forall_mem_singleton]
  constructor
  · rintro ⟨hid, htype, endpoint, hlist, hreachable⟩
    obtain rfl : e.endpoint = endpoint := List.singleton_inj.mp (hof.endpoint.symm.trans hlist)
    obtain ⟨hcheck, husable⟩ := Endpoint.isReachable_iff.mp hreachable
    exact ⟨⟨htype, hcheck⟩, hof.id ▸ hid, hof.type ▸ htype, husable⟩
  · rintro ⟨⟨htype, hcheck⟩, hsound⟩
    exact ⟨hof.id ▸ hsound.id, htype, e.endpoint, hof.endpoint,
      Endpoint.isReachable_iff.mpr ⟨hcheck, hsound.endpoint⟩⟩

/-- Services can be accepted if both checks accept them. -/
theorem ServiceEntry.allDistinct_acceptable_iff {services : List Service}
    {entries : List ServiceEntry} (h : List.Forall₂ IsOf services entries) :
    AllDistinct Service.localId Service.Acceptable services ↔
      Service.checkAll services = .ok () ∧
        AllDistinct ServiceEntry.id ServiceEntry.Sound entries := by
  have hmapM := mapM_ofService_eq_ok.mpr h
  have hids := map_id_eq h
  rw [Service.checkAll_eq_ok]
  constructor
  · rintro ⟨hall, hnodup⟩
    refine ⟨⟨fun s hs => ?_, hnodup⟩, ⟨fun e he => ?_, hids ▸ hnodup⟩⟩
    · obtain ⟨e, -, hof⟩ := Outcome.exists_mem_of_mapM hmapM hs
      exact ((ofService_eq_ok.mp hof).acceptable_iff.mp (hall s hs)).1
    · obtain ⟨s, hs, hof⟩ := Outcome.exists_of_mem_mapM hmapM he
      exact ((ofService_eq_ok.mp hof).acceptable_iff.mp (hall s hs)).2
  · rintro ⟨⟨hchecks, hnodup⟩, hsound⟩
    refine ⟨fun s hs => ?_, hnodup⟩
    obtain ⟨e, he, hof⟩ := Outcome.exists_mem_of_mapM hmapM hs
    exact (ofService_eq_ok.mp hof).acceptable_iff.mpr ⟨hchecks s hs, hsound.each e he⟩

theorem KeyInput.allDistinct_acceptable_iff {keys : List KeyInput} :
    AllDistinct localId Acceptable keys ↔
      AllDistinct KeyEntry.id (fun e => IsLocalId e.id ∧ e.key.isPrivate = false)
        (keys.map toEntry) := by
  have hids : (keys.map toEntry).map KeyEntry.id = keys.map localId := by
    rw [List.map_map]
    exact List.map_congr_left fun k _ => k.id_toEntry
  constructor
  · rintro ⟨hall, hnodup⟩
    exact ⟨List.forall_mem_map.mpr fun k hk => acceptable_iff.mp (hall k hk),
      hids ▸ hnodup⟩
  · rintro ⟨hall, hnodup⟩
    exact ⟨fun k hk => acceptable_iff.mpr (hall _ (List.mem_map_of_mem hk)),
      hids ▸ hnodup⟩

end Sidetree

/-! ### Codes of failures -/

namespace Outcome

variable {codes : List Code}

theorem failsOnly_parse (h : .invalidFormat ∈ codes) (url : String) :
    FailsOnly codes ((Url.parse url).map fun _ => ()) := by
  intro f hf
  rw [Url.parse] at hf
  cases hurl : Url.parse? url with
  | some u =>
    rw [hurl] at hf
    cases hf
  | none =>
    rw [hurl] at hf
    obtain rfl := Except.error.inj hf
    exact h

theorem failsOnly_serviceCheck (h : .invalidFormat ∈ codes) (s : Service) :
    FailsOnly codes s.check := by
  refine (failsOnly_fail h _).ite (FailsOnly.forM (fun e => ?_) _)
  cases e with
  | text url => exact failsOnly_parse h url
  | value members =>
    refine FailsOnly.forM (fun m => ?_) _
    obtain ⟨name, v⟩ := m
    cases v with
    | string url => exact failsOnly_parse h url
    | _ => exact failsOnly_ok ()

theorem failsOnly_entryCheck (h : .invalidFormat ∈ codes) (e : Sidetree.ServiceEntry) :
    FailsOnly codes e.check := by
  obtain ⟨id, type, endpoint⟩ := e
  refine (failsOnly_fail h _).ite ?_
  cases endpoint with
  | text url => exact failsOnly_parse h url
  | value members =>
    cases members with
    | nil => exact failsOnly_fail h _
    | cons m members => exact failsOnly_ok ()

theorem failsOnly_checkId (h : .invalidFormat ∈ codes) (id : String) :
    FailsOnly codes (Sidetree.checkId id) :=
  (failsOnly_fail h _).ite ((failsOnly_fail h _).ite (failsOnly_ok ()))

theorem failsOnly_ofInputs (hformat : .invalidFormat ∈ codes) (hinput : .invalidInput ∈ codes)
    (keys : List Sidetree.KeyInput) (services : List Service) :
    FailsOnly codes (Sidetree.State.ofInputs keys services) := by
  have hentry : ∀ s, FailsOnly codes (Sidetree.ServiceEntry.ofService s) := by
    intro s
    rw [Sidetree.ServiceEntry.ofService]
    split
    · exact failsOnly_ok _
    · exact failsOnly_fail hinput _
  refine (FailsOnly.mapM hentry _).bind fun entries => FailsOnly.bind ?_ fun _ => failsOnly_ok _
  refine FailsOnly.bind ?_ fun _ => ?_
  · exact Sidetree.failsOnly_checkAfter (fun e => s!"duplicate public key ID: {e.id}")
      (fun _ => rfl) (fun _ _ _ => rfl) hinput (fun e => failsOnly_checkId hformat e.id)
      (fun e => (failsOnly_fail hinput _).ite (failsOnly_ok ())) _ _
  · exact Sidetree.failsOnly_checkAfter (fun e => s!"duplicate service ID: {e.id}")
      (fun _ => rfl) (fun _ _ _ => rfl) hinput (fun e => failsOnly_checkId hformat e.id)
      (failsOnly_entryCheck hformat) _ _

end Outcome

/-! ### Requests -/

namespace IonMethod

open Sidetree

/-- **What is asked of the inputs of a new DID.** -/
structure Acceptable (recovery update : Jwk) (keys : List KeyInput) (services : List Service) :
    Prop where
  /-- The keys are fine by themselves and get different identifiers. -/
  distinctKeys : AllDistinct KeyInput.localId KeyInput.Acceptable keys
  /-- The services are fine by themselves and get different identifiers. -/
  distinctServices : AllDistinct Service.localId Service.Acceptable services
  /-- The canonical text of the delta with the entries of these keys and services is not too
  long. -/
  size : ∃ entries, List.Forall₂ ServiceEntry.IsOf services entries ∧
    (CreateRequest.made recovery update
      { keys := keys.map KeyInput.toEntry, services := entries }).delta.toJson.canonicalBytes.length
        ≤ 1000

theorem failsOnly_request (recovery update : Jwk) (keys : List KeyInput)
    (services : List Service) :
    (request recovery update keys services).FailsOnly [.invalidInput, .invalidFormat] := by
  have hinput : Code.invalidInput ∈ [Code.invalidInput, .invalidFormat] := by decide
  have hformat : Code.invalidFormat ∈ [Code.invalidInput, .invalidFormat] := by decide
  refine Outcome.FailsOnly.bind ?_ fun _ =>
    (Outcome.failsOnly_ofInputs hformat hinput keys services).bind fun state => ?_
  · exact @failsOnly_checkAfter _ _ _ (fun _ => .ok ()) _
      (fun s => s!"duplicate service ID: {s.id}") _ (fun _ => rfl) (fun _ _ _ => rfl) hinput
      (fun _ => Outcome.failsOnly_ok ()) (Outcome.failsOnly_serviceCheck hformat) _ _
  · refine Outcome.FailsOnly.bind ?_ fun _ => Outcome.failsOnly_ok _
    exact (Outcome.failsOnly_fail hformat _).ite (Outcome.failsOnly_ok ())

/-- **Which inputs make a DID**: exactly the ones that are acceptable. All others are refused, with
one of two codes. -/
theorem request_isOk_iff (recovery update : Jwk) (keys : List KeyInput)
    (services : List Service) :
    ((∃ r, request recovery update keys services = .ok r) ↔
      Acceptable recovery update keys services) ∧
    ∀ f, request recovery update keys services = .error f →
      f.code = .invalidInput ∨ f.code = .invalidFormat := by
  constructor
  · constructor
    · rintro ⟨r, h⟩
      obtain ⟨hall, state, hstate, hnew⟩ := request_eq_ok.mp h
      obtain ⟨entries, hentries, rfl, hcheck⟩ := State.ofInputs_eq_ok.mp hstate
      obtain ⟨hkeys, hservices⟩ := State.check_eq_ok.mp hcheck
      have hof := ServiceEntry.mapM_ofService_eq_ok.mp hentries
      exact ⟨KeyInput.allDistinct_acceptable_iff.mpr hkeys,
        (ServiceEntry.allDistinct_acceptable_iff hof).mpr ⟨hall, hservices⟩, entries, hof,
        Nat.not_lt.mp (Outcome.ite_fail_eq_ok.mp (CreateRequest.new_eq_ok.mp hnew).1).1⟩
    · rintro ⟨hkeys, hservices, entries, hof, hsize⟩
      obtain ⟨hall, hsound⟩ := (ServiceEntry.allDistinct_acceptable_iff hof).mp hservices
      have hcheck : State.check { keys := keys.map KeyInput.toEntry, services := entries } =
          .ok () := State.check_eq_ok.mpr ⟨KeyInput.allDistinct_acceptable_iff.mp hkeys, hsound⟩
      have hstate := State.ofInputs_eq_ok.mpr
        ⟨entries, ServiceEntry.mapM_ofService_eq_ok.mpr hof, rfl, hcheck⟩
      have hnew := CreateRequest.new_eq_ok.mpr ⟨if_neg (Nat.not_lt.mpr hsize), rfl⟩
      exact ⟨_, request_eq_ok.mpr ⟨hall, _, hstate, hnew⟩⟩
  · intro f hf
    simpa using failsOnly_request recovery update keys services f hf

theorem request_isOk_iff_sample :
    Acceptable sampleKey sampleKey sampleKeys sampleServices ∧
      ¬ Acceptable sampleKey sampleKey [{ id := some "secret", key := .oct { k := "AA" } }] [] := by
  refine ⟨(request_isOk_iff _ _ _ _).1.mp ⟨_, request_sample⟩, fun h => ?_⟩
  -- a symmetric key counts as private
  obtain ⟨r, hr⟩ := (request_isOk_iff _ _ _ _).1.mpr h
  have hrefused : request sampleKey sampleKey [{ id := some "secret", key := .oct { k := "AA" } }]
      [] = fail .invalidInput "public key secret has private key material" := rfl
  exact fail_ne_ok _ _ _ (hrefused.symm.trans hr)

end IonMethod

end DidMethods
