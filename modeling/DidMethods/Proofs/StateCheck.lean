import DidMethods.Proofs.Base64Url
import DidMethods.Proofs.KeyNames
import DidMethods.Proofs.Outcome
import DidMethods.Sidetree.State

/-!
# What is checked of a state

A new state is checked before a DID is made of it: identifiers are well formed and pairwise
different, no key is private, endpoints can be used (`DidMethods.Sidetree.State.check_eq_ok`). Keys
and services go through the same loop, which is looked at once
(`DidMethods.Sidetree.checkAfter_eq_ok`). What the check asks of a key is that it does not count as
private; a new state has no private members at all (`DidMethods.Sidetree.State.sound_of_ofInputs`).
-/

namespace DidMethods

/-- A base64 digit is one octet. -/
theorem Base64Url.utf8ByteSize_of_isDigit {s : String}
    (h : ∀ c ∈ s.toList, isDigit c = true) : s.utf8ByteSize = s.length := by
  have hall : alphabet.all (fun c => c.utf8Size == 1) = true := by decide +kernel
  obtain ⟨cs, rfl⟩ : ∃ cs, s = String.ofList cs := ⟨s.toList, String.ofList_toList.symm⟩
  rw [String.toList_ofList] at h
  rw [← String.length_toList, String.toList_ofList]
  induction cs with
  | nil => rfl
  | cons c cs ih =>
    obtain ⟨hc, hcs⟩ := List.forall_mem_cons.mp h
    rw [String.ofList_cons, String.utf8ByteSize_append, String.utf8ByteSize_singleton, ih hcs,
      beq_iff_eq.mp (of_isDigit hall hc), List.length_cons, Nat.add_comm]

/-- The key has no private member, and it is not symmetric. -/
structure Jwk.IsPublic (k : Jwk) : Prop where
  /-- It does not count as a private key. -/
  notPrivate : k.isPrivate = false
  /-- There is nothing to drop from it. -/
  toPublic_eq : k.toPublic = k

@[simp] theorem Jwk.toPublic_toPublic (k : Jwk) : k.toPublic.toPublic = k.toPublic := by
  cases k <;> rfl

/-- Private members are not among those that define a key. -/
@[simp] theorem Jwk.thumbprint_toPublic (k : Jwk) : k.toPublic.thumbprint = k.thumbprint :=
  (sameNames_of_canonical k.canonical_toPublic).thumbprint

/-- A text is a URL, a map is not empty. -/
def Endpoint.IsUsable : Endpoint → Prop
  | .text url => ∃ u, Url.parse url = .ok u
  | .value members => members ≠ []

namespace Sidetree

/-! ### Sound entries -/

/-- One to fifty digits of URL-safe base64. -/
structure IsLocalId (id : String) : Prop where
  /-- It is not empty. -/
  pos : 1 ≤ id.length
  /-- It is not too long. -/
  le : id.length ≤ 50
  /-- It is made of digits. -/
  digits : ∀ c ∈ id.toList, Base64Url.isDigit c = true

/-- A well-formed identifier is made of base64 digits. -/
theorem isDigit_of_checkId {id : String} (h : checkId id = .ok ()) :
    ∀ c ∈ id.toList, Base64Url.isDigit c = true := by
  obtain ⟨-, h⟩ := Outcome.ite_fail_eq_ok.mp h
  exact List.all_eq_true.mp (Decidable.not_not.mp (Outcome.ite_fail_eq_ok.mp h).1)

theorem checkId_eq_ok {id : String} : checkId id = .ok () ↔ IsLocalId id := by
  have hchecks : checkId id = .ok () ↔ ¬ (id.isEmpty = true ∨ id.utf8ByteSize > maxIdLength) ∧
      ∀ c ∈ id.toList, Base64Url.isDigit c = true := by
    constructor
    · intro h
      exact ⟨(Outcome.ite_fail_eq_ok.mp h).1, isDigit_of_checkId h⟩
    · rintro ⟨hsize, hdigits⟩
      exact Outcome.ite_fail_eq_ok.mpr ⟨hsize,
        Outcome.ite_fail_eq_ok.mpr ⟨Classical.not_not.mpr (List.all_eq_true.mpr hdigits), rfl⟩⟩
  have hempty : id.isEmpty = true ↔ id.length = 0 := by simp
  rw [hchecks, hempty, maxIdLength]
  constructor
  · rintro ⟨hsize, hdigits⟩
    rw [Base64Url.utf8ByteSize_of_isDigit hdigits] at hsize
    exact ⟨by omega, by omega, hdigits⟩
  · rintro ⟨hpos, hle, hdigits⟩
    rw [Base64Url.utf8ByteSize_of_isDigit hdigits]
    exact ⟨by omega, hdigits⟩

/-- A key that may stand in a document. -/
structure KeyEntry.Sound (e : KeyEntry) : Prop where
  /-- The identifier is well formed. -/
  id : IsLocalId e.id
  /-- The key is public. -/
  key : e.key.IsPublic

/-- A service that may stand in a document. -/
structure ServiceEntry.Sound (e : ServiceEntry) : Prop where
  /-- The identifier is well formed. -/
  id : IsLocalId e.id
  /-- The type is not too long. -/
  type : e.type.utf8ByteSize ≤ 30
  /-- The endpoint can be used. -/
  endpoint : e.endpoint.IsUsable

theorem ServiceEntry.check_eq_ok {e : ServiceEntry} :
    e.check = .ok () ↔ e.type.utf8ByteSize ≤ 30 ∧ e.endpoint.IsUsable := by
  obtain ⟨id, type, endpoint⟩ := e
  refine Outcome.ite_fail_eq_ok.trans (and_congr Nat.not_lt ?_)
  cases endpoint with
  | text url =>
    change (Url.parse url).map (fun _ => ()) = .ok () ↔ ∃ u, Url.parse url = .ok u
    cases hurl : Url.parse url <;> simp [Except.map]
  | value members =>
    cases members with
    | nil => exact iff_of_false (fail_ne_ok _ _ _) fun h => h rfl
    | cons member members => exact iff_of_true rfl (List.cons_ne_nil _ _)

/-! ### Lists of entries -/

section Entries

variable {α : Type} {id : α → String} {p : α → Prop} {entries new : List α}

/-- Something is true of each entry, and no two entries have the same identifier. -/
structure AllDistinct (id : α → String) (p : α → Prop) (entries : List α) : Prop where
  /-- Each entry. -/
  each : ∀ e ∈ entries, p e
  /-- The identifiers. -/
  nodup : (entries.map id).Nodup

theorem AllDistinct.nil : AllDistinct id p [] :=
  ⟨fun _ he => absurd he List.not_mem_nil, List.nodup_nil⟩

/-- What is checked of a list of entries, one after the other: something of each entry, that its
identifier is not taken, and something else of the entry. -/
theorem checkAfter_eq_ok {before each : α → Outcome Unit} (message : α → String)
    {checkAfter : List String → List α → Outcome Unit} (hnil : ∀ t, checkAfter t [] = .ok ())
    (hcons : ∀ t e rest, checkAfter t (e :: rest) = (do
      before e
      if t.contains (id e) then fail .invalidInput (message e)
      each e
      checkAfter (id e :: t) rest))
    (taken : List String) :
    checkAfter taken entries = .ok () ↔
      AllDistinct id (fun e => before e = .ok () ∧ each e = .ok ()) entries ∧
        ∀ e ∈ entries, id e ∉ taken := by
  induction entries generalizing taken with
  | nil => exact iff_of_true (hnil taken) ⟨.nil, fun _ he => absurd he List.not_mem_nil⟩
  | cons e rest ih =>
    rw [hcons]
    constructor
    · intro h
      obtain ⟨⟨⟩, hbefore, h⟩ := Outcome.bind_eq_ok.mp h
      obtain ⟨htaken, h⟩ := Outcome.ite_fail_eq_ok.mp h
      obtain ⟨⟨⟩, heach, h⟩ := Outcome.bind_eq_ok.mp h
      obtain ⟨hrest, hnot⟩ := (ih _).mp h
      have hnew : id e ∉ rest.map id := by
        intro hmem
        obtain ⟨f, hf, heq⟩ := List.mem_map.mp hmem
        exact hnot f hf (heq ▸ List.mem_cons_self)
      refine ⟨⟨List.forall_mem_cons.mpr ⟨⟨hbefore, heach⟩, hrest.each⟩,
        List.nodup_cons.mpr ⟨hnew, hrest.nodup⟩⟩, List.forall_mem_cons.mpr ⟨by simpa using htaken,
          fun f hf hmem => hnot f hf (List.mem_cons_of_mem _ hmem)⟩⟩
    · rintro ⟨⟨hall, hnodup⟩, htaken⟩
      obtain ⟨⟨hbefore, heach⟩, hall⟩ := List.forall_mem_cons.mp hall
      obtain ⟨hnew, hnodup⟩ := List.nodup_cons.mp hnodup
      obtain ⟨hfree, htaken⟩ := List.forall_mem_cons.mp htaken
      have hrest : checkAfter (id e :: taken) rest = .ok () := by
        refine (ih _).mpr ⟨⟨hall, hnodup⟩, fun f hf hmem => ?_⟩
        rcases List.mem_cons.mp hmem with heq | hmem
        · exact hnew (heq ▸ List.mem_map_of_mem hf)
        · exact htaken f hf hmem
      rw [hbefore, Outcome.ok_bind, if_neg (by simpa using hfree), heach]
      exact hrest

/-- A check of a list fails with the codes of its parts, or since an identifier is taken. -/
theorem failsOnly_checkAfter {codes : List Code} {before each : α → Outcome Unit}
    (message : α → String) {checkAfter : List String → List α → Outcome Unit}
    (hnil : ∀ t, checkAfter t [] = .ok ())
    (hcons : ∀ t e rest, checkAfter t (e :: rest) = (do
      before e
      if t.contains (id e) then fail .invalidInput (message e)
      each e
      checkAfter (id e :: t) rest))
    (hcode : .invalidInput ∈ codes) (hbefore : ∀ e, (before e).FailsOnly codes)
    (heach : ∀ e, (each e).FailsOnly codes) (taken : List String) (entries : List α) :
    (checkAfter taken entries).FailsOnly codes := by
  induction entries generalizing taken with
  | nil =>
    rw [hnil]
    exact Outcome.failsOnly_ok ()
  | cons e rest ih =>
    rw [hcons]
    refine (hbefore e).bind fun _ => ?_
    exact (Outcome.failsOnly_fail hcode _).ite ((heach e).bind fun _ => ih _)

end Entries

/-! ### Sound states -/

namespace State

/-- Something is true of each key, something of each service, and identifiers are pairwise
different. -/
structure All (p : KeyEntry → Prop) (q : ServiceEntry → Prop) (s : State) : Prop where
  /-- The keys. -/
  keys : AllDistinct KeyEntry.id p s.keys
  /-- The services. -/
  services : AllDistinct ServiceEntry.id q s.services

/-- The state is what a new one is checked to be. -/
def Sound (s : State) : Prop := s.All KeyEntry.Sound ServiceEntry.Sound

theorem All.mono {p p' : KeyEntry → Prop} {q q' : ServiceEntry → Prop} {s : State}
    (h : s.All p q) (hp : ∀ e, p e → p' e) (hq : ∀ e, q e → q' e) : s.All p' q' where
  keys := ⟨fun e he => hp e (h.keys.each e he), h.keys.nodup⟩
  services := ⟨fun e he => hq e (h.services.each e he), h.services.nodup⟩

/-- **What a state is checked for.** Of a key it is only checked that it does not count as
private. -/
theorem check_eq_ok {s : State} :
    s.check = .ok () ↔
      s.All (fun e => IsLocalId e.id ∧ e.key.isPrivate = false) ServiceEntry.Sound := by
  have hkey : ∀ e : KeyEntry, e.check = .ok () ↔ e.key.isPrivate = false := by
    intro e
    rw [KeyEntry.check]
    cases e.key.isPrivate <;> simp
  have hservice : ∀ e : ServiceEntry, IsLocalId e.id ∧ e.check = .ok () ↔ e.Sound := fun e =>
    ⟨fun ⟨hid, h⟩ => ⟨hid, (ServiceEntry.check_eq_ok.mp h).1, (ServiceEntry.check_eq_ok.mp h).2⟩,
      fun h => ⟨h.id, ServiceEntry.check_eq_ok.mpr ⟨h.type, h.endpoint⟩⟩⟩
  -- no identifier is taken in the beginning
  have hkeys : KeyEntry.checkAfter [] s.keys = .ok () ↔ _ :=
    (checkAfter_eq_ok (fun e => s!"duplicate public key ID: {e.id}") (fun _ => rfl)
      (fun _ _ _ => rfl) []).trans (and_iff_left fun _ _ => List.not_mem_nil)
  have hservices : ServiceEntry.checkAfter [] s.services = .ok () ↔ _ :=
    (checkAfter_eq_ok (fun e => s!"duplicate service ID: {e.id}") (fun _ => rfl)
      (fun _ _ _ => rfl) []).trans (and_iff_left fun _ _ => List.not_mem_nil)
  simp only [checkId_eq_ok, hkey] at hkeys
  simp only [checkId_eq_ok, hservice] at hservices
  constructor
  · intro h
    obtain ⟨⟨⟩, h, h'⟩ := Outcome.bind_eq_ok.mp h
    exact ⟨hkeys.mp h, hservices.mp h'⟩
  · rintro ⟨h, h'⟩
    rw [check, hkeys.mpr h]
    exact hservices.mpr h'

/-- A sound state passes its check. -/
theorem Sound.check {s : State} (h : s.Sound) : s.check = .ok () :=
  check_eq_ok.mpr (h.mono (fun _ he => ⟨he.id, he.key.notPrivate⟩) fun _ he => he)

/-- A new state holds the entries of keys and services, and has passed its check. -/
theorem ofInputs_eq_ok {keys : List KeyInput} {services : List Service} {s : State} :
    ofInputs keys services = .ok s ↔ ∃ entries, services.mapM ServiceEntry.ofService = .ok entries ∧
      s = { keys := keys.map KeyInput.toEntry, services := entries } ∧ s.check = .ok () := by
  constructor
  · intro h
    obtain ⟨entries, hentries, h⟩ := Outcome.bind_eq_ok.mp h
    obtain ⟨⟨⟩, hcheck, h⟩ := Outcome.bind_eq_ok.mp h
    obtain rfl := Except.ok.inj h
    exact ⟨entries, hentries, rfl, hcheck⟩
  · rintro ⟨entries, hentries, rfl, hcheck⟩
    rw [ofInputs, hentries, Outcome.ok_bind]
    exact Outcome.bind_eq_ok.mpr ⟨(), hcheck, rfl⟩

/-- **A new state is sound**: its keys have no private members, since these were dropped, and none
of them is symmetric, since this was checked. -/
theorem sound_of_ofInputs {keys : List KeyInput} {services : List Service} {s : State}
    (h : ofInputs keys services = .ok s) : s.Sound := by
  obtain ⟨entries, -, rfl, hcheck⟩ := ofInputs_eq_ok.mp h
  obtain ⟨⟨hkeys, hnodup⟩, hservices⟩ := check_eq_ok.mp hcheck
  refine ⟨⟨fun e he => ?_, hnodup⟩, hservices⟩
  obtain ⟨hid, hprivate⟩ := hkeys e he
  obtain ⟨k, -, rfl⟩ := List.mem_map.mp he
  exact ⟨hid, hprivate, k.key.toPublic_toPublic⟩

end State

end Sidetree

end DidMethods
