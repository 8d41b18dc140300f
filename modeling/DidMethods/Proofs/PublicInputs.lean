import DidMethods.Proofs.Publish
import Mathlib.Data.List.Forall2
import Mathlib.Logic.Relation

/-!
# What a DID does not depend on

One and the same DID can be asked for in many ways. A key may come with its private members or
without, and with its purposes in any order; what is left out has a default, which can as well be
written; identifiers may stand in the context of some document; and a service with one endpoint may
have it by itself or in a list. None of this shows in the DID
(`DidMethods.IonMethod.longFormDid_eq_of_rewrites`). In particular no private member does, so that
nothing leaks into an identifier that is public and can never be changed.

Sentences of failures do quote what was written, so that failures are compared by their codes.
-/

namespace DidMethods

namespace Outcome

variable {α β γ : Type}

/-- Lists are gone through alike if their items are looked at alike. -/
theorem coded_mapM {f : α → Outcome β} {g : γ → Outcome β} {items : List α} {others : List γ}
    (h : List.Forall₂ (fun a c => (f a).coded = (g c).coded) items others) :
    (items.mapM f).coded = (others.mapM g).coded := by
  induction h with
  | nil => rfl
  | cons hhead _ ih =>
    rw [List.mapM_cons, List.mapM_cons, coded_bind, coded_bind, hhead]
    simp only [coded_bind, ih]

end Outcome

/-- What each rewriting keeps is the same for inputs that some rewritings lead to and from. -/
theorem eq_of_eqvGen {α β : Type} {r : α → α → Prop} {f : α → β}
    (h : ∀ {a b}, r a b → f a = f b) {a b : α} (hab : Relation.EqvGen r a b) : f a = f b := by
  induction hab with
  | rel a b hr => exact h hr
  | refl a => rfl
  | symm a b _ ih => exact ih.symm
  | trans a b c _ _ hab hbc => exact hab.trans hbc

/-! ### Keys -/

/-- Two keys that differ at most in private members. -/
inductive Jwk.SamePublic : Jwk → Jwk → Prop
  /-- On a curve with two coordinates. -/
  | ec (k : Ec) (d : Option String) : SamePublic (.ec k) (.ec { k with d := d })
  /-- On a curve whose public keys are octet strings. -/
  | okp (k : Okp) (d : Option String) : SamePublic (.okp k) (.okp { k with d := d })
  /-- RSA keys. -/
  | rsa (k : Rsa) (d p q dp dq qi : Option String) :
    SamePublic (.rsa k) (.rsa { k with d := d, p := p, q := q, dp := dp, dq := dq, qi := qi })

theorem Jwk.SamePublic.toPublic_eq {k k' : Jwk} (h : k.SamePublic k') :
    k.toPublic = k'.toPublic := by
  cases h <;> rfl

/-- A thumbprint is an identifier of its own. -/
theorem localPart_thumbprint (k : Jwk) : localPart k.thumbprint = k.thumbprint := by
  refine localPart_of_not_mem fun hmem => ?_
  have hdigit : Base64Url.isDigit '#' = true := Base64Url.isDigit_of_mem_encode hmem
  revert hdigit
  decide

namespace Sidetree

/-- A key, written in another way. -/
inductive KeyInput.Rewrite : KeyInput → KeyInput → Prop
  /-- With other private members. -/
  | privateMembers (k : KeyInput) {key : Jwk} (h : k.key.SamePublic key) :
    Rewrite k { k with key := key }
  /-- With its purposes in another order, or another number of times. -/
  | purposes (k : KeyInput) {purposes : List Purpose} (h : ∀ p, p ∈ purposes ↔ p ∈ k.purposes) :
    Rewrite k { k with purposes := purposes }
  /-- With the type that it has anyway. -/
  | type (k : KeyInput) (h : k.type = none) :
    Rewrite k { k with type := some Suite.jsonWebKey2020 }
  /-- With the identifier that it has anyway. -/
  | thumbprint (k : KeyInput) (h : k.id = none) : Rewrite k { k with id := some k.key.thumbprint }
  /-- With an identifier that some text has been put before. -/
  | id (k : KeyInput) {id : String} (h : k.id = some id) (text : String) :
    Rewrite k { k with id := some (text ++ "#" ++ id) }

theorem KeyInput.Rewrite.toEntry_eq {k k' : KeyInput} (h : Rewrite k k') :
    k.toEntry = k'.toEntry := by
  cases h with
  | privateMembers hkey =>
    simp only [toEntry, hkey.toPublic_eq]
  | purposes hmem =>
    have hsame : Purpose.inOrder k.purposes = Purpose.inOrder _ := Purpose.inOrder_eq_iff.mpr
      ⟨List.filter_sublist, fun p => Purpose.mem_inOrder.trans (hmem p)⟩
    simp only [toEntry, hsame]
  | type hnone =>
    simp only [toEntry, hnone, Option.getD_none, Option.getD_some]
  | thumbprint hnone =>
    simp only [toEntry, hnone, Jwk.thumbprint_toPublic, localPart_thumbprint]
  | id hid text =>
    simp only [toEntry, hid, localPart_append_sep]

theorem KeyInput.map_toEntry_eq {keys keys' : List KeyInput}
    (h : List.Forall₂ (Relation.EqvGen Rewrite) keys keys') :
    keys.map toEntry = keys'.map toEntry := by
  rw [← List.forall₂_eq_eq_eq, List.forall₂_map_left_iff, List.forall₂_map_right_iff]
  exact h.imp fun _ _ => eq_of_eqvGen (f := toEntry) Rewrite.toEntry_eq

end Sidetree

/-! ### Services -/

namespace Service

/-- A service, written in another way. -/
inductive Rewrite : Service → Service → Prop
  /-- With an identifier that some text has been put before. -/
  | id (s : Service) (text : String) : Rewrite s { s with id := text ++ "#" ++ s.id }
  /-- With its endpoint in a list. -/
  | endpoint (s : Service) {e : Endpoint} (h : s.endpoint = .one e) :
    Rewrite s { s with endpoint := .many [e] }

/-- What counts of a service. -/
def gist (s : Service) : String × String × List Endpoint :=
  (s.localId, s.type, s.endpoint.toList)

theorem Rewrite.gist_eq {s s' : Service} (h : Rewrite s s') : s.gist = s'.gist := by
  cases h with
  | id text => simp only [gist, localId, localPart_append_sep]
  | endpoint hone =>
    simp only [gist, localId, hone]
    rfl

variable {s s' : Service} {services services' : List Service}

theorem gist_eq_iff :
    s.gist = s'.gist ↔
      s.localId = s'.localId ∧ s.type = s'.type ∧ s.endpoint.toList = s'.endpoint.toList := by
  simp only [gist, Prod.mk.injEq]

theorem check_eq_of_gist (h : s.gist = s'.gist) : s.check = s'.check := by
  obtain ⟨-, htype, hendpoint⟩ := gist_eq_iff.mp h
  rw [check, check, htype, hendpoint]

theorem coded_checkAfter (h : List.Forall₂ (fun s s' => s.gist = s'.gist) services services')
    (taken : List String) :
    (checkAfter taken services).coded = (checkAfter taken services').coded := by
  induction h generalizing taken with
  | nil => rfl
  | @cons s s' rest rest' hgist _ ih =>
    obtain ⟨hid, -, -⟩ := gist_eq_iff.mp hgist
    rw [checkAfter, checkAfter, hid, check_eq_of_gist hgist]
    by_cases htaken : taken.contains s'.localId = true
    · rw [if_pos htaken, if_pos htaken]
      rfl
    · rw [if_neg htaken, if_neg htaken]
      simp only [Outcome.coded_bind, ih]

end Service

namespace Sidetree

theorem ServiceEntry.coded_ofService {s s' : Service} (h : s.gist = s'.gist) :
    (ofService s).coded = (ofService s').coded := by
  obtain ⟨hid, htype, hendpoint⟩ := Service.gist_eq_iff.mp h
  rw [ofService, ofService, hid, htype, hendpoint]
  split <;> rfl

theorem State.coded_ofInputs {keys keys' : List KeyInput} {services services' : List Service}
    (hkeys : List.Forall₂ (Relation.EqvGen KeyInput.Rewrite) keys keys')
    (hservices : List.Forall₂ (fun s s' => s.gist = s'.gist) services services') :
    (ofInputs keys services).coded = (ofInputs keys' services').coded := by
  have hentries := Outcome.coded_mapM (hservices.imp fun _ _ => ServiceEntry.coded_ofService)
  rw [ofInputs, ofInputs, Outcome.coded_bind, Outcome.coded_bind, hentries,
    KeyInput.map_toEntry_eq hkeys]

end Sidetree

/-! ### DIDs -/

namespace IonMethod

open Sidetree

variable {recovery recovery' update update' : Jwk} {keys keys' : List KeyInput}
  {services services' : List Service}

theorem coded_request (hrecovery : recovery.canonical = recovery'.canonical)
    (hupdate : update.canonical = update'.canonical)
    (hkeys : List.Forall₂ (Relation.EqvGen KeyInput.Rewrite) keys keys')
    (hservices : List.Forall₂ (Relation.EqvGen Service.Rewrite) services services') :
    (request recovery update keys services).coded =
      (request recovery' update' keys' services').coded := by
  have hgist := hservices.imp fun _ _ => eq_of_eqvGen (f := Service.gist) Service.Rewrite.gist_eq
  have hcheck : (Service.checkAll services).coded = (Service.checkAll services').coded :=
    Service.coded_checkAfter hgist []
  simp only [request, CreateRequest.new, Outcome.coded_bind, hcheck,
    State.coded_ofInputs hkeys hgist, (Jwk.sameNames_of_canonical hrecovery).commitment,
    (Jwk.sameNames_of_canonical hupdate).commitment]

/-- **What a DID does not depend on.** Inputs that differ only in how they are written, and in what
does not define the keys for control, make the same long form, or fail with the same code. -/
theorem longFormDid_eq_of_rewrites (m : IonMethod)
    (hrecovery : recovery.canonical = recovery'.canonical)
    (hupdate : update.canonical = update'.canonical)
    (hkeys : List.Forall₂ (Relation.EqvGen KeyInput.Rewrite) keys keys')
    (hservices : List.Forall₂ (Relation.EqvGen Service.Rewrite) services services') :
    (m.longFormDid recovery update keys services).coded =
      (m.longFormDid recovery' update' keys' services').coded := by
  rw [longFormDid, longFormDid, Outcome.coded_map, Outcome.coded_map,
    coded_request hrecovery hupdate hkeys hservices]

/-- The key of the samples, with its private member. -/
def privateKey : Jwk :=
  .okp
    { crv := "Ed25519", x := "11qYAYKxCrfVS_7TyWQHOg7hcvPapiMlrwIaaPcHURo"
      d := some "nWGxne_9WmC6hEr0kuwsxERJxWl7MmkZcDusAxyuf2A" }

/-- Keys for a state, written in another way. -/
def rewrittenKeys : List KeyInput :=
  [{ id := some "did:example:123#key-1", type := some "JsonWebKey2020", key := privateKey
     purposes := [.authentication, .authentication] }]

/-- Services for a state, written in another way. -/
def rewrittenServices : List Service :=
  [⟨"#hub", "Hub", .many [.value [("b", .string "https://hub.example"), ("a", .array [.null])]]⟩]

theorem longFormDid_eq_of_rewrites_sample :
    (sampleMethod.longFormDid privateKey privateKey rewrittenKeys rewrittenServices).coded =
      .ok (longForm (some "test") sampleRequest) := by
  have hkey : Relation.EqvGen KeyInput.Rewrite
      { id := some "key-1", key := sampleKey, purposes := [.authentication] }
      { id := some ("did:example:123" ++ "#" ++ "key-1"), type := some Suite.jsonWebKey2020
        key := privateKey, purposes := [.authentication, .authentication] } :=
    .trans _ _ _ (.rel _ _ (.privateMembers _ (.okp _ _))) <|
      .trans _ _ _ (.rel _ _ (.purposes _ (by simp))) <|
      .trans _ _ _ (.rel _ _ (.type _ rfl)) (.rel _ _ (.id _ rfl "did:example:123"))
  have hservice : Relation.EqvGen Service.Rewrite
      ⟨"hub", "Hub", .one (.value [("b", .string "https://hub.example"), ("a", .array [.null])])⟩
      ⟨"" ++ "#" ++ "hub", "Hub",
        .many [.value [("b", .string "https://hub.example"), ("a", .array [.null])]]⟩ :=
    .trans _ _ _ (.rel _ _ (.id _ "")) (.rel _ _ (.endpoint _ rfl))
  have hsame : (sampleMethod.longFormDid sampleKey sampleKey sampleKeys sampleServices).coded =
      (sampleMethod.longFormDid privateKey privateKey rewrittenKeys rewrittenServices).coded :=
    longFormDid_eq_of_rewrites sampleMethod rfl rfl (.cons hkey .nil) (.cons hservice .nil)
  exact hsame.symm.trans (congrArg Outcome.coded longFormDid_sample)

end IonMethod

end DidMethods
