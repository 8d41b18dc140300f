import DidMethods.Proofs.JwkJson
import DidMethods.Proofs.StateDocument

/-!
# Private members of keys

Two functions know about private members. One drops them (`DidMethods.Jwk.toPublic`), and a key has
none of those exactly if there is nothing to drop (`DidMethods.Jwk.toPublic_eq_self_iff`). The other
one tells whether a key counts as private (`DidMethods.Jwk.isPrivate`), and asks for the member `d`
and for a symmetric key only (`DidMethods.Jwk.isPrivate_iff`). What lies between them are the
factors of an RSA modulus and what is computed from these (`DidMethods.Jwk.factorNames`), although
whoever knows a factor can find `d`.

A state is checked with the second function. So the private members in a state that passes its check
are the factors of RSA keys, and the document of the state shows them to everyone
(`DidMethods.Sidetree.State.privateMembers_of_check`).
-/

namespace DidMethods

/-! ### Members of keys -/

namespace Jwk

/-- The names of the members with the factors of a modulus and what is computed from them. -/
def factorNames : List String := ["p", "q", "dp", "dq", "qi"]

/-- The names of the members that are dropped from a key. -/
def droppedNames : List String := "d" :: factorNames

/-- The names of the members that are not for everyone. A symmetric key is one of them, but nothing
would be left of the key without it. -/
def privateNames : List String := "k" :: droppedNames

/-- The key is written with a member of this name. -/
def HasMember (k : Jwk) (name : String) : Prop := (k.toJson.get? name).isSome = true

section Members

variable {k : Jwk} {name : String}

theorem hasMember_iff : k.HasMember name ↔ name = "kty" ∨ name ∈ k.definingTexts.map (·.1) ∨
    ∃ s, (name, some s) ∈ k.furtherTexts := by
  have hfound : k.HasMember name ↔ ∃ v, (name, some v) ∈ k.writtenMembers := by
    rw [HasMember, k.toJson_eq, Option.isSome_iff_exists]
    refine exists_congr fun v => ?_
    exact (lookup_eq_some (Json.nodup_present k.nodup_writtenMembers)).trans Json.mem_present
  rw [hfound]
  simp only [mem_writtenMembers, List.mem_map]
  constructor
  · rintro ⟨v, h | ⟨t, ht, h⟩ | ⟨⟨n, o⟩, ht, h⟩⟩
    · exact Or.inl (Prod.mk.inj h).1
    · exact Or.inr (Or.inl ⟨t, ht, (Prod.mk.inj h).1⟩)
    · obtain ⟨rfl, hv⟩ := Prod.mk.inj h
      obtain ⟨s, rfl, -⟩ := Option.map_eq_some_iff.mp hv
      exact Or.inr (Or.inr ⟨s, ht⟩)
  · rintro (rfl | ⟨t, ht, rfl⟩ | ⟨s, ht⟩)
    · exact ⟨_, Or.inl rfl⟩
    · exact ⟨_, Or.inr (Or.inl ⟨t, ht, rfl⟩)⟩
    · exact ⟨_, Or.inr (Or.inr ⟨_, ht, rfl⟩)⟩

theorem HasMember.mem_memberNames (h : k.HasMember name) : name ∈ k.memberNames := by
  rw [memberNames, List.mem_cons, List.mem_append]
  obtain h | h | ⟨s, h⟩ := hasMember_iff.mp h
  · exact Or.inl h
  · exact Or.inr (Or.inl h)
  · exact Or.inr (Or.inr (List.mem_map_of_mem h))

/-- Keys that are written in the same way are the same. -/
theorem toJson_injective : Function.Injective toJson := by
  intro k k' h
  have hread := k.ofJson?_asWritten
  rw [h, ofJson?_asWritten] at hread
  exact (Option.some.inj hread).symm

/-! ### Dropping private members -/

theorem furtherTexts_toPublic (k : Jwk) : k.toPublic.furtherTexts =
    k.furtherTexts.map fun t => if t.1 ∈ droppedNames then (t.1, none) else t := by
  cases k <;> rfl

/-- What defines a key, is not dropped. -/
theorem definingTexts_toPublic (k : Jwk) : k.toPublic.definingTexts = k.definingTexts := by
  cases k <;> rfl

theorem not_mem_droppedNames_of_defining (h : name ∈ k.definingTexts.map (·.1)) :
    name ∉ droppedNames := by
  intro hdropped
  revert h
  cases k with
  | ec k => exact (by decide : ∀ n ∈ droppedNames, n ∉ ["crv", "x", "y"]) name hdropped
  | okp k => exact (by decide : ∀ n ∈ droppedNames, n ∉ ["crv", "x"]) name hdropped
  | oct k => exact (by decide : ∀ n ∈ droppedNames, n ∉ ["k"]) name hdropped
  | rsa k => exact (by decide : ∀ n ∈ droppedNames, n ∉ ["n", "e"]) name hdropped

/-- **The members that are left** are the ones with other names. -/
theorem hasMember_toPublic :
    k.toPublic.HasMember name ↔ k.HasMember name ∧ name ∉ droppedNames := by
  have hfurther : (∃ s, (name, some s) ∈ k.toPublic.furtherTexts) ↔
      (∃ s, (name, some s) ∈ k.furtherTexts) ∧ name ∉ droppedNames := by
    rw [furtherTexts_toPublic]
    constructor
    · rintro ⟨s, hs⟩
      obtain ⟨t, ht, heq⟩ := List.mem_map.mp hs
      split at heq
      · cases heq
      · next hname =>
        subst heq
        exact ⟨⟨s, ht⟩, hname⟩
    · rintro ⟨⟨s, hs⟩, hname⟩
      exact ⟨s, List.mem_map.mpr ⟨_, hs, if_neg hname⟩⟩
  rw [hasMember_iff, hasMember_iff, definingTexts_toPublic, hfurther]
  constructor
  · rintro (rfl | h | ⟨h, hname⟩)
    · exact ⟨Or.inl rfl, by decide⟩
    · exact ⟨Or.inr (Or.inl h), not_mem_droppedNames_of_defining h⟩
    · exact ⟨Or.inr (Or.inr h), hname⟩
  · rintro ⟨h | h | h, hname⟩
    · exact Or.inl h
    · exact Or.inr (Or.inl h)
    · exact Or.inr (Or.inr ⟨h, hname⟩)

/-- **There is nothing to drop** from a key that has no member to be dropped. -/
theorem toPublic_eq_self_iff : k.toPublic = k ↔ ∀ name ∈ droppedNames, ¬ k.HasMember name := by
  constructor
  · intro h name hname hmember
    rw [← h] at hmember
    exact (hasMember_toPublic.mp hmember).2 hname
  · intro h
    have hfurther : k.toPublic.furtherTexts = k.furtherTexts := by
      rw [furtherTexts_toPublic]
      refine (List.map_congr_left fun t ht => ?_).trans (List.map_id _)
      obtain ⟨name, o⟩ := t
      split
      · next hname =>
        cases o with
        | none => rfl
        | some s => exact absurd (hasMember_iff.mpr (Or.inr (Or.inr ⟨s, ht⟩))) (h name hname)
      · rfl
    have hkty : k.toPublic.kty = k.kty := by
      cases k <;> rfl
    refine toJson_injective ?_
    rw [toJson_eq, toJson_eq, writtenMembers, writtenMembers, hkty, definingTexts_toPublic,
      hfurther]

/-! ### Counting as private -/

/-- **What counts as private**: the member `d`, and a symmetric key. -/
theorem isPrivate_iff : k.isPrivate = true ↔ k.HasMember "d" ∨ k.HasMember "k" := by
  have hsome : ∀ o : Option String, o.isSome = true ↔ ∃ s, some s = o := fun o =>
    Option.isSome_iff_exists.trans (exists_congr fun s => eq_comm)
  rw [hasMember_iff, hasMember_iff]
  cases k with
  | ec k => simp [isPrivate, definingTexts, furtherTexts, Params.texts, hsome]
  | okp k => simp [isPrivate, definingTexts, furtherTexts, Params.texts, hsome]
  | oct k => simp [isPrivate, definingTexts]
  | rsa k => simp [isPrivate, definingTexts, furtherTexts, Params.texts, hsome]

/-- Only RSA keys have factors. -/
theorem exists_rsa_of_hasMember (h : k.HasMember name) (hname : name ∈ factorNames) :
    ∃ r, k = rsa r := by
  have hmem := h.mem_memberNames
  cases k with
  | rsa r => exact ⟨r, rfl⟩
  | ec k =>
    exact absurd hmem ((by decide : ∀ n ∈ factorNames,
      n ∉ ["kty", "crv", "x", "y", "d", "kid", "alg", "use"]) name hname)
  | okp k =>
    exact absurd hmem ((by decide : ∀ n ∈ factorNames,
      n ∉ ["kty", "crv", "x", "d", "kid", "alg", "use"]) name hname)
  | oct k =>
    exact absurd hmem ((by decide : ∀ n ∈ factorNames,
      n ∉ ["kty", "k", "kid", "alg", "use"]) name hname)

/-- A private member of a key that does not count as private is a factor. -/
theorem mem_factorNames_of_not_private (h : k.isPrivate = false) (hmember : k.HasMember name)
    (hname : name ∈ privateNames) : name ∈ factorNames := by
  have hnot : ¬ (k.HasMember "d" ∨ k.HasMember "k") := by
    rw [← isPrivate_iff, h]
    exact Bool.false_ne_true
  rcases List.mem_cons.mp hname with rfl | hdropped
  · exact absurd (Or.inr hmember) hnot
  · rcases List.mem_cons.mp hdropped with rfl | hfactor
    · exact absurd (Or.inl hmember) hnot
    · exact hfactor

/-- A key that does not count as private loses nothing but factors. -/
theorem toPublic_eq_self_iff_of_not_private (h : k.isPrivate = false) :
    k.toPublic = k ↔ ∀ name ∈ factorNames, ¬ k.HasMember name := by
  rw [toPublic_eq_self_iff]
  constructor
  · exact fun hnone name hname => hnone name (List.mem_cons_of_mem _ hname)
  · intro hnone name hname hmember
    have hprivate : name ∈ privateNames := List.mem_cons_of_mem _ hname
    exact hnone name (mem_factorNames_of_not_private h hmember hprivate) hmember

end Members

end Jwk

/-! ### Documents -/

/-- The document has a method, listed or within a relationship, whose key is written with a member
of this name. -/
def Document.Exposes (d : Document) (name : String) : Prop :=
  ∃ m : Method, (m ∈ d.methodList ∨ ∃ p, .value m ∈ d.relationship p) ∧
    ∃ key, m.key = .jwk key ∧ key.HasMember name

namespace Sidetree.State

open Jwk

/-- The document of a state shows the keys of the state, with all their members. -/
theorem exposes_toDocument {s : State} {did name : String} :
    (s.toDocument did).Exposes name ↔ ∃ e ∈ s.keys, e.key.HasMember name := by
  constructor
  · rintro ⟨m, hm | ⟨p, hm⟩, key, hkey, hmember⟩
    · rw [methodList_toDocument] at hm
      obtain ⟨e, he, rfl⟩ := List.mem_map.mp hm
      obtain rfl := KeyMaterial.jwk.inj hkey
      exact ⟨e, he, hmember⟩
    · -- relationships only refer to keys
      rw [relationship_toDocument] at hm
      obtain ⟨e, -, hm⟩ := List.mem_flatMap.mp hm
      cases List.eq_of_mem_replicate hm
  · rintro ⟨e, he, hmember⟩
    refine ⟨e.toMethod did, Or.inl ?_, e.key, rfl, hmember⟩
    rw [methodList_toDocument]
    exact List.mem_map_of_mem he

/-- **The private members in a state that passes its check are the factors of RSA keys.** A key has
no private member exactly if it has no factor. The document of the state exposes the factors that
the keys have, whatever the DID, and no other private member; and it exposes none exactly if each
key is what is left of it without private members. -/
theorem privateMembers_of_check {s : State} (h : s.check = .ok ()) :
    (∀ e ∈ s.keys, ∀ name ∈ privateNames, e.key.HasMember name →
        name ∈ factorNames ∧ ∃ r, e.key = .rsa r) ∧
      (∀ e ∈ s.keys, e.key.toPublic = e.key ↔ ∀ name ∈ factorNames, ¬ e.key.HasMember name) ∧
      (∀ did, ∀ name ∈ privateNames, (s.toDocument did).Exposes name ↔
        name ∈ factorNames ∧ ∃ e ∈ s.keys, e.key.HasMember name) ∧
      ∀ did, (∀ name ∈ privateNames, ¬ (s.toDocument did).Exposes name) ↔
        ∀ e ∈ s.keys, e.key.toPublic = e.key := by
  have hpublic : ∀ e ∈ s.keys, e.key.isPrivate = false := fun e he =>
    ((check_eq_ok.mp h).keys.each e he).2
  have hfactors : ∀ e ∈ s.keys, ∀ name ∈ privateNames, e.key.HasMember name →
      name ∈ factorNames ∧ ∃ r, e.key = .rsa r := by
    intro e he name hname hmember
    have hfactor := mem_factorNames_of_not_private (hpublic e he) hmember hname
    exact ⟨hfactor, exists_rsa_of_hasMember hmember hfactor⟩
  have hstripped : ∀ e ∈ s.keys, e.key.toPublic = e.key ↔
      ∀ name ∈ factorNames, ¬ e.key.HasMember name := fun e he =>
    toPublic_eq_self_iff_of_not_private (hpublic e he)
  refine ⟨hfactors, hstripped, fun did name hname => ?_, fun did => ?_⟩
  · rw [exposes_toDocument]
    constructor
    · rintro ⟨e, he, hmember⟩
      exact ⟨(hfactors e he name hname hmember).1, e, he, hmember⟩
    · exact fun hexposed => hexposed.2
  · constructor
    · intro hnone e he
      refine (hstripped e he).mpr fun name hname hmember => ?_
      have hprivate : name ∈ privateNames := List.mem_cons_of_mem _ (List.mem_cons_of_mem _ hname)
      exact hnone name hprivate (exposes_toDocument.mpr ⟨e, he, hmember⟩)
    · intro hsame name hname hexposed
      obtain ⟨e, he, hmember⟩ := exposes_toDocument.mp hexposed
      exact (hstripped e he).mp (hsame e he) name (hfactors e he name hname hmember).1 hmember

/-- A state whose only key is an RSA key with one of its factors, and without the exponent `d`. -/
def factorState : State where
  keys := [⟨"key-1", Suite.jsonWebKey2020,
    .rsa { n := "0vx7", e := "AQAB", p := some "AA" }, [.authentication]⟩]

theorem privateMembers_of_check_factorState :
    factorState.check = .ok () ∧ (∀ e ∈ factorState.keys, e.key.toPublic ≠ e.key) ∧
      ∀ did, (factorState.toDocument did).Exposes "p" := by
  have hcheck : factorState.check = .ok () := Outcome.toOption_eq_some.mp (by decide +kernel)
  obtain ⟨-, hstripped, hexposed, -⟩ := privateMembers_of_check hcheck
  have hmember : ∀ e ∈ factorState.keys, e.key.HasMember "p" :=
    List.forall_mem_singleton.mpr (rfl : Option.isSome _ = true)
  refine ⟨hcheck, fun e he hsame => ?_, fun did => ?_⟩
  · exact (hstripped e he).mp hsame "p" (by decide) (hmember e he)
  · exact (hexposed did "p" (by decide)).mpr
      ⟨by decide, _, List.mem_cons_self, hmember _ List.mem_cons_self⟩

/-- A state that passes its check can have private members. -/
theorem not_forall_toPublic_of_check :
    ¬ ∀ s : State, s.check = .ok () → ∀ e ∈ s.keys, e.key.toPublic = e.key := by
  intro h
  have hcheck : factorState.check = .ok () := Outcome.toOption_eq_some.mp (by decide +kernel)
  have hkey := h factorState hcheck _ List.mem_cons_self
  exact absurd hkey (by decide)

end Sidetree.State

end DidMethods
