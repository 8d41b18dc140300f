import DidMethods.Proofs.DocumentShape

/-!
# What the derivation of a key adds

Whether a key for key agreement is derived is a matter of the options, and a DID has a document with
it if it has one without it: every key that is accepted can be mapped to the Montgomery curve, and
the form that was found for it will do for its image (`DidMethods.KeyMethod.exists_derivedMethod?`).
So the two documents are derived side by side, step by step (`DidMethods.Outcome.Agree`), up to the
point where the second method is made. It is added behind the first one and changes nothing of what
is there already (`DidMethods.KeyMethod.assemble_some`).
-/

namespace DidMethods.KeyMethod

variable {options : KeyOptions} {did : String} {codec : Codec} {key : Bytes}

/-- The document `d'` is the document `d` of a key with a method for key agreement besides, which
has the derived key. -/
structure ExtendedBy (key : Bytes) (m : Method) (d d' : Document) : Prop where
  /-- The method has the key that is derived. -/
  derived : ∃ derived, encryptionKey key = .ok derived ∧
    m.jwk = Multikey.toJwk Codec.x25519 derived
  /-- There was no method for key agreement. -/
  noAgreement : d.keyAgreement = none
  /-- The method is the last one and the only one for key agreement, there may be more contexts
  behind the others, and nothing else is different. -/
  extended : ∃ contexts, d' =
    { d with
      context := d.context ++ contexts
      methods := some (d.methodList ++ [m])
      keyAgreement := some [.text m.id] }

/-- What the derivation makes of the document `d` of a DID. If the key of the DID is of type
Ed25519, there is one more method, and if not, then the document stays what it is. -/
def Derives (did : String) (d d' : Document) : Prop :=
  ∃ parsed codec key, Did.parse? did = some parsed ∧
    Multikey.decode parsed.id = .ok (codec, key) ∧
    (codec ≠ Codec.ed25519 → d' = d) ∧
    (codec = Codec.ed25519 → ∃ m, ExtendedBy key m d d')

/-! ### The second method -/

/-- **A second method changes nothing of what is there**, where the first one can sign. -/
theorem assemble_some (did : String) (hcodec : codec ≠ Codec.x25519) (primary m : Method) :
    (assemble did codec primary none).keyAgreement = none ∧
      ∃ contexts, assemble did codec primary (some m) =
        { assemble did codec primary none with
          context := (assemble did codec primary none).context ++ contexts
          methods := some ((assemble did codec primary none).methodList ++ [m])
          keyAgreement := some [.text m.id] } := by
  obtain ⟨contexts, hcontexts⟩ := Suite.contextsOf_append [primary.type] [m.type]
  have hpurposes : purposesOf codec =
      [.authentication, .assertionMethod, .capabilityInvocation, .capabilityDelegation] :=
    if_neg hcodec
  have hfirst : (assemble did codec primary none).keyAgreement = none := by
    rw [assemble, hpurposes]
    rfl
  have hsecond : assemble did codec primary (some m) =
      { assemble did codec primary none with
        context := (Suite.contextsOf ([primary.type] ++ [m.type])).map .text
        methods := some [primary, m]
        keyAgreement := some [.text m.id] } := by
    rw [assemble, assemble, hpurposes]
    rfl
  rw [hcontexts, List.map_append] at hsecond
  exact ⟨hfirst, contexts.map .text, hsecond⟩

/-- The derived method has the derived key. -/
theorem jwk_derivedMethod? {m : Method}
    (h : derivedMethod? options did codec key = .ok (some m)) :
    ∃ derived, encryptionKey key = .ok derived ∧
      m.jwk = Multikey.toJwk Codec.x25519 derived := by
  obtain ⟨-, derived, multikey, hderived, hdecode, hm⟩ := derivedMethod?_eq_ok h
  exact ⟨derived, hderived, jwk_method hdecode hm⟩

/-! ### The two documents -/

/-- **The document with a derived key, from where the documents part.** -/
theorem derives_assemble {parsed : Did} {primary : Method} (hparse : Did.parse? did = some parsed)
    (hdecode : Multikey.decode parsed.id = .ok (codec, key))
    (hvalid : Multikey.isValid codec key = true)
    (hprimary : method options parsed.uri parsed.id codec key = .ok primary)
    (hderive : options.deriveEncryption = true) :
    ∃ derived, derivedMethod? options parsed.uri codec key = .ok derived ∧
      Derives did (assemble parsed.uri codec primary none)
        (assemble parsed.uri codec primary derived) := by
  by_cases hcodec : codec = Codec.ed25519
  · subst hcodec
    obtain ⟨hcan, -⟩ := method_eq_ok.mp hprimary
    obtain ⟨m, hm⟩ := exists_derivedMethod? parsed.uri hderive hvalid hcan
    have hother : Codec.ed25519 ≠ Codec.x25519 := by decide
    obtain ⟨hnone, hextended⟩ := assemble_some parsed.uri hother primary m
    exact ⟨some m, hm, parsed, Codec.ed25519, key, hparse, hdecode, fun hne => absurd rfl hne,
      fun _ => ⟨m, jwk_derivedMethod? hm, hnone, hextended⟩⟩
  · exact ⟨none, derivedMethod?_eq_none _ _ fun h => hcodec h.2, parsed, codec, key, hparse,
      hdecode, fun _ => rfl, fun h => absurd h hcodec⟩

/-- The documents are derived side by side: they fail for the same reason, or the one is derived
from the other. -/
theorem agree_document (options : KeyOptions) (did : String) :
    Outcome.Agree (Derives did) (document { options with deriveEncryption := false } did)
      (document { options with deriveEncryption := true } did) := by
  rw [document, document]
  refine .bind fun parsed hparse => .ite_fail fun hmethod => .ite_fail fun hform =>
    .bind fun found hdecode => ?_
  obtain ⟨codec, key⟩ := found
  refine .bind fun _ hvalid => .bind fun primary hprimary => ?_
  -- how the first method is made does not depend on whether there is another one
  have hsame : method { options with deriveEncryption := true } parsed.uri parsed.id codec key =
      .ok primary := hprimary
  obtain ⟨derived, hderived, hderives⟩ := derives_assemble (Outcome.orFail_eq_ok.mp hparse) hdecode
    (Multikey.validate_eq_ok.mp hvalid) hsame rfl
  rw [hderived, derivedMethod?_eq_none _ _ (by simp)]
  exact .ok hderives

/-- **The derivation of a key only adds to the document.** With it and without it, a DID is refused
for the same reason, or it has documents that differ by the derived method at most. For every key of
type Ed25519 that is valid there is a derived one, which is valid, too, and has a method in every
form that the key itself has one in. -/
theorem derivation_extends (options : KeyOptions) (did : String) :
    Outcome.Agree (Derives did) (document { options with deriveEncryption := false } did)
      (document { options with deriveEncryption := true } did) ∧
    ∀ key, Multikey.validate Codec.ed25519 key = .ok () → ∃ derived multikey,
      encryptionKey key = .ok derived ∧ Multikey.validate Codec.x25519 derived = .ok () ∧
      Multikey.encode Codec.x25519 derived = .ok multikey ∧
      ∀ controller primary m, method options controller primary Codec.ed25519 key = .ok m →
        ∃ m', method options controller multikey Codec.x25519 derived = .ok m' := by
  refine ⟨agree_document options did, fun key hvalid => ?_⟩
  obtain ⟨derived, multikey, hkey, hmultikey⟩ :=
    exists_encryptionKey (Multikey.validate_eq_ok.mp hvalid)
  obtain ⟨hlength, -⟩ := Multikey.encode_eq_ok.mp hmultikey
  have hderived := Multikey.validate_eq_ok.mpr (isValid_x25519 hlength)
  refine ⟨derived, multikey, hkey, hderived, hmultikey, fun controller primary m hm => ?_⟩
  obtain ⟨hcan, -⟩ := method_eq_ok.mp hm
  exact exists_method_x25519 controller multikey derived hcan

theorem derivation_extends_signing :
    ∃ d d' m key derived multikey first second,
      document { format := .ed25519Key2020 } signingDid = .ok d ∧
      document { format := .ed25519Key2020, deriveEncryption := true } signingDid = .ok d' ∧
      ExtendedBy key m d d' ∧ Multikey.validate Codec.ed25519 key = .ok () ∧
      encryptionKey key = .ok derived ∧
      method { format := .ed25519Key2020 } signingDid "z6Mk" Codec.ed25519 key = .ok first ∧
      method { format := .ed25519Key2020 } signingDid multikey Codec.x25519 derived =
        .ok second := by
  obtain ⟨hagree, hkeys⟩ := derivation_extends { format := .ed25519Key2020 } signingDid
  have hresolves : (document { format := .ed25519Key2020 } signingDid).toOption.isSome = true := by
    decide +kernel
  have htype : (((Did.parse? signingDid).bind fun parsed =>
      (Multikey.decode parsed.id).toOption).map Prod.fst) = some Codec.ed25519 := by
    decide +kernel
  obtain ⟨d, hd⟩ := Option.isSome_iff_exists.mp hresolves
  have hdocument := Outcome.toOption_eq_some.mp hd
  obtain ⟨d', hd', parsed, codec, key, hparse, hdecode, -, hextended⟩ :=
    hagree.exists_of_eq_ok hdocument
  have hcodec : codec = Codec.ed25519 := by
    simpa [hparse, hdecode, Except.toOption] using htype
  obtain ⟨m, hm⟩ := hextended hcodec
  -- the key of the document has been validated
  obtain ⟨parsed', codec', key', -, -, hparse', -, -, hdecode', hvalid, -⟩ :=
    document_eq_ok.mp hdocument
  obtain rfl := Option.some.inj (hparse.symm.trans hparse')
  obtain ⟨rfl, rfl⟩ := Prod.mk.inj (Except.ok.inj (hdecode.symm.trans hdecode'))
  subst hcodec
  have hvalid := Multikey.validate_eq_ok.mpr hvalid
  obtain ⟨derived, multikey, hderived, -, -, hmethod⟩ := hkeys key hvalid
  obtain ⟨second, hsecond⟩ := hmethod signingDid "z6Mk" _ rfl
  exact ⟨d, d', m, key, derived, multikey, _, second, hdocument, hd', hm, hvalid, hderived, rfl,
    hsecond⟩

end DidMethods.KeyMethod
