import DidMethods.Proofs.DidSyntax
import DidMethods.Proofs.KeyIdentifier
import DidMethods.Proofs.KeyNames

/-!
# The document of a key

A public key has a DID if it can be written as a multikey and is valid, and then the DID has a
document, which lists the key (`DidMethods.KeyMethod.exists_document`). There are only two ways for
it to be refused, and both of them are about the form that was asked for
(`DidMethods.KeyMethod.IsRefused`): the form is experimental and not enabled, or it is one for keys
of another type. That the document of a DID has its key is known already
(`DidMethods.KeyMethod.key_of_document`); here it is shown that there is one, and that a key which
comes with descriptive or private members is found in it under its thumbprint
(`DidMethods.KeyMethod.document_of_key`).
-/

namespace DidMethods

/-- The thumbprint is the one of the defining members. -/
@[simp] theorem Jwk.thumbprint_canonical (k : Jwk) : k.canonical.thumbprint = k.thumbprint :=
  (sameNames_of_canonical k.canonical_canonical).thumbprint

/-- Base58 is written in characters that an identifier may have. -/
theorem Multibase.isIdChar_of_mem_encode58 {bytes : Bytes} {c : Char}
    (hc : c ∈ (encode58 bytes).toList) : Did.isIdChar c = true ∧ c ≠ ':' := by
  rw [encode58, String.toList_ofList] at hc
  rcases List.mem_cons.mp hc with rfl | hc
  · decide
  · obtain ⟨d, hd, rfl⟩ := List.mem_map.mp hc
    have hall : ∀ n : Fin 58, Did.isIdChar (digit58 n) = true ∧ digit58 n ≠ ':' := by
      decide +kernel
    exact hall ⟨d, Radix.lt_of_mem_convert (by decide) hd⟩

namespace KeyMethod

/-- The DID that some octets write is a bare one, with the octets for its identifier. -/
theorem parse?_didOf (data : Bytes) :
    ∃ d, Did.parse? (didOf data) = some d ∧ d.uri = didOf data ∧ d.method = name ∧
      d.id = Multibase.encode58 data := by
  have hlist : (didOf data).toList =
      'd' :: 'i' :: 'd' :: ':' :: (name.toList ++ ':' :: (Multibase.encode58 data).toList) := by
    simp [didOf, name, toString]
  have hchars := fun c hc => @Multibase.isIdChar_of_mem_encode58 data c hc
  have hspan := Did.spanId_of_forall fun c hc => by rw [(hchars c hc).1, Bool.true_or]
  have hne : (Multibase.encode58 data).toList ≠ [] := by simp [Multibase.encode58]
  have hid := Did.isId_append [] hne fun hc => (hchars ':' hc).2 rfl
  have hmethodChars : ∀ c ∈ name.toList, Did.isMethodChar c = true :=
    List.all_eq_true.mp (by decide)
  obtain ⟨d, hparse, huri, hmethod, hdid, -⟩ := Did.parse?_bare hlist hmethodChars (by decide)
    hspan hid
  exact ⟨d, hparse, huri, hmethod.trans String.ofList_toList, hdid.trans String.ofList_toList⟩

/-! ### Forms that are refused -/

/-- The form that was asked for is experimental and not enabled, or it is for keys of another type.
The form of Ed25519 keys will do for X25519 keys. -/
inductive IsRefused (options : KeyOptions) (codec : Codec) : Prop where
  /-- The form has to be enabled. -/
  | disabled (hexp : options.format.isExperimental = true) (hoff : options.experimental = false)
  /-- The form is for keys of one type only. -/
  | otherType (only : Codec) (honly : options.format.codec? = some only) (hne : only ≠ codec)
    (hother : ¬ (options.format = .ed25519Key2020 ∧ codec = Codec.x25519))

theorem canExpress_iff {format : KeyFormat} {codec : Codec} :
    canExpress format codec = true ↔ ∀ only, format.codec? = some only → only = codec := by
  rw [canExpress]
  cases format.codec? with
  | none => simp
  | some only => simp

/-- **A form is refused exactly if it has to be enabled or cannot express the key**, after another
form was chosen for X25519 keys. -/
theorem isRefused_iff {options : KeyOptions} {codec : Codec} :
    IsRefused options codec ↔ (options.format.isExperimental && !options.experimental) = true ∨
      ¬ canExpress (formatFor options codec) codec = true := by
  rw [Bool.and_eq_true, Bool.not_eq_true']
  by_cases hother : options.format = .ed25519Key2020 ∧ codec = Codec.x25519
  · -- a form that X25519 keys can be expressed in takes its place, whatever is enabled
    have hcan : canExpress (formatFor options codec) codec = true := by
      rw [formatFor, if_pos hother, hother.2]
      cases options.experimental <;> rfl
    refine ⟨?_, ?_⟩
    · rintro (⟨hexp, hoff⟩ | ⟨-, -, -, hnot⟩)
      · exact Or.inl ⟨hexp, hoff⟩
      · exact absurd hother hnot
    · rintro (⟨hexp, hoff⟩ | hnot)
      · exact .disabled hexp hoff
      · exact absurd hcan hnot
  · rw [formatFor, if_neg hother, canExpress_iff]
    refine ⟨?_, ?_⟩
    · rintro (⟨hexp, hoff⟩ | ⟨only, honly, hne, -⟩)
      · exact Or.inl ⟨hexp, hoff⟩
      · exact Or.inr fun hall => hne (hall only honly)
    · rintro (⟨hexp, hoff⟩ | hnot)
      · exact .disabled hexp hoff
      · obtain ⟨only, hnot⟩ := not_forall.mp hnot
        obtain ⟨honly, hne⟩ := Classical.not_imp.mp hnot
        exact .otherType only honly hne hother

/-! ### The methods of a document -/

section Methods

variable {options : KeyOptions} {codec : Codec} {key : Bytes}

theorem method_eq_error (did multikey : String) (key : Bytes)
    (h : ¬ canExpress (formatFor options codec) codec = true) :
    ∃ f, method options did multikey codec key = .error f ∧ f.code = .invalidPublicKeyType := by
  rw [method, if_pos (by simpa using h)]
  exact ⟨_, rfl, rfl⟩

theorem exists_method (did multikey : String) {jwk : Jwk}
    (hcan : canExpress (formatFor options codec) codec = true)
    (hjwk : Multikey.toJwk codec key = .ok jwk) :
    ∃ m, method options did multikey codec key = .ok m := by
  rw [method, if_neg (by simpa using hcan), hjwk]
  split
  · exact ⟨_, rfl⟩
  · exact ⟨_, rfl⟩

/-- A form that can express an Ed25519 key will do for the key that is derived from it. -/
theorem canExpress_derived
    (h : canExpress (formatFor options Codec.ed25519) Codec.ed25519 = true) :
    canExpress (formatFor options Codec.x25519) Codec.x25519 = true := by
  obtain ⟨format, derive, experimental⟩ := options
  cases format with
  | ed25519Key2020 => cases experimental <;> rfl
  | jsonWebKey2020 => rfl
  | multikey => rfl
  | x25519Key2020 => rfl
  | secp256k1Key2019 => cases h

/-- **The key for key agreement can be derived from every valid Ed25519 key**, and it can be
written. -/
theorem exists_encryptionKey (hvalid : Multikey.isValid Codec.ed25519 key = true) :
    ∃ derived multikey, encryptionKey key = .ok derived ∧
      Multikey.encode Codec.x25519 derived = .ok multikey := by
  rw [Multikey.isValid, if_pos rfl] at hvalid
  obtain ⟨P, hP⟩ := Option.isSome_iff_exists.mp hvalid
  have hlength : key.length = 32 := by
    by_contra hne
    rw [Edwards25519.decompress?, if_pos hne] at hP
    cases hP
  refine ⟨Bytes.ofNatLittle 32 (Edwards25519.montgomery P), _, ?_,
    Multikey.encode_eq_ok.mpr ⟨Bytes.length_ofNatLittle _ _, rfl⟩⟩
  rw [encryptionKey, if_neg (not_not.mpr hlength), hP]
  rfl

/-- A form that an Ed25519 key has a method in will do for every key for key agreement. -/
theorem exists_method_x25519 (did multikey : String) (derived : Bytes)
    (hcan : canExpress (formatFor options Codec.ed25519) Codec.ed25519 = true) :
    ∃ m, method options did multikey Codec.x25519 derived = .ok m :=
  have hjwk : Multikey.toJwk Codec.x25519 derived =
      .ok (.okp { crv := "X25519", x := Base64Url.encode derived }) := rfl
  exists_method did multikey (canExpress_derived hcan) hjwk

/-- No key is derived unless it is asked for, and none from a key of another type. -/
theorem derivedMethod?_eq_none (did : String) (key : Bytes)
    (h : ¬ (options.deriveEncryption = true ∧ codec = Codec.ed25519)) :
    derivedMethod? options did codec key = .ok none := by
  rw [derivedMethod?, if_neg h]
  rfl

/-- The derived method is there for every form that the primary one is there for. -/
theorem exists_derivedMethod? (did : String) (hderive : options.deriveEncryption = true)
    (hvalid : Multikey.isValid Codec.ed25519 key = true)
    (hcan : canExpress (formatFor options Codec.ed25519) Codec.ed25519 = true) :
    ∃ m, derivedMethod? options did Codec.ed25519 key = .ok (some m) := by
  obtain ⟨derived, multikey, hkey, hmultikey⟩ := exists_encryptionKey hvalid
  obtain ⟨m, hm⟩ := exists_method_x25519 did multikey derived hcan
  refine ⟨m, ?_⟩
  rw [derivedMethod?, if_pos ⟨hderive, rfl⟩, hkey, Outcome.ok_bind, hmultikey]
  exact congrArg (Except.map some) hm

end Methods

/-! ### The document -/

/-- **A valid key has a document for every form that is not refused**, and the document lists it
first. -/
theorem exists_document (options : KeyOptions) {codec : Codec} {key data : Bytes} {jwk : Jwk}
    (hdecode : Multikey.decode (Multibase.encode58 data) = .ok (codec, key))
    (hvalid : Multikey.isValid codec key = true) (hjwk : Multikey.toJwk codec key = .ok jwk) :
    (IsRefused options codec →
      ∃ f, document options (didOf data) = .error f ∧ f.code = .invalidPublicKeyType) ∧
    (¬ IsRefused options codec →
      ∃ d first, document options (didOf data) = .ok d ∧ d.id = didOf data ∧
        d.methodList.head? = some first ∧ first.jwk = .ok jwk) := by
  obtain ⟨parsed, hparse, huri, hmethod, hid⟩ := parse?_didOf data
  rw [isRefused_iff, document, Did.parse, hparse]
  simp only [orFail, Outcome.ok_bind, hmethod, ne_eq, not_true_eq_false, if_false, huri, hid]
  -- whether the form is enabled is looked at before the key is, and the same failure is raised
  by_cases hexp : (options.format.isExperimental && !options.experimental) = true
  · rw [if_pos hexp]
    exact ⟨fun _ => ⟨_, rfl, rfl⟩, fun h => absurd (Or.inl hexp) h⟩
  · rw [if_neg hexp]
    simp only [hexp, Bool.false_eq_true, false_or, not_not, hdecode, Outcome.ok_bind,
      Multikey.validate_eq_ok.mpr hvalid]
    refine ⟨fun hcan => ?_, fun hcan => ?_⟩
    · obtain ⟨f, hf, hcode⟩ := method_eq_error (didOf data) (Multibase.encode58 data) key hcan
      rw [hf]
      exact ⟨f, rfl, hcode⟩
    · obtain ⟨first, hfirst⟩ := exists_method (didOf data) (Multibase.encode58 data) hcan hjwk
      obtain ⟨derived, hderived⟩ :
          ∃ derived, derivedMethod? options (didOf data) codec key = .ok derived := by
        by_cases h : options.deriveEncryption = true ∧ codec = Codec.ed25519
        · obtain ⟨hderive, rfl⟩ := h
          obtain ⟨m, hm⟩ := exists_derivedMethod? (didOf data) hderive hvalid hcan
          exact ⟨_, hm⟩
        · exact ⟨_, derivedMethod?_eq_none (didOf data) key h⟩
      rw [hfirst, Outcome.ok_bind, hderived]
      exact ⟨_, first, rfl, id_assemble _ _ _ _, rfl, (jwk_method hdecode hfirst).trans hjwk⟩

/-- The key of the first method is found under its thumbprint. -/
theorem methodIdOfKey?_of_head? {d : Document} {m : Method} {j : Jwk}
    (hm : d.methodList.head? = some m) (hjwk : m.jwk = .ok j.canonical) :
    d.methodIdOfKey? j = some m.id := by
  obtain ⟨rest, hlist⟩ := List.head?_eq_some_iff.mp hm
  have hfound : Document.hasThumbprint j.thumbprint m = true := by
    rw [Document.hasThumbprint, hjwk]
    simp
  rw [Document.methodIdOfKey?, hlist, List.find?_cons_of_pos hfound, Option.map_some]

/-- What it takes for a key to have a DID, and what the DID is. -/
theorem didOfKey_eq_ok {j : Jwk} {did : String} (h : didOfKey j = .ok did) :
    ∃ codec key, Multikey.ofJwk j = .ok (codec, key) ∧ Multikey.isValid codec key = true ∧
      key.length = codec.keyLength ∧ did = didOf (Varint.encode codec.code ++ key) := by
  rw [didOfKey] at h
  obtain ⟨⟨codec, key⟩, hkey, h⟩ := Outcome.bind_eq_ok.mp h
  obtain ⟨⟨⟩, hvalid, h⟩ := Outcome.bind_eq_ok.mp h
  obtain ⟨multikey, hencode, h⟩ := Outcome.bind_eq_ok.mp h
  obtain ⟨⟨⟩, hlength, hencode⟩ := Outcome.bind_eq_ok.mp hencode
  obtain rfl := Except.ok.inj hencode
  obtain rfl := Except.ok.inj h
  exact ⟨codec, key, hkey, Multikey.validate_eq_ok.mp hvalid,
    Multikey.checkLength_eq_ok.mp hlength, rfl⟩

/-- **A key, its multikey, its DID and its document agree.** The multikey of a key is read as the
key without the members that do not define it. The DID of the key, if it has one, consists of the
multikey; its document is refused for the form that was asked for, or it is there and its first
method, which is the one that is found for the key, has the key again. -/
theorem document_of_key {j : Jwk} {m : String}
    (h : (KeyMaterial.jwk j).toMultibase = .ok m) :
    (KeyMaterial.multibase m).toJwk = .ok j.canonical ∧
      ∀ did, didOfKey j = .ok did → did = "did:key:" ++ m ∧
        ∃ codec, Multikey.codecOf? j = some codec ∧ ∀ options,
          (IsRefused options codec →
            ∃ f, document options did = .error f ∧ f.code = .invalidPublicKeyType) ∧
          (¬ IsRefused options codec →
            ∃ d first, document options did = .ok d ∧ d.id = did ∧
              d.methodList.head? = some first ∧ first.jwk = .ok j.canonical ∧
              d.methodIdOfKey? j = some first.id) := by
  rw [KeyMaterial.toMultibase] at h
  obtain ⟨⟨codec, key⟩, hkey, hencode⟩ := Outcome.bind_eq_ok.mp h
  obtain ⟨hcodec, htable, hjwk⟩ := Multikey.toJwk_of_ofJwk hkey
  obtain ⟨rfl, hdecode⟩ := Multikey.decode_of_encode htable hencode
  refine ⟨?_, fun did hdid => ?_⟩
  · rw [KeyMaterial.toJwk, hdecode]
    exact hjwk
  · -- the DID was made of the octets that the multikey was made of
    obtain ⟨codec', key', hkey', hvalid, -, rfl⟩ := didOfKey_eq_ok hdid
    obtain ⟨rfl, rfl⟩ := Prod.mk.inj (Except.ok.inj (hkey'.symm.trans hkey))
    refine ⟨rfl, codec', hcodec, fun options => ?_⟩
    obtain ⟨hrefused, hdocument⟩ := exists_document options hdecode hvalid hjwk
    refine ⟨hrefused, fun hnot => ?_⟩
    obtain ⟨d, first, hd, hid, hfirst, hfirstJwk⟩ := hdocument hnot
    exact ⟨d, first, hd, hid, hfirst, hfirstJwk, methodIdOfKey?_of_head? hfirst hfirstJwk⟩

/-- A private key with a name: the one whose public key is the base point of secp256k1. -/
def namedKey : Jwk :=
  .ec
    { crv := "secp256k1", x := "eb5mfvncu6xVoGKVzocLBwKb_NstzijZWfKBWxb4F5g",
      y := "SDradyajxGVdpPv8DhEIqP0XtEimhVQZnEfQj_sQ1Lg",
      d := some "AAAAAAAAAAAAAAAAAAAAAAAAAAAAAAAAAAAAAAAAAAE", params := { kid := some "one" } }

theorem document_of_key_named :
    ∃ m d first f, (KeyMaterial.jwk namedKey).toMultibase = .ok m ∧
      (KeyMaterial.multibase m).toJwk = .ok namedKey.canonical ∧
      document {} ("did:key:" ++ m) = .ok d ∧ d.methodIdOfKey? namedKey = some first ∧
      document { format := .x25519Key2020, experimental := true } ("did:key:" ++ m) = .error f ∧
      f.code = .invalidPublicKeyType := by
  have hkey : (Multikey.ofJwk namedKey).toOption =
      some (Codec.secp256k1, Secp256k1.compress Secp256k1.base) := by decide +kernel
  have hvalid : Multikey.isValid Codec.secp256k1 (Secp256k1.compress Secp256k1.base) = true := by
    decide +kernel
  have hofJwk := Outcome.toOption_eq_some.mp hkey
  have hdid := didOfKey_of_ofJwk hofJwk (by simp [Secp256k1.compress, Codec.secp256k1]) hvalid
  have hmultikey : (KeyMaterial.jwk namedKey).toMultibase = .ok (Multibase.encode58
      (Varint.encode Codec.secp256k1.code ++ Secp256k1.compress Secp256k1.base)) := by
    rw [KeyMaterial.toMultibase, hofJwk]
    rfl
  obtain ⟨hback, hdocument⟩ := document_of_key hmultikey
  obtain ⟨hshape, codec, hcodec, hall⟩ := hdocument _ hdid
  obtain rfl : Codec.secp256k1 = codec := Option.some.inj hcodec
  have hplain : ¬ IsRefused {} Codec.secp256k1 := by
    rintro (⟨hexp, -⟩ | ⟨only, honly, -, -⟩)
    · cases hexp
    · cases honly
  obtain ⟨d, first, hd, -, -, -, hfirst⟩ := (hall {}).2 hplain
  obtain ⟨f, hf, hcode⟩ := (hall { format := .x25519Key2020, experimental := true }).1
    (.otherType Codec.x25519 rfl (by decide) (by decide))
  rw [hshape] at hd hf
  exact ⟨_, d, first.id, f, hmultikey, hback, hd, hfirst, hf, hcode⟩

end KeyMethod

end DidMethods
