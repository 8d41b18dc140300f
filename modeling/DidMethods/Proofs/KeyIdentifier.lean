import DidMethods.KeyMethod.Resolve
import DidMethods.Proofs.Multikey
import DidMethods.Proofs.Relationships

/-!
# Keys and the identifiers of the key method

The identifier of a `did:key` is read liberally: the prefix may be spelled with more octets than it
takes, and a point of secp256k1 may stand behind a five. It is written in one way only
(`DidMethods.KeyMethod.IsPlain`). So the document of a DID has a key with a DID of its own, and this
is the DID itself exactly if that is spelled plainly (`DidMethods.KeyMethod.didOfKey_document`):
each key has one plain DID, and the ones that are not plain are further names of it.
-/

namespace DidMethods

/-- The bare DID of a DID URL is made of its method and its identifier. -/
theorem Did.uri_of_parse? {s : String} {d : Did} (h : Did.parse? s = some d) :
    d.uri = s!"did:{d.method}:{d.id}" := by
  obtain ⟨parts, -, rfl⟩ := Option.map_eq_some_iff.mp h
  rw [← String.toList_inj]
  simp only [Did.ofParts, Did.Parts.renderBare, toString, String.toList_append,
    String.toList_ofList, List.append_assoc]
  rfl

namespace KeyMethod

/-! ### The document of a DID -/

theorem id_assemble (did : String) (codec : Codec) (primary : Method) (derived : Option Method) :
    (assemble did codec primary derived).id = did := by
  rw [assemble]
  dsimp only
  rw [Document.foldl_addRelation Document.id_addRelation (fun _ => .keyAgreement)
      fun m : Method => .text m.id,
    Document.foldl_addRelation Document.id_addRelation (fun p => p) fun _ => .text primary.id]

theorem serviceList_assemble (did : String) (codec : Codec) (primary : Method)
    (derived : Option Method) : (assemble did codec primary derived).serviceList = [] := by
  rw [assemble, Document.serviceList]
  dsimp only
  rw [Document.foldl_addRelation Document.services_addRelation (fun _ => .keyAgreement)
      fun m : Method => .text m.id,
    Document.foldl_addRelation Document.services_addRelation (fun p => p)
      fun _ => .text primary.id]
  rfl

/-- **What a method is made of**: a form that can express the key, the multikey as a fragment, and
the key as the form wants it. -/
theorem method_eq_ok {options : KeyOptions} {did multikey : String} {codec : Codec} {key : Bytes}
    {m : Method} :
    method options did multikey codec key = .ok m ↔
      canExpress (formatFor options codec) codec = true ∧ ∃ material,
        (if (formatFor options codec).isJwk then (Multikey.toJwk codec key).map .jwk
          else .ok (.multibase multikey)) = (.ok material : Outcome KeyMaterial) ∧
        m = { id := did ++ "#" ++ multikey, type := (formatFor options codec).name,
              controller := did, key := material } := by
  rw [method]
  dsimp only
  -- both kinds of material are used in the same way
  cases (formatFor options codec).isJwk
  all_goals
    simp only [if_true, Bool.false_eq_true, if_false]
    constructor
    · intro h
      obtain ⟨hcan, h⟩ := Outcome.ite_fail_eq_ok.mp h
      obtain ⟨material, hmaterial, h⟩ := Outcome.bind_eq_ok.mp h
      exact ⟨not_not.mp hcan, material, hmaterial, (Except.ok.inj h).symm⟩
    · rintro ⟨hcan, material, hmaterial, rfl⟩
      rw [if_neg (not_not.mpr hcan), hmaterial]
      rfl

/-- The key of a method is the key that it was made for. -/
theorem jwk_method {options : KeyOptions} {did multikey : String} {codec : Codec} {key : Bytes}
    {m : Method} (hkey : Multikey.decode multikey = .ok (codec, key))
    (h : method options did multikey codec key = .ok m) : m.jwk = Multikey.toJwk codec key := by
  obtain ⟨-, material, hmaterial, rfl⟩ := method_eq_ok.mp h
  split at hmaterial
  · obtain ⟨jwk, hjwk, rfl⟩ := Outcome.map_eq_ok.mp hmaterial
    exact hjwk.symm
  · obtain rfl := Except.ok.inj hmaterial
    rw [Method.jwk, KeyMaterial.toJwk, hkey]
    rfl

/-- **What a DID resolves by**: its identifier is the multikey of a key, the document has the method
that is made of the key, and possibly the one that is derived from it. -/
theorem document_eq_ok {options : KeyOptions} {did : String} {d : Document} :
    document options did = .ok d ↔ ∃ parsed codec key primary derived,
      Did.parse? did = some parsed ∧ parsed.method = name ∧
      (options.format.isExperimental && !options.experimental) = false ∧
      Multikey.decode parsed.id = .ok (codec, key) ∧ Multikey.isValid codec key = true ∧
      method options parsed.uri parsed.id codec key = .ok primary ∧
      derivedMethod? options parsed.uri codec key = .ok derived ∧
      d = assemble parsed.uri codec primary derived := by
  rw [document]
  constructor
  · intro h
    obtain ⟨parsed, hparsed, h⟩ := Outcome.bind_eq_ok.mp h
    obtain ⟨hmethod, h⟩ := Outcome.ite_fail_eq_ok.mp h
    obtain ⟨hform, h⟩ := Outcome.ite_fail_eq_ok.mp h
    obtain ⟨⟨codec, key⟩, hdecode, h⟩ := Outcome.bind_eq_ok.mp h
    obtain ⟨⟨⟩, hvalid, h⟩ := Outcome.bind_eq_ok.mp h
    obtain ⟨primary, hprimary, h⟩ := Outcome.bind_eq_ok.mp h
    obtain ⟨derived, hderived, h⟩ := Outcome.bind_eq_ok.mp h
    exact ⟨parsed, codec, key, primary, derived, Outcome.orFail_eq_ok.mp hparsed,
      not_not.mp hmethod, Bool.eq_false_of_not_eq_true hform, hdecode,
      Multikey.validate_eq_ok.mp hvalid, hprimary, hderived, (Except.ok.inj h).symm⟩
  · rintro ⟨parsed, codec, key, primary, derived, hparsed, hmethod, hform, hdecode, hvalid,
      hprimary, hderived, rfl⟩
    rw [Did.parse, Outcome.orFail_eq_ok.mpr hparsed, Outcome.ok_bind, if_neg (not_not.mpr hmethod),
      hform]
    simp only [Bool.false_eq_true, if_false, hdecode, Outcome.ok_bind,
      Multikey.validate_eq_ok.mpr hvalid, hprimary, hderived]
    rfl

/-- The identifier of the document of a DID is a multikey, and its first method has this key. -/
theorem key_of_document {options : KeyOptions} {did : String} {d : Document}
    (h : document options did = .ok d) :
    ∃ multikey codec key m, d.id = s!"did:{name}:{multikey}" ∧
      Multikey.decode multikey = .ok (codec, key) ∧ Multikey.isValid codec key = true ∧
      d.methodList.head? = some m ∧ m.jwk = Multikey.toJwk codec key := by
  obtain ⟨parsed, codec, key, primary, derived, hparsed, hmethod, -, hdecode, hvalid, hprimary, -,
    rfl⟩ := document_eq_ok.mp h
  refine ⟨parsed.id, codec, key, primary, ?_, hdecode, hvalid, rfl, jwk_method hdecode hprimary⟩
  rw [id_assemble, Did.uri_of_parse? hparsed, hmethod]

/-! ### The DID of a key -/

/-- The DID that some octets write. -/
def didOf (data : Bytes) : String :=
  s!"did:{name}:{Multibase.encode58 data}"

/-- Different octets write different DIDs. -/
theorem didOf_injective {data other : Bytes} (h : didOf data = didOf other) : data = other := by
  have hlist := congrArg String.toList h
  simp only [didOf, String.toList_append] at hlist
  exact Multibase.encode58_injective (String.toList_inj.mp (List.append_cancel_left hlist))

/-- A DID that is spelled as the method itself would: the prefix takes as few octets as it can, and
the key is not a point behind a five. -/
def IsPlain (did : String) : Prop :=
  ∃ codec ∈ Codec.table, ∃ key,
    did = didOf (Varint.encode codec.code ++ key) ∧ Multikey.Plain codec key

/-- The DID of a key that can be written as octets. -/
theorem didOfKey_of_ofJwk {jwk : Jwk} {codec : Codec} {key : Bytes}
    (hkey : Multikey.ofJwk jwk = .ok (codec, key)) (hlen : key.length = codec.keyLength)
    (hvalid : Multikey.isValid codec key = true) :
    didOfKey jwk = .ok (didOf (Varint.encode codec.code ++ key)) := by
  rw [didOfKey, hkey, Outcome.ok_bind]
  dsimp only
  rw [Multikey.validate_eq_ok.mpr hvalid, Outcome.ok_bind, Multikey.encode,
    Multikey.checkLength_eq_ok.mpr hlen]
  rfl

/-- **Which octets write a plain DID**: the code of their key, in as few octets as it takes, and a
plain key. -/
theorem isPlain_didOf {codec : Codec} {data key : Bytes} (hcodec : codec ∈ Codec.table)
    (hdata : Varint.decode? data = some (codec.code, key)) :
    IsPlain (didOf data) ↔
      data = Varint.encode codec.code ++ key ∧ Multikey.Plain codec key := by
  constructor
  · rintro ⟨other, hother, written, hdid, hplain⟩
    obtain rfl := didOf_injective hdid
    rw [Varint.decode?_encode_append (Codec.code_lt hother)] at hdata
    obtain ⟨hcode, rfl⟩ := Prod.mk.inj (Option.some.inj hdata)
    obtain rfl := Codec.eq_of_code_eq hother hcodec hcode
    exact ⟨rfl, hplain⟩
  · rintro ⟨rfl, hplain⟩
    exact ⟨codec, hcodec, key, rfl, hplain⟩

/-- The key of a document has a plain DID, which is the one of the document if that is plain. -/
theorem exists_key_of_document {options : KeyOptions} {did : String} {d : Document}
    (h : document options did = .ok d) :
    ∃ m jwk plain, d.methodList.head? = some m ∧ m.jwk = .ok jwk ∧ didOfKey jwk = .ok plain ∧
      IsPlain plain ∧ (plain = d.id ↔ IsPlain d.id) := by
  obtain ⟨multikey, codec, key, m, hid, hdecode, hvalid, hm, hjwk⟩ := key_of_document h
  obtain ⟨data, hmultibase, hdata, hcodec, hlen⟩ := Multikey.decode_eq_ok hdecode
  obtain ⟨jwk, written, htoJwk, hofJwk, hwrittenLen, hwrittenValid, hplain, hwritten⟩ :=
    Multikey.ofJwk_toJwk hcodec hlen hvalid
  have hdid : d.id = didOf data := by
    rw [hid, ← Multibase.encode58_of_decode? hmultibase, didOf]
  refine ⟨m, jwk, _, hm, hjwk.trans htoJwk, didOfKey_of_ofJwk hofJwk hwrittenLen hwrittenValid,
    ⟨codec, hcodec, written, rfl, hplain⟩, ?_⟩
  rw [hdid, isPlain_didOf hcodec hdata, ← hwritten]
  constructor
  · intro hsame
    -- what is read off the octets is the key that was written
    obtain rfl := didOf_injective hsame
    rw [Varint.decode?_encode_append (Codec.code_lt hcodec)] at hdata
    obtain rfl := (Prod.mk.inj (Option.some.inj hdata)).2
    exact ⟨rfl, rfl⟩
  · rintro ⟨rfl, rfl⟩
    rfl

/-! ### From DIDs to keys and back -/

/-- **A key leads back to the DID it came from exactly if the DID is spelled plainly.** The first
method of the document of a DID has a key, and this key has a plain DID. It is the DID of every
document with this key whose DID is plain, and of no other: two plain DIDs of one key are the same,
and a DID that is not plain is another name of its key. -/
theorem didOfKey_document {options : KeyOptions} {did : String} {d : Document}
    (h : document options did = .ok d) :
    ∃ m jwk, d.methodList.head? = some m ∧ m.jwk = .ok jwk ∧
      (didOfKey jwk = .ok d.id ↔ IsPlain d.id) ∧
      ∀ (options' : KeyOptions) (did' : String) (d' : Document) (m' : Method),
        document options' did' = .ok d' → d'.methodList.head? = some m' → m'.jwk = .ok jwk →
          IsPlain d.id → (d'.id = d.id ↔ IsPlain d'.id) := by
  obtain ⟨m, jwk, plain, hm, hjwk, hdid, -, hplain⟩ := exists_key_of_document h
  refine ⟨m, jwk, hm, hjwk, ?_, ?_⟩
  · rw [hdid, Except.ok.injEq, hplain]
  · -- the DID of the key is the same for both documents
    intro options' did' d' m' h' hm' hjwk' hd
    obtain ⟨m'', jwk', plain', hm'', hjwk'', hdid', -, hplain'⟩ := exists_key_of_document h'
    obtain rfl := Option.some.inj (hm'.symm.trans hm'')
    obtain rfl := Except.ok.inj (hjwk'.symm.trans hjwk'')
    obtain rfl := Except.ok.inj (hdid.symm.trans hdid')
    rw [← hplain', hplain.mpr hd]
    exact eq_comm

/-- The DID of a point behind its parity. -/
def compressedDid : String := "did:key:zQ3shVc2UkAfJCdc1TR8E66J85h48P43r93q8jGPkPpjF9Ef9"

/-- The DID of the same point behind a five. -/
def compactDid : String := "did:key:zQ3siPHybEXv6ampKAfUUmcq1fMTh8XypNg3RBRFiyb1Yh6Py"

theorem didOfKey_document_compressed :
    ∃ d, document {} compressedDid = .ok d ∧
      ∃ m jwk, d.methodList.head? = some m ∧ m.jwk = .ok jwk ∧
        (didOfKey jwk = .ok d.id ↔ IsPlain d.id) ∧
        ∀ (options' : KeyOptions) (did' : String) (d' : Document) (m' : Method),
          document options' did' = .ok d' → d'.methodList.head? = some m' → m'.jwk = .ok jwk →
            IsPlain d.id → (d'.id = d.id ↔ IsPlain d'.id) := by
  have hresolves : (document {} compressedDid).toOption.isSome = true := by decide +kernel
  obtain ⟨d, hd⟩ := Option.isSome_iff_exists.mp hresolves
  have hdocument : document {} compressedDid = .ok d := Outcome.toOption_eq_some.mp hd
  exact ⟨d, hdocument, didOfKey_document hdocument⟩

/-- The identifier of the document of a DID, and the DID of its key. -/
def roundTrip? (options : KeyOptions) (did : String) : Option (String × String) := do
  let d ← (document options did).toOption
  let m ← d.methodList.head?
  let jwk ← m.jwk.toOption
  let back ← (didOfKey jwk).toOption
  return (d.id, back)

theorem roundTrip?_compactDid : roundTrip? {} compactDid = some (compactDid, compressedDid) := by
  decide +kernel

/-- A DID that is not spelled plainly does not come back from its key. -/
theorem not_forall_didOfKey_document :
    ¬ ∀ (options : KeyOptions) (did : String) (d : Document), document options did = .ok d →
      ∃ m jwk, d.methodList.head? = some m ∧ m.jwk = .ok jwk ∧ didOfKey jwk = .ok d.id := by
  intro h
  obtain ⟨d, hd, htrip⟩ := Option.bind_eq_some_iff.mp roundTrip?_compactDid
  obtain ⟨m, hm, htrip⟩ := Option.bind_eq_some_iff.mp htrip
  obtain ⟨jwk, hjwk, htrip⟩ := Option.bind_eq_some_iff.mp htrip
  obtain ⟨back, hback, htrip⟩ := Option.bind_eq_some_iff.mp htrip
  obtain ⟨hid, rfl⟩ := Prod.mk.inj (Option.some.inj htrip)
  obtain ⟨m', jwk', hm', hjwk', hid'⟩ := h {} compactDid d (Outcome.toOption_eq_some.mp hd)
  obtain rfl := Option.some.inj (hm.symm.trans hm')
  rw [Outcome.toOption_eq_some.mp hjwk] at hjwk'
  obtain rfl := Except.ok.inj hjwk'
  rw [Outcome.toOption_eq_some.mp hback, hid] at hid'
  exact absurd (Except.ok.inj hid') (by decide)

end KeyMethod

end DidMethods
