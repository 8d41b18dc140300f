import DidMethods.Proofs.DidGrammar
import DidMethods.Proofs.KeyDocument

/-!
# The shape of a key's document

The document of a `did:key` has one method, or two if a key for key agreement was derived. Who reads
it does not check it again, so it has to be well formed whatever the key and the options are
(`DidMethods.KeyMethod.WellFormed`): each method has the key that its identifier writes, each
relationship refers to methods that are listed and to none of them twice, and a method serves key
agreement if its key is of that kind and everything else if it is not.

Both methods are made in the same way from a multikey (`DidMethods.KeyMethod.presents_method`), so
that it is enough to know of each what type its key has (`DidMethods.KeyMethod.keyed`): a
relationship is the list of the methods whose type serves it
(`DidMethods.KeyMethod.relationship_assemble`). Their identifiers differ since the types do. The
contexts are those of the core terms and of the suites, each where it is first seen
(`DidMethods.Suite.contextsOf_eq`).

Only the bare DID of a DID URL counts (`DidMethods.KeyMethod.document_congr`), so that all DID URLs
with one DID have one document.
-/

namespace DidMethods

/-! ### Contexts -/

namespace Suite

/-- Appending what is not there yet keeps what is first seen. -/
theorem foldl_addNew (list : List String) : list.foldl addNew [] = list.eraseDups := by
  induction list using List.reverseRecOn with
  | nil => rfl
  | append_singleton list s ih =>
    rw [List.foldl_append, ih, List.eraseDups_append, List.foldl_cons, List.foldl_nil, addNew]
    by_cases h : s ∈ list
    · rw [if_pos (by simpa using h)]
      simp [List.removeAll, h]
    · rw [if_neg (by simpa using h)]
      simp [List.removeAll, h, List.eraseDups_cons]

/-- **The contexts are the core one and those of the suites, as they are first seen.** -/
theorem contextsOf_eq (suites : List String) :
    contextsOf suites = (didContext :: suites.filterMap context?).eraseDups :=
  foldl_addNew (didContext :: suites.filterMap context?)

theorem nodup_contextsOf (suites : List String) : (contextsOf suites).Nodup := by
  rw [contextsOf]
  induction suites.filterMap context? using List.reverseRecOn with
  | nil => simp
  | append_singleton list s ih =>
    rw [List.foldl_append, List.foldl_cons, List.foldl_nil, addNew]
    split
    · exact ih
    · next h =>
      rw [← List.concat_eq_append]
      exact ih.concat (by simpa using h)

/-- More suites come with more contexts behind the others. -/
theorem contextsOf_append (suites more : List String) :
    ∃ contexts, contextsOf (suites ++ more) = contextsOf suites ++ contexts := by
  rw [contextsOf_eq, contextsOf_eq, List.filterMap_append, ← List.cons_append,
    List.eraseDups_append]
  exact ⟨_, rfl⟩

end Suite

namespace KeyMethod

variable {options : KeyOptions} {did multikey : String} {codec : Codec} {key : Bytes} {m : Method}
  {d : Document}

/-- Each form is the name of a suite with a context. -/
theorem exists_context (format : KeyFormat) : ∃ c, Suite.context? format.name = some c := by
  cases format <;> exact ⟨_, rfl⟩

/-- **Keys for key agreement serve that purpose only, and the others serve all but that one.** -/
theorem mem_purposesOf {p : Purpose} :
    p ∈ purposesOf codec ↔ (p = .keyAgreement ↔ codec = Codec.x25519) := by
  rw [purposesOf]
  split
  · next h => simp [h]
  · next h => cases p <;> simp [h]

/-! ### The methods of a document -/

/-- A method of a DID with a key of some type: the identifier is the DID with a multikey behind it,
the key is the one that the multikey writes, and the type is the name of a form for such keys. -/
structure Presents (did : String) (codec : Codec) (m : Method) : Prop where
  /-- The DID is in control. -/
  controller : m.controller = did
  /-- The key is in the identifier. -/
  key : ∃ multikey bytes jwk, m.id = did ++ "#" ++ multikey ∧
    Multikey.decode multikey = .ok (codec, bytes) ∧ Multikey.toJwk codec bytes = .ok jwk ∧
    m.jwk = .ok jwk
  /-- The form is there for keys of this type, and the key is written as the form wants it. -/
  form : ∃ format : KeyFormat, m.type = format.name ∧
    (∀ only, format.codec? = some only → only = codec) ∧
    ((∃ jwk, m.key = .jwk jwk) ↔ format.isJwk = true)

/-- **The method of a multikey presents its key.** -/
theorem presents_method (hdecode : Multikey.decode multikey = .ok (codec, key))
    (hvalid : Multikey.isValid codec key = true)
    (h : method options did multikey codec key = .ok m) : Presents did codec m := by
  obtain ⟨-, -, -, hcodec, hlength⟩ := Multikey.decode_eq_ok hdecode
  obtain ⟨jwk, -, hjwk, -⟩ := Multikey.ofJwk_toJwk hcodec hlength hvalid
  have hmethod := (jwk_method hdecode h).trans hjwk
  obtain ⟨hcan, material, hmaterial, rfl⟩ := method_eq_ok.mp h
  refine ⟨rfl, ⟨multikey, key, jwk, rfl, hdecode, hjwk, hmethod⟩,
    formatFor options codec, rfl, canExpress_iff.mp hcan, ?_⟩
  split at hmaterial
  · next hform =>
    obtain ⟨jwk, -, rfl⟩ := Outcome.map_eq_ok.mp hmaterial
    exact iff_of_true ⟨jwk, rfl⟩ hform
  · next hform =>
    obtain rfl := Except.ok.inj hmaterial
    exact iff_of_false (by rintro ⟨jwk, hjwk⟩; cases hjwk) hform

/-- Every thirty-two octets are a key for key agreement. -/
theorem isValid_x25519 (h : key.length = Codec.x25519.keyLength) :
    Multikey.isValid Codec.x25519 key = true := by
  rw [Multikey.isValid, if_neg (by decide), if_neg (by decide)]
  simpa using h

/-- What a derived method is made of. -/
theorem derivedMethod?_eq_ok (h : derivedMethod? options did codec key = .ok (some m)) :
    codec = Codec.ed25519 ∧ ∃ derived multikey, encryptionKey key = .ok derived ∧
      Multikey.decode multikey = .ok (Codec.x25519, derived) ∧
      method options did multikey Codec.x25519 derived = .ok m := by
  rw [derivedMethod?] at h
  split at h
  · next hderive =>
    obtain ⟨derived, hderived, h⟩ := Outcome.bind_eq_ok.mp h
    obtain ⟨multikey, hmultikey, h⟩ := Outcome.bind_eq_ok.mp h
    obtain ⟨m', hm', h⟩ := Outcome.bind_eq_ok.mp h
    obtain rfl := Option.some.inj (Except.ok.inj h)
    exact ⟨hderive.2, derived, multikey, hderived,
      (Multikey.decode_of_encode (by decide) hmultikey).2, hm'⟩
  · cases h

theorem presents_derivedMethod? (h : derivedMethod? options did codec key = .ok (some m)) :
    Presents did Codec.x25519 m := by
  obtain ⟨-, derived, multikey, -, hdecode, hm⟩ := derivedMethod?_eq_ok h
  obtain ⟨-, -, -, -, hlength⟩ := Multikey.decode_eq_ok hdecode
  exact presents_method hdecode (isValid_x25519 hlength) hm

/-- Methods with keys of different types have different identifiers. -/
theorem Presents.id_ne {codec' : Codec} {m' : Method} (h : Presents did codec m)
    (h' : Presents did codec' m') (hne : codec ≠ codec') : m.id ≠ m'.id := by
  obtain ⟨first, bytes, -, hid, hdecode, -⟩ := h.key
  obtain ⟨second, bytes', -, hid', hdecode', -⟩ := h'.key
  intro hsame
  have hlist := congrArg String.toList (hid.symm.trans (hsame.trans hid'))
  simp only [String.toList_append, List.append_right_inj] at hlist
  obtain rfl := String.toList_inj.mp hlist
  rw [hdecode] at hdecode'
  exact hne (congrArg Prod.fst (Except.ok.inj hdecode'))

/-- The methods of a document, each with the type of its key. -/
def keyed (codec : Codec) (primary : Method) (derived : Option Method) : List (Method × Codec) :=
  (primary, codec) :: derived.toList.map fun m => (m, Codec.x25519)

theorem methodList_assemble (did : String) (codec : Codec) (primary : Method)
    (derived : Option Method) :
    (assemble did codec primary derived).methodList =
      (keyed codec primary derived).map Prod.fst := by
  cases derived <;> rfl

/-- **A relationship refers to the methods whose type serves it**, in the order of the list. -/
theorem relationship_assemble (did : String) (codec : Codec) (primary : Method)
    (derived : Option Method) (p : Purpose) :
    (assemble did codec primary derived).relationship p =
      ((keyed codec primary derived).filter fun k => p ∈ purposesOf k.2).map
        fun k => .text k.1.id := by
  have hfold : (assemble did codec primary derived).relationship p =
      (derived.toList.foldl (fun d m => d.addRelation .keyAgreement (.text m.id))
        ((purposesOf codec).foldl (fun d q => d.addRelation q (.text primary.id))
          { id := did : Document })).relationship p := by
    cases p <;> rfl
  have hnew : ({ id := did : Document }).relationship p = [] := by
    cases p <;> rfl
  have hprimary : (((purposesOf codec).filter fun q => q = p).map fun _ => .text primary.id) =
      if p ∈ purposesOf codec then [(.text primary.id : Relation)] else [] := by
    rw [purposesOf]
    split <;> cases p <;> rfl
  have hderived : (fun _ : Method => decide (Purpose.keyAgreement = p)) =
      (fun k : Method × Codec => decide (p ∈ purposesOf k.2)) ∘ fun m => (m, Codec.x25519) := by
    funext m
    rw [Function.comp_apply, decide_eq_decide, mem_purposesOf]
    exact ⟨fun h => iff_of_true h.symm rfl, fun h => (h.mpr rfl).symm⟩
  rw [hfold, Document.relationship_foldl_addRelation (fun _ => .keyAgreement)
      fun m : Method => .text m.id,
    Document.relationship_foldl_addRelation (fun q => q) fun _ => .text primary.id, hnew,
    List.nil_append, hprimary, hderived, keyed, List.filter_cons, List.filter_map]
  by_cases h : p ∈ purposesOf codec
  · simp [h]
  · simp [h]

/-- The context of a document with some methods. -/
theorem context_assemble (did : String) (codec : Codec) (primary : Method)
    (derived : Option Method) :
    (assemble did codec primary derived).context =
      (Suite.contextsOf ((assemble did codec primary derived).methodList.map Method.type)).map
        .text :=
  rfl

/-! ### Documents are well formed -/

/-- A document of a DID that can be taken as it is, without another look at its methods. -/
structure WellFormed (did : String) (d : Document) : Prop where
  /-- It is about the DID. -/
  id : d.id = did
  /-- There is a method, and there are no more than two. -/
  count : d.methodList.length = 1 ∨ d.methodList.length = 2
  /-- No two methods have one identifier. -/
  distinct : (d.methodList.map Method.id).Nodup
  /-- Each method presents a key. A key for key agreement serves this purpose only, and every other
  key serves all the others. -/
  methods : ∀ m ∈ d.methodList, ∃ codec, Presents did codec m ∧
    ∀ p, .text m.id ∈ d.relationship p ↔ (p = .keyAgreement ↔ codec = Codec.x25519)
  /-- Relationships refer to methods of the list, and embed none. -/
  listed : ∀ p, ∀ entry ∈ d.relationship p, ∃ m ∈ d.methodList, entry = .text m.id
  /-- No relationship has a method twice. -/
  once : ∀ p, (d.methodIds p).Nodup
  /-- The suites of all methods have contexts. -/
  suites : ∀ m ∈ d.methodList, ∃ c, Suite.context? m.type = some c
  /-- The contexts are the core one and those of the suites, as they are first seen. -/
  context : d.context = (Suite.didContext ::
    d.methodList.filterMap fun m => Suite.context? m.type).eraseDups.map .text
  /-- No context is there twice. -/
  contextOnce : d.context.Nodup

section Keyed

variable {primary : Method} {derived : Option Method}

/-- **The methods present their keys, and no two of them have one identifier.** -/
theorem presents_keyed (hdecode : Multikey.decode multikey = .ok (codec, key))
    (hvalid : Multikey.isValid codec key = true)
    (hprimary : method options did multikey codec key = .ok primary)
    (hderived : derivedMethod? options did codec key = .ok derived) :
    (∀ k ∈ keyed codec primary derived, Presents did k.2 k.1) ∧
      ((keyed codec primary derived).map fun k => k.1.id).Nodup := by
  have hfirst := presents_method hdecode hvalid hprimary
  cases derived with
  | none => exact ⟨by simpa [keyed] using hfirst, List.nodup_singleton _⟩
  | some second =>
    have hsecond := presents_derivedMethod? hderived
    -- a key is derived from a key of another type only
    obtain ⟨rfl, -⟩ := derivedMethod?_eq_ok hderived
    have hne : primary.id ≠ second.id := hfirst.id_ne hsecond (by decide)
    exact ⟨by simpa [keyed] using ⟨hfirst, hsecond⟩, by simpa [keyed] using hne⟩

theorem wellFormed_assemble
    (hkeys : ∀ k ∈ keyed codec primary derived, Presents did k.2 k.1)
    (hids : ((keyed codec primary derived).map fun k => k.1.id).Nodup) :
    WellFormed did (assemble did codec primary derived) := by
  have hmem : ∀ {m}, m ∈ (assemble did codec primary derived).methodList ↔
      ∃ k ∈ keyed codec primary derived, k.1 = m := by
    intro m
    rw [methodList_assemble, List.mem_map]
  constructor
  case id => exact id_assemble _ _ _ _
  case count => cases derived <;> simp [methodList_assemble, keyed]
  case distinct => rwa [methodList_assemble, List.map_map]
  case methods =>
    intro m hm
    obtain ⟨k, hk, rfl⟩ := hmem.mp hm
    refine ⟨k.2, hkeys k hk, fun p => ?_⟩
    rw [relationship_assemble, List.mem_map, ← mem_purposesOf]
    constructor
    · -- the identifier is the one of this method only
      rintro ⟨other, hother, hsame⟩
      obtain ⟨hother, hp⟩ := List.mem_filter.mp hother
      obtain rfl := List.inj_on_of_nodup_map hids hother hk (TextOr.text.inj hsame)
      exact of_decide_eq_true hp
    · exact fun hp => ⟨k, List.mem_filter.mpr ⟨hk, decide_eq_true hp⟩, rfl⟩
  case listed =>
    intro p entry hentry
    rw [relationship_assemble] at hentry
    obtain ⟨k, hk, rfl⟩ := List.mem_map.mp hentry
    exact ⟨k.1, hmem.mpr ⟨k, List.mem_of_mem_filter hk, rfl⟩, rfl⟩
  case once =>
    intro p
    rw [Document.methodIds, relationship_assemble, List.map_map]
    exact hids.sublist (List.filter_sublist.map _)
  case suites =>
    intro m hm
    obtain ⟨k, hk, rfl⟩ := hmem.mp hm
    obtain ⟨format, htype, -⟩ := (hkeys k hk).form
    rw [htype]
    exact exists_context format
  case context => rw [context_assemble, Suite.contextsOf_eq, List.filterMap_map]; rfl
  case contextOnce =>
    rw [context_assemble]
    exact (Suite.nodup_contextsOf _).map fun _ _ => TextOr.text.inj

end Keyed

/-- **A document is well formed**, whatever the key and the options are. -/
theorem wellFormed_of_document (h : document options did = .ok d) :
    ∃ parsed, Did.parse? did = some parsed ∧ WellFormed parsed.uri d := by
  obtain ⟨parsed, codec, key, primary, derived, hparse, -, -, hdecode, hvalid, hprimary, hderived,
    rfl⟩ := document_eq_ok.mp h
  obtain ⟨hkeys, hids⟩ := presents_keyed hdecode hvalid hprimary hderived
  exact ⟨parsed, hparse, wellFormed_assemble hkeys hids⟩

/-- The document depends on the bare DID only. -/
theorem document_congr (options : KeyOptions) {url : String} {parsed other : Did}
    (hparse : Did.parse? did = some parsed) (hother : Did.parse? url = some other)
    (huri : other.uri = parsed.uri) : document options url = document options did := by
  obtain ⟨hmethod, hid⟩ := Did.eq_of_uri_eq hparse hother huri
  rw [document, document, Did.parse, Did.parse, hparse, hother]
  simp only [orFail, Outcome.ok_bind, hmethod, hid, huri]

/-- **A document is well formed, and it is the one of every DID URL with its DID.** Where there is
no document there is the same failure for all of these DID URLs. -/
theorem document_wellFormed (options : KeyOptions) (did : String) :
    (∀ d, document options did = .ok d →
      ∃ parsed, Did.parse? did = some parsed ∧ WellFormed parsed.uri d) ∧
    ∀ parsed url other, Did.parse? did = some parsed → Did.parse? url = some other →
      other.uri = parsed.uri → document options url = document options did :=
  ⟨fun _ => wellFormed_of_document, fun _ _ _ => document_congr options⟩

/-- The DID of an Ed25519 key. -/
def signingDid : String := "did:key:z6MkhaXgBZDvotDkL5257faiztiGiC2QtKLGpbnnEGta2doK"

/-- A key for key agreement is derived, and the keys are as different as they can be. -/
def derivingOptions : KeyOptions where
  format := .ed25519Key2020
  deriveEncryption := true
  experimental := true

theorem document_wellFormed_signing :
    ∃ d, document derivingOptions signingDid = .ok d ∧ d.methodList.length = 2 ∧
      WellFormed signingDid d ∧
      document derivingOptions (signingDid ++ "/path?service=files#key") = .ok d := by
  have hdocument : ((document derivingOptions signingDid).toOption.map fun d =>
      d.methodList.length) = some 2 := by decide +kernel
  obtain ⟨d, hd, hcount⟩ := Option.map_eq_some_iff.mp hdocument
  have hd := Outcome.toOption_eq_some.mp hd
  obtain ⟨hshape, hsame⟩ := document_wellFormed derivingOptions signingDid
  obtain ⟨parsed, hparse, hwellFormed⟩ := hshape d hd
  have huris : (Did.parse? signingDid).map Did.uri = some signingDid ∧
      (Did.parse? (signingDid ++ "/path?service=files#key")).map Did.uri = some signingDid := by
    decide +kernel
  have huri : parsed.uri = signingDid := by simpa [hparse] using huris.1
  obtain ⟨other, hother, hotherUri⟩ := Option.map_eq_some_iff.mp huris.2
  rw [huri] at hwellFormed
  exact ⟨d, hd, hcount, hwellFormed,
    (hsame parsed _ other hparse hother (hotherUri.trans huri.symm)).trans hd⟩

end KeyMethod

end DidMethods
