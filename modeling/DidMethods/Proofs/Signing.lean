import DidMethods.Bearer.Basic
import DidMethods.Key.Verify
import DidMethods.Proofs.KeyCustody
import DidMethods.Proofs.KeyNames

/-!
# Signing for a DID

Which key signs for a DID is told by its document: a method is chosen by what the caller asks for
(`DidMethods.Bearer.Chosen`), and the manager has to hold its key. The manager signs with what it
finds under the URI of this key, while the verifier has nothing but the document, where the key can
be written as a JSON Web Key or as a multikey, and can say more of itself than what defines it.

The two are the same key: what is held under a URI has this URI, so that it has the defining members
of the key in the document, unless two keys collide (`DidMethods.KeyStore.Reachable.canonical_eq`),
and a signature is checked against the defining members alone (`DidMethods.Jwk.verify_canonical`).
So what a signer signs verifies under the key of the document (`DidMethods.Bearer.signer_sound`).

The groups of the two curves are not looked into. What is needed of them is that a signature
verifies under the public key of its secret, which is asked for one key and one message at a time
(`DidMethods.KeyPair.VerifiesOwn`) and can be computed.
-/

namespace DidMethods

/-! ### First items -/

/-- A wanted item of a list, where every item before it is passed over. -/
def ComesFirst {α : Type} (wanted passed : α → Prop) (list : List α) (a : α) : Prop :=
  ∃ before after, list = before ++ a :: after ∧ wanted a ∧ ∀ b ∈ before, passed b

section ComesFirst

variable {α : Type} {wanted passed : α → Prop} {list : List α} {a b : α}

theorem ComesFirst.mem (h : ComesFirst wanted passed list a) : a ∈ list := by
  obtain ⟨before, after, rfl, -⟩ := h
  exact List.mem_append_right before List.mem_cons_self

theorem not_comesFirst_nil : ¬ ComesFirst wanted passed [] a := by
  rintro ⟨before, after, h, -⟩
  exact absurd h.symm (List.append_ne_nil_of_right_ne_nil before (List.cons_ne_nil a after))

theorem comesFirst_cons :
    ComesFirst wanted passed (b :: list) a ↔
      b = a ∧ wanted a ∨ passed b ∧ ComesFirst wanted passed list a := by
  constructor
  · rintro ⟨before, after, h, ha, hbefore⟩
    cases before with
    | nil => exact Or.inl ⟨(List.cons.inj h).1, ha⟩
    | cons c before =>
      obtain ⟨rfl, rfl⟩ := List.cons.inj h
      obtain ⟨hb, hbefore⟩ := List.forall_mem_cons.mp hbefore
      exact Or.inr ⟨hb, before, after, rfl, ha, hbefore⟩
  · rintro (⟨rfl, ha⟩ | ⟨hb, before, after, rfl, ha, hbefore⟩)
    · exact ⟨[], list, rfl, ha, fun _ => nofun⟩
    · exact ⟨b :: before, after, rfl, ha, List.forall_mem_cons.mpr ⟨hb, hbefore⟩⟩

end ComesFirst

/-! ### Methods of a document -/

/-- The key of the method has this URI. -/
def Method.HasUri (m : Method) (uri : String) : Prop :=
  ∃ key, m.jwk = .ok key ∧ key.uri = uri

namespace Document

variable {d : Document} {m : Method}

/-- The method is the first listed one with this identifier. -/
def Names (d : Document) (id : String) (m : Method) : Prop :=
  ComesFirst (fun m => m.id = d.fullMethodId id) (fun m => m.id ≠ d.fullMethodId id) d.methodList m

/-- An entry of a relationship stands for the listed method that it refers to, or for the method
that it embeds. -/
inductive StandsFor (d : Document) : Relation → Method → Prop where
  /-- A reference to a listed method. -/
  | reference {id : String} {m : Method} (h : d.Names id m) : StandsFor d (.text id) m
  /-- A method of its own. -/
  | embedded (m : Method) : StandsFor d (.value m) m

theorem method?_eq_some {id : String} : d.method? id = some m ↔ d.Names id m := by
  rw [method?, List.find?_eq_some_iff_append, Names, ComesFirst]
  simp only [beq_iff_eq, Bool.not_eq_eq_eq_not, Bool.not_true, beq_eq_false_iff_ne]
  constructor
  · rintro ⟨hm, before, after, hlist, hbefore⟩
    exact ⟨before, after, hlist, hm, hbefore⟩
  · rintro ⟨before, after, hlist, hm, hbefore⟩
    exact ⟨hm, before, after, hlist, hbefore⟩

theorem resolveRelation?_eq_some {e : Relation} :
    d.resolveRelation? e = some m ↔ d.StandsFor e m := by
  cases e with
  | text id =>
    rw [resolveRelation?, method?_eq_some]
    exact ⟨.reference, fun | .reference h => h⟩
  | value own =>
    rw [resolveRelation?, Option.some.injEq]
    constructor
    · rintro rfl
      exact .embedded own
    · rintro ⟨⟩
      rfl

theorem resolveRelation?_eq_none {e : Relation} :
    d.resolveRelation? e = none ↔ ∀ m, ¬ d.StandsFor e m := by
  rw [Option.eq_none_iff_forall_ne_some]
  exact forall_congr' fun m => not_congr resolveRelation?_eq_some

theorem selectMethod?_eq_some {p : Purpose} :
    d.selectMethod? p = some m ↔
      ∃ e, ComesFirst (fun e => d.StandsFor e m) (fun e => ∀ m, ¬ d.StandsFor e m)
        (d.relationship p) e := by
  rw [selectMethod?, List.findSome?_eq_some_iff]
  simp only [resolveRelation?_eq_some, resolveRelation?_eq_none]
  constructor
  · rintro ⟨before, e, after, hlist, he, hbefore⟩
    exact ⟨e, before, after, hlist, he, hbefore⟩
  · rintro ⟨e, before, after, hlist, he, hbefore⟩
    exact ⟨before, e, after, hlist, he, hbefore⟩

theorem selectMethod?_eq_none {p : Purpose} :
    d.selectMethod? p = none ↔ ∀ e ∈ d.relationship p, ∀ m, ¬ d.StandsFor e m := by
  rw [selectMethod?, List.findSome?_eq_none_iff]
  simp only [resolveRelation?_eq_none]

end Document

/-! ### The method that signs -/

namespace Bearer

variable {b : Bearer} {o : KeyChoice} {m : Method}

/-- The method that is to sign for a DID. -/
inductive Chosen (b : Bearer) (o : KeyChoice) (m : Method) : Prop where
  /-- The one with the identifier that is asked for. -/
  | named {id : String} (hid : o.methodId = some id) (hm : b.document.Names id m)
  /-- The one with the key that is asked for. -/
  | ofKey {uri : String} (hid : o.methodId = none) (huri : o.keyUri = some uri)
      (hm : ComesFirst (fun m => m.HasUri uri) (fun m => ∃ other, other ≠ uri ∧ m.HasUri other)
        b.document.methodList m)
  /-- The first one that is there for assertions. -/
  | forAssertions {e : Relation} (hid : o.methodId = none) (huri : o.keyUri = none)
      (hm : ComesFirst (fun e => b.document.StandsFor e m)
        (fun e => ∀ m, ¬ b.document.StandsFor e m) (b.document.relationship .assertionMethod) e)
  /-- The first one, if there is none for assertions. -/
  | first (hid : o.methodId = none) (huri : o.keyUri = none)
      (hnone : ∀ e ∈ b.document.relationship .assertionMethod,
        ∀ m, ¬ b.document.StandsFor e m)
      (hm : b.document.methodList.head? = some m)

/-- A method that may sign for the DID: it is listed, or embedded for assertions. -/
def Selectable (b : Bearer) (m : Method) : Prop :=
  m ∈ b.document.methodList ∨ .value m ∈ b.document.relationship .assertionMethod

theorem methodOfKey?_eq_ok {uri : String} {list : List Method} :
    methodOfKey? uri list = .ok (some m) ↔
      ComesFirst (fun m => m.HasUri uri) (fun m => ∃ other, other ≠ uri ∧ m.HasUri other)
        list m := by
  induction list with
  | nil => exact iff_of_false nofun not_comesFirst_nil
  | cons found list ih =>
    rw [methodOfKey?, Outcome.bind_eq_ok, comesFirst_cons, ← ih]
    constructor
    · rintro ⟨key, hkey, h⟩
      by_cases huri : key.uri = uri
      · rw [if_pos huri] at h
        obtain rfl := Option.some.inj (Except.ok.inj h)
        exact Or.inl ⟨rfl, key, hkey, huri⟩
      · rw [if_neg huri] at h
        exact Or.inr ⟨⟨key.uri, huri, key, hkey, rfl⟩, h⟩
    · rintro (⟨rfl, key, hkey, huri⟩ | ⟨⟨other, hother, key, hkey, huri⟩, h⟩)
      · exact ⟨key, hkey, if_pos huri⟩
      · exact ⟨key, hkey, (if_neg (huri ▸ hother)).trans h⟩

/-- **Which method signs.** -/
theorem selectMethod_eq_ok : b.selectMethod o = .ok m ↔ b.Chosen o m := by
  rw [selectMethod]
  cases hid : o.methodId with
  | some id =>
    rw [Outcome.orFail_eq_ok, Document.method?_eq_some]
    constructor
    · exact .named hid
    -- every other choice is made where no identifier is asked for
    · rintro (⟨hid', hm⟩ | ⟨hid', -, -⟩ | ⟨hid', -, -⟩ | ⟨hid', -, -, -⟩)
      · obtain rfl := Option.some.inj (hid.symm.trans hid')
        exact hm
      all_goals cases hid.symm.trans hid'
  | none =>
    cases huri : o.keyUri with
    | some uri =>
      rw [Outcome.bind_eq_ok]
      simp only [Outcome.orFail_eq_ok]
      constructor
      · rintro ⟨_, hm, rfl⟩
        exact .ofKey hid huri (methodOfKey?_eq_ok.mp hm)
      · rintro (⟨hid', -⟩ | ⟨-, huri', hm⟩ | ⟨-, huri', -⟩ | ⟨-, huri', -, -⟩)
        · cases hid.symm.trans hid'
        · obtain rfl := Option.some.inj (huri.symm.trans huri')
          exact ⟨some m, methodOfKey?_eq_ok.mpr hm, rfl⟩
        all_goals cases huri.symm.trans huri'
    | none =>
      rw [Outcome.orFail_eq_ok, Option.or_eq_some_iff, Document.selectMethod?_eq_some,
        Document.selectMethod?_eq_none]
      constructor
      · rintro (⟨e, hm⟩ | ⟨hnone, hm⟩)
        · exact .forAssertions hid huri hm
        · exact .first hid huri hnone hm
      · rintro (⟨hid', -⟩ | ⟨-, huri', -⟩ | ⟨-, -, hm⟩ | ⟨-, -, hnone, hm⟩)
        · cases hid.symm.trans hid'
        · cases huri.symm.trans huri'
        · exact Or.inl ⟨_, hm⟩
        · exact Or.inr ⟨hnone, hm⟩

/-- The method of an identifier or of a key is a listed one. -/
theorem Chosen.mem (h : b.Chosen o m) (ho : o.methodId ≠ none ∨ o.keyUri ≠ none) :
    m ∈ b.document.methodList := by
  cases h with
  | named hid hm => exact hm.mem
  | ofKey hid huri hm => exact hm.mem
  | forAssertions hid huri hm => exact absurd ho (by simp [hid, huri])
  | first hid huri hnone hm => exact absurd ho (by simp [hid, huri])

theorem Chosen.selectable (h : b.Chosen o m) : b.Selectable m := by
  cases h with
  | named hid hm => exact Or.inl hm.mem
  | ofKey hid huri hm => exact Or.inl hm.mem
  | forAssertions hid huri hm =>
    have hentry := hm.mem
    obtain ⟨-, -, -, hstands, -⟩ := hm
    cases hstands with
    | reference hm => exact Or.inl hm.mem
    | embedded => exact Or.inr hentry
  | first hid huri hnone hm => exact Or.inl (List.mem_of_head? hm)

/-- **What a signer is made of**: the method that is chosen, and its key, which is held. -/
theorem signer_eq_ok {keys : KeyStore} {s : Signer} :
    b.signer keys o = .ok s ↔
      ∃ m, b.Chosen o m ∧ m.jwk = .ok s.publicKey ∧ keys.Holds s.publicKey.uri ∧
        Algorithm.ofJwk s.publicKey = .ok s.algorithm ∧ s.keyUri = s.publicKey.uri ∧
        s.methodId = m.id := by
  rw [signer, Outcome.bind_eq_ok]
  simp only [Outcome.bind_eq_ok, ← selectMethod_eq_ok, ← KeyStore.exists_publicKey_iff]
  constructor
  · rintro ⟨m, hm, key, hkey, j, hj, algorithm, halgorithm, h⟩
    obtain rfl := Except.ok.inj h
    exact ⟨m, hm, hkey, ⟨j, hj⟩, halgorithm, rfl, rfl⟩
  · rintro ⟨m, hm, hkey, ⟨j, hj⟩, halgorithm, huri, hid⟩
    refine ⟨m, hm, s.publicKey, hkey, j, hj, s.algorithm, halgorithm, ?_⟩
    rw [← huri, ← hid]
    rfl

end Bearer

/-! ### Own signatures -/

namespace Ed25519

open Edwards25519

/-- The signature of a message verifies under the public key of its seed. -/
def VerifiesOwn (seed message : Bytes) : Prop :=
  ((decompress? (publicKey seed)).map fun key =>
    verify key (publicKey seed) message (sign seed message)) = some .valid

instance (seed message : Bytes) : Decidable (VerifiesOwn seed message) :=
  inferInstanceAs (Decidable (_ = some Verdict.valid))

theorem length_publicKey (seed : Bytes) : (publicKey seed).length = 32 :=
  Bytes.length_ofNatLittle 32 _

theorem length_sign (seed message : Bytes) : (sign seed message).length = 64 := by
  simp [sign, compress]

end Ed25519

namespace Es256k

open Secp256k1

/-- The public key of a secret is read back from its two coordinates, and the signature of a message
verifies under it. -/
def VerifiesOwn (secret : Nat) (message : Bytes) : Prop :=
  ((decode? (4 :: ((publicKey secret).xBytes ++ (publicKey secret).yBytes))).bind fun key =>
    (scalars? (sign secret message)).map (verify key message)) = some true

instance (secret : Nat) (message : Bytes) : Decidable (VerifiesOwn secret message) :=
  inferInstanceAs (Decidable (_ = some true))

end Es256k

namespace Jwk

variable {message signature : Bytes}

/-- When an Ed25519 signature is accepted. -/
theorem verify_ed25519 {k : Okp} {bytes : Bytes} {key : Edwards25519.Point}
    (hcrv : k.crv = "Ed25519") (hx : Base64Url.decode k.x = .ok bytes) (hlen : bytes.length = 32)
    (hkey : Edwards25519.decompress? bytes = some key) (hsignature : signature.length = 64)
    (hvalid : Ed25519.verify key bytes message signature = .valid) :
    (okp k).verify message signature = .ok () := by
  rw [verify, Algorithm.ofJwk, if_pos hcrv]
  change verifyEd25519 k message signature = _
  rw [verifyEd25519, hx, Outcome.ok_bind, if_neg (not_not.mpr hlen)]
  simp only [hkey, hsignature, hvalid]
  rfl

/-- When a secp256k1 signature is accepted. -/
theorem verify_secp256k1 {k : Ec} {x y : Bytes} {key : Secp256k1.Point} {scalars : Nat × Nat}
    (hcrv : k.crv = "secp256k1") (hx : Base64Url.decode k.x = .ok x)
    (hy : Base64Url.decode k.y = .ok y) (hkey : Secp256k1.decode? (4 :: (x ++ y)) = some key)
    (hscalars : Es256k.scalars? signature = some scalars)
    (hvalid : Es256k.verify key message scalars = true) :
    (ec k).verify message signature = .ok () := by
  rw [verify, Algorithm.ofJwk, if_pos hcrv]
  change verifySecp256k1 k message signature = _
  rw [verifySecp256k1, hx, Outcome.ok_bind, hy, Outcome.ok_bind]
  simp only [hkey, hscalars, hvalid]
  rfl

end Jwk

namespace KeyPair

/-- The signature of a message, if the key gives one, verifies on the curve of the key. -/
def VerifiesOwn : KeyPair → Bytes → Prop
  | ed25519 seed, message => Ed25519.VerifiesOwn seed message
  | secp256k1 secret, message => Es256k.VerifiesOwn secret message
  | x25519 _, _ => True

/-- **A key pair signs, or is not for signatures**; and its signatures verify under its public
key. -/
theorem sign_cases (k : KeyPair) (message : Bytes) :
    k.algorithm = .x25519 ∧ k.sign message = fail .signingError "X25519 keys cannot sign" ∨
    ∃ signature, k.sign message = .ok signature ∧
      (k.VerifiesOwn message → k.publicJwk.verify message signature = .ok ()) := by
  cases k with
  | ed25519 seed =>
    refine Or.inr ⟨Ed25519.sign seed message, rfl, fun hown => ?_⟩
    obtain ⟨point, hpoint, hvalid⟩ := Option.map_eq_some_iff.mp hown
    exact Jwk.verify_ed25519 rfl (Base64Url.decode_encode _) (Ed25519.length_publicKey seed) hpoint
      (Ed25519.length_sign seed message) hvalid
  | secp256k1 secret =>
    refine Or.inr ⟨Es256k.sign secret message, rfl, fun hown => ?_⟩
    obtain ⟨point, hpoint, hsigned⟩ := Option.bind_eq_some_iff.mp hown
    obtain ⟨scalars, hscalars, hvalid⟩ := Option.map_eq_some_iff.mp hsigned
    exact Jwk.verify_secp256k1 rfl (Base64Url.decode_encode _) (Base64Url.decode_encode _) hpoint
      hscalars hvalid
  | x25519 secret => exact Or.inl ⟨rfl, rfl⟩

end KeyPair

/-! ### Signers -/

theorem Jwk.uri_withParams (p : Params) (k : Jwk) : (k.withParams p).uri = k.uri :=
  (sameNames_of_canonical (canonical_withParams p k)).uri

theorem Algorithm.ofJwk_canonical (k : Jwk) : ofJwk k.canonical = ofJwk k := by
  cases k <;> rfl

/-- Signatures are checked against the defining members of a key. -/
theorem Jwk.verify_canonical (k : Jwk) (message signature : Bytes) :
    k.canonical.verify message signature = k.verify message signature := by
  rw [verify, verify, Algorithm.ofJwk_canonical]
  cases Algorithm.ofJwk k with
  | error f => rfl
  | ok algorithm => cases algorithm <;> cases k <;> rfl

/-- **What is held under the URI of a key is this key**, or collides with it. -/
theorem KeyStore.Reachable.canonical_eq {keys : KeyStore} (h : keys.Reachable) {j : Jwk}
    {key : KeyPair} (hkey : keys.find j.uri = .ok key) (hj : ¬ j.Collide key.publicJwk) :
    j.canonical = key.publicJwk := by
  rcases Jwk.canonical_eq_or_collide (h.own_uri hkey).symm with heq | hcollide
  · rw [heq, KeyPair.canonical_publicJwk]
  · exact absurd hcollide hj

namespace Bearer

variable {b : Bearer} {o : KeyChoice}

/-- **Signers sign with the key of the document.** The method of a signer is one that may sign for
the DID, and the one that was asked for. The manager holds a key pair under the URI of the key that
the document has for it. Unless the public keys of the two collide, each message is signed, and the
signature verifies under the key in the document if it does on the curve; or else the key is not
for signatures. -/
theorem signer_sound {keys : KeyStore} (hkeys : keys.Reachable) {s : Signer}
    (hs : b.signer keys o = .ok s) :
    ∃ m key, b.Chosen o m ∧ b.Selectable m ∧ m.id = s.methodId ∧ m.jwk = .ok s.publicKey ∧
      s.keyUri = s.publicKey.uri ∧ keys.find s.keyUri = .ok key ∧
      (¬ s.publicKey.Collide key.publicJwk →
        s.algorithm = key.algorithm ∧
        ∀ message,
          (s.algorithm = .x25519 ∧
            ∃ f, s.sign keys message = .error f ∧ f.isCode .signingError = true) ∨
          ∃ signature, s.sign keys message = .ok signature ∧
            (key.VerifiesOwn message → s.publicKey.verify message signature = .ok ())) := by
  obtain ⟨m, hm, hjwk, ⟨key, hkey⟩, halgorithm, huri, hid⟩ := signer_eq_ok.mp hs
  refine ⟨m, key, hm, hm.selectable, hid.symm, hjwk, huri, huri ▸ hkey, fun hcollide => ?_⟩
  -- the document and the manager have the same defining members, and nothing else is looked at
  have hcanonical := hkeys.canonical_eq hkey hcollide
  have hsame : s.algorithm = key.algorithm := by
    rw [← Algorithm.ofJwk_canonical, hcanonical, KeyPair.ofJwk_publicJwk] at halgorithm
    exact (Except.ok.inj halgorithm).symm
  refine ⟨hsame, fun message => ?_⟩
  have hsign : s.sign keys message = key.sign message := by
    rw [Signer.sign, huri]
    exact KeyStore.sign_of_find hkey message
  rw [hsign, hsame]
  rcases key.sign_cases message with ⟨hx25519, hfail⟩ | ⟨signature, hsignature, hverify⟩
  · exact Or.inl ⟨hx25519, _, hfail, rfl⟩
  · refine Or.inr ⟨signature, hsignature, fun hown => ?_⟩
    rw [← Jwk.verify_canonical, hcanonical]
    exact hverify hown

/-- The only key of a manager. -/
def sampleKey : KeyPair := .ed25519 (Seed.ofNat 1)

/-- A manager that holds one key. -/
def sampleKeys : KeyStore := ({} : KeyStore).insert sampleKey

/-- A method with this key, which has a name of its own in the document. -/
def sampleMethod : Method where
  id := "did:example:alice#0"
  type := "JsonWebKey2020"
  controller := "did:example:alice"
  key := .jwk (sampleKey.publicJwk.withParams { kid := some "0" })

/-- The signer of this method. -/
def sampleSigner : Signer where
  keyUri := sampleKey.publicJwk.uri
  methodId := "did:example:alice#0"
  algorithm := .ed25519
  publicKey := sampleKey.publicJwk.withParams { kid := some "0" }

/-- A bearer whose only method is the second one for assertions, where the first one is missing. -/
def sample : Bearer where
  uri := "did:example:alice"
  document :=
    { id := "did:example:alice", methods := some [sampleMethod],
      assertionMethod := some [.text "#gone", .text "#0"] }

theorem reachable_sampleKeys : sampleKeys.Reachable :=
  (KeyStore.reachable_new Seed.ofNat).insert sampleKey

theorem find_sampleKeys : sampleKeys.find sampleKey.publicJwk.uri = .ok sampleKey := by
  rw [sampleKeys, KeyStore.find_insert, if_pos rfl]

theorem signer_sampleMethod (h : b.selectMethod o = .ok sampleMethod) :
    b.signer sampleKeys o = .ok sampleSigner := by
  have huri : sampleSigner.publicKey.uri = sampleSigner.keyUri :=
    Jwk.uri_withParams { kid := some "0" } sampleKey.publicJwk
  have hjwk : sampleMethod.jwk = .ok sampleSigner.publicKey := by rfl
  have hheld : sampleKeys.Holds sampleSigner.publicKey.uri := huri ▸ ⟨sampleKey, find_sampleKeys⟩
  have halgorithm : Algorithm.ofJwk sampleSigner.publicKey = .ok sampleSigner.algorithm := by rfl
  exact signer_eq_ok.mpr
    ⟨sampleMethod, selectMethod_eq_ok.mp h, hjwk, hheld, halgorithm, huri.symm, rfl⟩

theorem signer_sound_sample : ∃ s signature,
    sample.signer sampleKeys {} = .ok s ∧ s.sign sampleKeys [1, 2] = .ok signature ∧
      s.publicKey.verify [1, 2] signature = .ok () := by
  have hs : sample.signer sampleKeys {} = .ok sampleSigner := signer_sampleMethod rfl
  obtain ⟨m, key, -, -, -, -, -, hkey, hsound⟩ := signer_sound reachable_sampleKeys hs
  obtain rfl := Except.ok.inj (find_sampleKeys.symm.trans hkey)
  obtain ⟨-, hsigns⟩ := hsound fun h => h.canonical_ne (by rfl)
  have hown : Ed25519.VerifiesOwn (Seed.ofNat 1) [1, 2] := by decide +kernel
  rcases hsigns [1, 2] with ⟨halgorithm, -⟩ | ⟨signature, hsignature, hverify⟩
  · cases halgorithm
  · exact ⟨sampleSigner, signature, hs, hsignature, hverify hown⟩

end Bearer

end DidMethods
