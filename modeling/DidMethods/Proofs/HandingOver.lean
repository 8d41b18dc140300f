import DidMethods.Proofs.Signing

/-!
# Handing a DID over

A DID is handed over with the private keys that the manager holds for it. These are the keys of the
methods that the document lists, and the two keys that control the DID
(`DidMethods.Bearer.HasUri`); a manager that holds them can give them all, so that there is only one
reason why a DID cannot be handed over: a listed method whose key cannot be expressed
(`DidMethods.Bearer.toPortable_complete`).

Who takes the DID in holds the same key pairs under the same URIs, and nothing else. So whatever
signer the caller names, by a method or by a key, it is there if and only if it was there before,
and signs the same (`DidMethods.Bearer.ofPortable_toPortable`).

Not every signer is named that way. A method that is embedded for assertions can sign although it is
not listed, and its key is left behind; and a key of somebody else that cannot be expressed keeps
everything from being handed over (`DidMethods.Bearer.not_toPortable_complete`).
-/

namespace DidMethods

/-! ### Key pairs of public keys -/

namespace KeyStore

variable {keys : KeyStore}

/-- The key pairs that are held for some public keys. -/
def pairsOf (keys : KeyStore) (list : List Jwk) : List KeyPair :=
  list.filterMap fun k => (keys.find k.uri).toOption

theorem mem_pairsOf {list : List Jwk} {key : KeyPair} :
    key ∈ keys.pairsOf list ↔ ∃ k ∈ list, keys.find k.uri = .ok key := by
  rw [pairsOf, List.mem_filterMap]
  simp only [Outcome.toOption_eq_some]

theorem pairsOf_cons_of_find {k : Jwk} {key : KeyPair} (h : keys.find k.uri = .ok key)
    (list : List Jwk) : keys.pairsOf (k :: list) = key :: keys.pairsOf list := by
  rw [pairsOf, List.filterMap_cons, h]
  rfl

theorem pairsOf_cons_of_not_holds {k : Jwk} (h : ¬ keys.Holds k.uri) (list : List Jwk) :
    keys.pairsOf (k :: list) = keys.pairsOf list := by
  rw [pairsOf, List.filterMap_cons, find_of_not_holds h]
  rfl

/-- **A manager that takes in what another one holds finds the same under its URIs.** -/
theorem find_foldl_insert {pairs : List KeyPair}
    (h : ∀ key ∈ pairs, keys.find key.publicJwk.uri = .ok key) (s : KeyStore) (uri : String) :
    (pairs.foldl insert s).find uri =
      if uri ∈ pairs.map fun key => key.publicJwk.uri then keys.find uri else s.find uri := by
  induction pairs generalizing s with
  | nil => rfl
  | cons key pairs ih =>
    obtain ⟨hkey, hpairs⟩ := List.forall_mem_cons.mp h
    rw [List.foldl_cons, ih hpairs, find_insert, List.map_cons]
    -- a later pair with the same URI does no harm: it is the one that the other manager finds too
    by_cases hmem : uri ∈ pairs.map fun key => key.publicJwk.uri
    · rw [if_pos hmem, if_pos (List.mem_cons_of_mem _ hmem)]
    · rw [if_neg hmem]
      by_cases huri : uri = key.publicJwk.uri
      · rw [if_pos huri, if_pos (huri ▸ List.mem_cons_self), huri, hkey]
      · rw [if_neg huri, if_neg (List.not_mem_cons_of_ne_of_not_mem huri hmem)]

/-- In a manager that has been used, the key pair of a URI is that of every public key with this
URI. -/
theorem Reachable.mem_pairsOf_iff (h : keys.Reachable) {uri : String} {key : KeyPair}
    (hkey : keys.find uri = .ok key) {list : List Jwk} :
    key ∈ keys.pairsOf list ↔ ∃ k ∈ list, k.uri = uri := by
  rw [mem_pairsOf]
  refine exists_congr fun k => and_congr_right fun _ => ⟨fun hfind => ?_, fun huri => ?_⟩
  · rw [← h.own_uri hfind, h.own_uri hkey]
  · rw [huri, hkey]

/-- What a new manager finds once it has taken in the key pairs of some public keys. -/
theorem Reachable.find_foldl_pairsOf (h : keys.Reachable) {list : List Jwk} {uri : String}
    (huri : ∃ k ∈ list, k.uri = uri) (random : Nat → Seed) :
    ((keys.pairsOf list).foldl KeyStore.insert { random }).find uri = keys.find uri := by
  have hown : ∀ key ∈ keys.pairsOf list, keys.find key.publicJwk.uri = .ok key := by
    intro key hkey
    obtain ⟨k, -, hk⟩ := mem_pairsOf.mp hkey
    rw [h.own_uri hk, hk]
  rw [find_foldl_insert hown]
  by_cases hheld : keys.Holds uri
  · obtain ⟨key, hkey⟩ := hheld
    exact if_pos (List.mem_map.mpr ⟨key, (h.mem_pairsOf_iff hkey).mpr huri, h.own_uri hkey⟩)
  · rw [find_of_not_holds hheld]
    exact ite_self _

end KeyStore

namespace Bearer

variable {b : Bearer} {keys : KeyStore} {p : PortableDid}

/-! ### What is handed over -/

/-- A key of the DID has this URI: the one of a listed method, or one of the two that control the
DID. -/
def HasUri (b : Bearer) (uri : String) : Prop :=
  (∃ m ∈ b.document.methodList, m.HasUri uri) ∨
    ∃ key ∈ b.metadata.recoveryKey.toList ++ b.metadata.updateKey.toList, key.uri = uri

/-- The key of a listed method is held. -/
def HeldIn (b : Bearer) (keys : KeyStore) : Prop :=
  ∃ m ∈ b.document.methodList, ∃ uri, m.HasUri uri ∧ keys.Holds uri

theorem publicKeys_eq_ok {list : List Jwk} :
    b.publicKeys = .ok list ↔
      ∃ own, b.document.methodList.mapM Method.jwk = .ok own ∧
        own ++ (b.metadata.recoveryKey.toList ++ b.metadata.updateKey.toList) = list := by
  rw [publicKeys, Outcome.bind_eq_ok]
  refine exists_congr fun own => and_congr_right fun _ => ?_
  rw [List.append_assoc]
  exact ⟨Except.ok.inj, congrArg Except.ok⟩

/-- The URIs of the public keys are those of the DID. -/
theorem exists_uri_iff {list : List Jwk} (h : b.publicKeys = .ok list) {uri : String} :
    (∃ k ∈ list, k.uri = uri) ↔ b.HasUri uri := by
  obtain ⟨own, hown, rfl⟩ := publicKeys_eq_ok.mp h
  have hmem : (∃ k ∈ own, k.uri = uri) ↔ ∃ m ∈ b.document.methodList, m.HasUri uri := by
    constructor
    · rintro ⟨k, hk, huri⟩
      obtain ⟨m, hm, hjwk⟩ := Outcome.exists_of_mem_mapM hown hk
      exact ⟨m, hm, k, hjwk, huri⟩
    · rintro ⟨m, hm, k, hjwk, huri⟩
      obtain ⟨found, hfound, hm⟩ := Outcome.exists_mem_of_mapM hown hm
      obtain rfl := Except.ok.inj (hjwk.symm.trans hm)
      exact ⟨k, hfound, huri⟩
  rw [HasUri, ← hmem]
  simp only [List.mem_append (s := own), or_and_right, exists_or]

/-- **All the keys that are held can be given.** -/
theorem privateKeys_eq (keys : KeyStore) (list : List Jwk) :
    privateKeys keys list = .ok ((keys.pairsOf list).map KeyPair.privateJwk) := by
  induction list with
  | nil => rfl
  | cons k list ih =>
    by_cases hheld : keys.Holds k.uri
    · obtain ⟨key, hkey⟩ := hheld
      have hexport : KeyManager.exportKey keys k.uri = .ok key.privateJwk :=
        KeyStore.exportKey_eq_ok.mpr ⟨key, hkey, rfl⟩
      rw [privateKeys, hexport, ih, KeyStore.pairsOf_cons_of_find hkey]
      rfl
    -- the only failure of this manager, and the one that is passed over
    · have hexport : KeyManager.exportKey keys k.uri =
          fail .keyNotFound s!"no key for {k.uri}" := (KeyStore.fail_of_not_holds hheld).2.1
      rw [privateKeys, hexport, ih, KeyStore.pairsOf_cons_of_not_holds hheld]
      rfl

theorem toPortable_eq (keys : KeyStore) (b : Bearer) :
    b.toPortable keys = b.publicKeys.map fun list =>
      { uri := b.uri, document := b.document, metadata := b.metadata,
        privateKeys := some ((keys.pairsOf list).map KeyPair.privateJwk) } := by
  rw [toPortable]
  cases b.publicKeys with
  | error f => rfl
  | ok list =>
    rw [Outcome.ok_bind, privateKeys_eq]
    rfl

/-! ### What is taken in -/

/-- Private keys are taken in one after the other. -/
theorem forM_importKey (pairs : List KeyPair) (s : KeyStore) :
    ((pairs.map KeyPair.privateJwk).forM fun key =>
      (discard (KeyManager.importKey key) : Action KeyStore PUnit)) s =
      (.ok (), pairs.foldl KeyStore.insert s) := by
  induction pairs generalizing s with
  | nil => rfl
  | cons key pairs ih =>
    have himport : (KeyManager.importKey key.privateJwk : Action KeyStore String) s =
        (.ok key.publicJwk.uri, s.insert key) := KeyStore.importKey_privateJwk s key
    exact (Action.bind_of_ok (Action.discard_of_ok himport)).trans (ih (s.insert key))

/-- Whether the key of a method is held, where all the keys can be expressed. -/
theorem exists_holdsSome {list : List Method} (h : ∀ m ∈ list, ∃ key, m.jwk = .ok key)
    (s : KeyStore) :
    ∃ held, holdsSome s list = .ok held ∧
      (held = true ↔ ∃ m ∈ list, ∃ uri, m.HasUri uri ∧ s.Holds uri) := by
  induction list with
  | nil => exact ⟨false, rfl, by simp⟩
  | cons m list ih =>
    obtain ⟨⟨key, hkey⟩, hlist⟩ := List.forall_mem_cons.mp h
    obtain ⟨held, hheld, hiff⟩ := ih hlist
    have huri : ∀ uri, m.HasUri uri ↔ key.uri = uri := by
      intro uri
      rw [Method.HasUri]
      simp only [hkey, Except.ok.injEq, exists_eq_left']
    rw [holdsSome, hkey, Outcome.ok_bind]
    change ∃ held, (if (s.publicKey key.uri).toBool then _ else _) = _ ∧ _
    by_cases hholds : s.Holds key.uri
    · obtain ⟨j, hj⟩ := KeyStore.exists_publicKey_iff.mpr hholds
      rw [hj]
      exact ⟨true, rfl, iff_of_true rfl
        ⟨m, List.mem_cons_self, key.uri, (huri _).mpr rfl, hholds⟩⟩
    · rw [(KeyStore.fail_of_not_holds hholds).1]
      refine ⟨held, hheld, ?_⟩
      rw [hiff, List.exists_mem_cons_iff]
      simp only [huri, exists_eq_left', hholds, false_or]

/-- What becomes of a DID that comes with private keys that were exported. -/
theorem ofPortable_apply {pairs : List KeyPair}
    (hp : p.privateKeys = some (pairs.map KeyPair.privateJwk)) {s : KeyStore} {held : Bool}
    (hheld : holdsSome (pairs.foldl KeyStore.insert s) p.document.methodList = .ok held) :
    (ofPortable p : Action KeyStore Bearer) s =
      (if held then .ok { uri := p.uri, document := p.document, metadata := p.metadata }
        else fail .keyNotFound s!"key manager holds no key for {p.uri}",
        pairs.foldl KeyStore.insert s) := by
  have hquery : (Action.query fun keys => holdsSome keys p.document.methodList)
      (pairs.foldl KeyStore.insert s) = (.ok held, pairs.foldl KeyStore.insert s) := by
    rw [Action.query, hheld]
  rw [ofPortable, hp, Option.getD_some, Action.bind_of_ok (forM_importKey pairs s),
    Action.bind_of_ok hquery]
  cases held <;> rfl

/-! ### Completeness -/

/-- There is only one thing that can be wrong with the public keys. -/
theorem exists_of_publicKeys_eq_error {f : Fault} (h : b.publicKeys = .error f) :
    ∃ m ∈ b.document.methodList, m.jwk = .error f := by
  rw [publicKeys] at h
  cases hown : b.document.methodList.mapM Method.jwk with
  | ok own =>
    rw [hown] at h
    cases h
  | error f' =>
    rw [hown] at h
    obtain rfl := Except.error.inj h
    exact Outcome.exists_of_mapM_eq_error hown

/-- The public keys are there if every listed method has one that can be expressed. -/
theorem exists_publicKeys_iff :
    (∃ list, b.publicKeys = .ok list) ↔
      ∀ m ∈ b.document.methodList, ∃ key, m.jwk = .ok key := by
  constructor
  · rintro ⟨list, hlist⟩ m hm
    obtain ⟨own, hown, -⟩ := publicKeys_eq_ok.mp hlist
    obtain ⟨key, -, hkey⟩ := Outcome.exists_mem_of_mapM hown hm
    exact ⟨key, hkey⟩
  · intro h
    cases hlist : b.publicKeys with
    | ok list => exact ⟨list, rfl⟩
    | error f =>
      obtain ⟨m, hm, hfail⟩ := exists_of_publicKeys_eq_error hlist
      obtain ⟨key, hkey⟩ := h m hm
      cases hfail.symm.trans hkey

theorem exists_jwk_of_toPortable (h : b.toPortable keys = .ok p) :
    ∀ m ∈ b.document.methodList, ∃ key, m.jwk = .ok key := by
  rw [toPortable_eq, Outcome.map_eq_ok] at h
  obtain ⟨list, hlist, -⟩ := h
  exact exists_publicKeys_iff.mp ⟨list, hlist⟩

/-- **A DID that can be handed over goes with all its keys that are held.** If the keys of all
listed methods can be expressed, it can be handed over, and the private keys that go with it are
those that are held under a URI of the DID. Otherwise the failure is that of a listed method. -/
theorem toPortable_complete (hkeys : keys.Reachable) (b : Bearer) :
    ((∀ m ∈ b.document.methodList, ∃ key, m.jwk = .ok key) →
      ∃ secrets, b.toPortable keys = .ok
          { uri := b.uri, document := b.document, metadata := b.metadata,
            privateKeys := some secrets } ∧
        (∀ uri secret, keys.exportKey uri = .ok secret → (secret ∈ secrets ↔ b.HasUri uri)) ∧
        ∀ secret ∈ secrets, ∃ uri, b.HasUri uri ∧ keys.exportKey uri = .ok secret) ∧
    ∀ f, b.toPortable keys = .error f → ∃ m ∈ b.document.methodList, m.jwk = .error f := by
  refine ⟨fun h => ?_, fun f hf => ?_⟩
  · obtain ⟨list, hlist⟩ := exists_publicKeys_iff.mpr h
    refine ⟨(keys.pairsOf list).map KeyPair.privateJwk, ?_, fun uri secret hsecret => ?_,
      fun secret hsecret => ?_⟩
    · rw [toPortable_eq, hlist]
      rfl
    · obtain ⟨key, hkey, rfl⟩ := KeyStore.exportKey_eq_ok.mp hsecret
      rw [List.mem_map_of_injective KeyPair.privateJwk_injective, hkeys.mem_pairsOf_iff hkey,
        exists_uri_iff hlist]
    · obtain ⟨key, hkey, rfl⟩ := List.mem_map.mp hsecret
      obtain ⟨k, hk, hfind⟩ := KeyStore.mem_pairsOf.mp hkey
      exact ⟨k.uri, (exists_uri_iff hlist).mp ⟨k, hk, rfl⟩,
        KeyStore.exportKey_eq_ok.mpr ⟨key, hfind, rfl⟩⟩
  · rw [toPortable_eq] at hf
    cases hlist : b.publicKeys with
    | ok list =>
      rw [hlist] at hf
      cases hf
    | error f' =>
      rw [hlist] at hf
      obtain rfl := Except.error.inj hf
      exact exists_of_publicKeys_eq_error hlist

theorem toPortable_complete_sample : ∃ p secrets,
    sample.toPortable sampleKeys = .ok p ∧ p.privateKeys = some secrets ∧
      sampleKey.privateJwk ∈ secrets := by
  obtain ⟨hcomplete, -⟩ := toPortable_complete reachable_sampleKeys sample
  obtain ⟨secrets, hp, hsecrets, -⟩ := hcomplete fun m hm => by
    obtain rfl := List.mem_singleton.mp hm
    exact ⟨_, rfl⟩
  refine ⟨_, secrets, hp, rfl, (hsecrets sampleKey.publicJwk.uri _ ?_).mpr ?_⟩
  · exact KeyStore.exportKey_eq_ok.mpr ⟨sampleKey, find_sampleKeys, rfl⟩
  · exact Or.inl ⟨sampleMethod, List.mem_singleton_self _, _, rfl, Jwk.uri_withParams _ _⟩

/-- A method of somebody else, with a key on a curve that is not supported. -/
def foreignMethod : Method where
  id := "did:example:bob#0"
  type := "Multikey"
  controller := "did:example:bob"
  key := .multibase "zDnaerDaTF5BXEavCrfRZEk316dpbLsfPDZ3WJ5hRTPFU2169"

/-- A bearer whose method is not listed, but embedded for assertions. -/
def embeddingSample : Bearer where
  uri := "did:example:alice"
  document := { id := "did:example:alice", assertionMethod := some [.value sampleMethod] }

/-- A bearer that lists a method of somebody else besides its own. -/
def foreignSample : Bearer where
  uri := "did:example:alice"
  document := { id := "did:example:alice", methods := some [sampleMethod, foreignMethod] }

theorem jwk_foreignMethod (key : Jwk) : foreignMethod.jwk ≠ .ok key := by
  have hfail : foreignMethod.jwk.toBool = false := by decide +kernel
  intro h
  rw [h] at hfail
  cases hfail

/-- **Not every key that signs is handed over.** Either bearer has a signer, whose key is held and
can be exported. The one is handed over without it, the other cannot be handed over. -/
theorem not_toPortable_complete :
    sampleKeys.Reachable ∧
      sampleKeys.exportKey sampleSigner.keyUri = .ok sampleKey.privateJwk ∧
      (embeddingSample.signer sampleKeys {} = .ok sampleSigner ∧
        ∃ p, embeddingSample.toPortable sampleKeys = .ok p ∧ p.privateKeys = some []) ∧
      foreignSample.signer sampleKeys {} = .ok sampleSigner ∧
        ∃ f, foreignSample.toPortable sampleKeys = .error f := by
  refine ⟨reachable_sampleKeys,
    KeyStore.exportKey_eq_ok.mpr ⟨sampleKey, find_sampleKeys, rfl⟩,
    ⟨signer_sampleMethod rfl, ?_⟩, signer_sampleMethod rfl, ?_⟩
  · rw [toPortable_eq]
    exact ⟨_, rfl, rfl⟩
  · cases hp : foreignSample.toPortable sampleKeys with
    | error f => exact ⟨f, rfl⟩
    | ok p =>
      obtain ⟨key, hkey⟩ := exists_jwk_of_toPortable hp foreignMethod
        (List.mem_cons_of_mem _ List.mem_cons_self)
      exact absurd hkey (jwk_foreignMethod key)

/-! ### The way back -/

/-- A signer depends on no other key than the one of its method. -/
theorem signer_congr {keys' : KeyStore} {o : KeyChoice}
    (h : ∀ m key, b.Chosen o m → m.jwk = .ok key → keys'.find key.uri = keys.find key.uri) :
    b.signer keys' o = b.signer keys o := by
  rw [signer, signer]
  cases hm : b.selectMethod o with
  | error f => rfl
  | ok m =>
    rw [Outcome.ok_bind, Outcome.ok_bind]
    cases hkey : m.jwk with
    | error f => rfl
    | ok key =>
      have hpublic : keys'.publicKey key.uri = keys.publicKey key.uri := by
        rw [KeyStore.publicKey, h m key (selectMethod_eq_ok.mp hm) hkey, KeyStore.publicKey]
      rw [Outcome.ok_bind, Outcome.ok_bind]
      change keys'.publicKey key.uri >>= _ = keys.publicKey key.uri >>= _
      rw [hpublic]

/-- **Signers survive being handed over.** A new manager can take in a DID that was handed over if
and only if the key of a listed method was held. It is the same DID then, and every signer that is
named by its method or its key is there if and only if it was there before; it is the same one and
gives the same signatures. -/
theorem ofPortable_toPortable (hkeys : keys.Reachable) (hp : b.toPortable keys = .ok p)
    (random : Nat → Seed) :
    ∃ result keys', (ofPortable p : Action KeyStore Bearer) { random } = (result, keys') ∧
      (b.HeldIn keys → result = .ok b ∧
        ∀ o, o.methodId ≠ none ∨ o.keyUri ≠ none →
          b.signer keys' o = b.signer keys o ∧
          ∀ s, b.signer keys o = .ok s → ∀ message, s.sign keys' message = s.sign keys message) ∧
      (¬ b.HeldIn keys → ∃ f, result = .error f ∧ f.isCode .keyNotFound = true) := by
  rw [toPortable_eq, Outcome.map_eq_ok] at hp
  obtain ⟨list, hlist, rfl⟩ := hp
  obtain ⟨keys', hkeys'⟩ :
      ∃ keys', (keys.pairsOf list).foldl KeyStore.insert { random } = keys' := ⟨_, rfl⟩
  -- both managers find the same for every listed method, which is all that a named signer needs
  have hfind : ∀ m ∈ b.document.methodList, ∀ uri, m.HasUri uri →
      keys'.find uri = keys.find uri := by
    intro m hm uri huri
    rw [← hkeys']
    exact hkeys.find_foldl_pairsOf ((exists_uri_iff hlist).mpr (Or.inl ⟨m, hm, huri⟩)) random
  obtain ⟨held, hheld, hiff⟩ :=
    exists_holdsSome (exists_publicKeys_iff.mp ⟨list, hlist⟩) keys'
  have hheldIn : held = true ↔ b.HeldIn keys := by
    rw [hiff, HeldIn]
    refine exists_congr fun m => and_congr_right fun hm => exists_congr fun uri =>
      and_congr_right fun huri => ?_
    rw [KeyStore.Holds, hfind m hm uri huri, KeyStore.Holds]
  subst hkeys'
  refine ⟨_, _, ofPortable_apply rfl hheld, fun hyes => ?_, fun hno => ?_⟩
  · rw [if_pos (hheldIn.mpr hyes)]
    refine ⟨rfl, fun o ho => ?_⟩
    have hsame : ∀ m key, b.Chosen o m → m.jwk = .ok key → _ :=
      fun m key hm hkey => hfind m (hm.mem ho) key.uri ⟨key, hkey, rfl⟩
    refine ⟨signer_congr hsame, fun s hs message => ?_⟩
    obtain ⟨m, hm, hkey, -, -, huri, -⟩ := signer_eq_ok.mp hs
    change KeyStore.sign _ s.keyUri message = keys.sign s.keyUri message
    rw [KeyStore.sign, huri, hsame m s.publicKey hm hkey, KeyStore.sign]
  · rw [if_neg fun h => hno (hheldIn.mp h)]
    exact ⟨_, rfl, rfl⟩

theorem ofPortable_toPortable_sample : ∃ p keys' s,
    sample.toPortable sampleKeys = .ok p ∧
      (ofPortable p : Action KeyStore Bearer) {} = (.ok sample, keys') ∧
      sample.signer keys' { methodId := some "#0" } = .ok s ∧
      s.sign keys' [1, 2] = s.sign sampleKeys [1, 2] := by
  have hp : ∃ p, sample.toPortable sampleKeys = .ok p := by
    rw [toPortable_eq]
    exact ⟨_, rfl⟩
  obtain ⟨p, hp⟩ := hp
  have hs : sample.signer sampleKeys { methodId := some "#0" } = .ok sampleSigner :=
    signer_sampleMethod rfl
  have hheld : sample.HeldIn sampleKeys :=
    ⟨sampleMethod, List.mem_singleton_self _, sampleKey.publicJwk.uri,
      ⟨_, rfl, Jwk.uri_withParams _ _⟩, sampleKey, find_sampleKeys⟩
  obtain ⟨_, keys', hresult, hyes, -⟩ :=
    ofPortable_toPortable reachable_sampleKeys hp Seed.ofNat
  obtain ⟨rfl, hsigners⟩ := hyes hheld
  obtain ⟨hsame, hsigns⟩ := hsigners { methodId := some "#0" } (Or.inl nofun)
  exact ⟨p, keys', sampleSigner, hp, hresult, hsame.trans hs, hsigns sampleSigner hs [1, 2]⟩

end Bearer

end DidMethods
