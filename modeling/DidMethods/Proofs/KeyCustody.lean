import DidMethods.Key.Manager
import DidMethods.Proofs.KeyPair
import DidMethods.Proofs.Lookup

/-!
# Keys in the hands of a manager

A manager that keeps its keys in memory is asked for one thing after the other
(`DidMethods.KeyStore.Request`), by callers who may each have a handle of their own on it
(`DidMethods.Vault`). All that a request can do is to put a key under the URI of its public key
(`DidMethods.KeyStore.serve_cases`), so that every key is held under its own URI, whatever the
private key that came in said of itself (`DidMethods.Keeper.Sound.serve`). Nothing is ever taken
away.

From this it follows that what is exported is what was held, and that it is held again, under the
same URI, by whoever imports it (`DidMethods.Vault.held_keys`). A URI could come to stand for
another key only if two public keys had one thumbprint (`DidMethods.Jwk.Collide`).
-/

namespace DidMethods

namespace KeyStore

variable {s : KeyStore} {uri : String} {key : KeyPair}

/-! ### Finding keys -/

/-- **A key that is put is found under its own URI**, and under no other. -/
theorem find_insert (s : KeyStore) (key : KeyPair) (uri : String) :
    (s.insert key).find uri = if uri = key.publicJwk.uri then .ok key else s.find uri := by
  by_cases h : uri = key.publicJwk.uri
  · have hself : (uri == key.publicJwk.uri) = true := beq_iff_eq.mpr h
    simp only [find, insert, List.lookup_cons, hself, if_pos h]
    rfl
  · have hother : (uri == key.publicJwk.uri) = false := beq_false_of_ne h
    simp only [find, insert, List.lookup_cons, hother, lookup_filter_ne h, if_neg h]

/-- A key is held under this URI. -/
def Holds (s : KeyStore) (uri : String) : Prop :=
  ∃ key, s.find uri = .ok key

theorem find_of_not_holds (h : ¬ s.Holds uri) :
    s.find uri = fail .keyNotFound s!"no key for {uri}" := by
  rw [find]
  cases hkey : s.held.lookup uri with
  | none => rfl
  | some key => exact absurd ⟨key, by rw [find, hkey]; rfl⟩ h

/-- **Where no key is held, everything fails**, because there is no such key. -/
theorem fail_of_not_holds (h : ¬ s.Holds uri) :
    s.publicKey uri = fail .keyNotFound s!"no key for {uri}" ∧
      s.exportKey uri = fail .keyNotFound s!"no key for {uri}" ∧
      ∀ message, s.sign uri message = fail .keyNotFound s!"no key for {uri}" := by
  have hfind := find_of_not_holds h
  refine ⟨?_, ?_, fun message => ?_⟩
  · rw [publicKey, hfind]
    rfl
  · rw [exportKey, hfind]
    rfl
  · rw [sign, hfind]
    rfl

theorem holds_insert : (s.insert key).Holds uri ↔ uri = key.publicJwk.uri ∨ s.Holds uri := by
  rw [Holds, find_insert]
  by_cases h : uri = key.publicJwk.uri
  · simp [h]
  · simp [h, Holds]

theorem publicKey_eq_ok {j : Jwk} :
    s.publicKey uri = .ok j ↔ ∃ key, s.find uri = .ok key ∧ key.publicJwk = j :=
  Outcome.map_eq_ok

theorem exportKey_eq_ok {j : Jwk} :
    s.exportKey uri = .ok j ↔ ∃ key, s.find uri = .ok key ∧ key.privateJwk = j :=
  Outcome.map_eq_ok

/-- A URI has a public key exactly if a key is held under it. -/
theorem exists_publicKey_iff : (∃ j, s.publicKey uri = .ok j) ↔ s.Holds uri := by
  constructor
  · rintro ⟨j, hj⟩
    obtain ⟨key, hkey, -⟩ := publicKey_eq_ok.mp hj
    exact ⟨key, hkey⟩
  · rintro ⟨key, hkey⟩
    exact ⟨key.publicJwk, publicKey_eq_ok.mpr ⟨key, hkey, rfl⟩⟩

/-- What a key that is held signs is what the key pair signs. -/
theorem sign_of_find (h : s.find uri = .ok key) (message : Bytes) :
    s.sign uri message = key.sign message := by
  rw [sign, h, Outcome.ok_bind]

/-- A private key that can be read is put under the URI of its own public key, whatever public key
it comes with. -/
theorem importKey_of_importable (s : KeyStore) {jwk : Jwk} (h : importable jwk = .ok key) :
    s.importKey jwk = (.ok key.publicJwk.uri, s.insert key) := by
  rw [importKey, h]

/-- **A private key that was exported can be imported everywhere**, and the key pair is held. -/
theorem importKey_privateJwk (s : KeyStore) (key : KeyPair) :
    s.importKey key.privateJwk = (.ok key.publicJwk.uri, s.insert key) := by
  refine s.importKey_of_importable ?_
  rw [importable, KeyPair.isPrivate_privateJwk, if_pos rfl, KeyPair.ofJwk_privateJwk]

/-! ### Requests -/

/-- What a manager is asked for. -/
inductive Request where
  /-- To make a key. -/
  | generateKey (algorithm : Algorithm)
  /-- To take in a private key. -/
  | importKey (jwk : Jwk)
  /-- For the public key of a URI. -/
  | publicKey (uri : String)
  /-- For a signature by the key of a URI. -/
  | sign (uri : String) (message : Bytes)
  /-- For the private key of a URI. -/
  | exportKey (uri : String)

/-- What a manager answers. -/
inductive Reply where
  /-- The URI of a key that is held from now on. -/
  | held (uri : String)
  /-- A public or private key. -/
  | key (jwk : Jwk)
  /-- A signature. -/
  | signature (bytes : Bytes)

/-- What a manager does when it is asked. -/
def serve (s : KeyStore) : Request → Outcome Reply × KeyStore
  | .generateKey algorithm => let (uri, s) := s.generate algorithm; (.ok (.held uri), s)
  | .importKey jwk => let (uri, s) := s.importKey jwk; (uri.map .held, s)
  | .publicKey uri => ((s.publicKey uri).map .key, s)
  | .sign uri message => ((s.sign uri message).map .signature, s)
  | .exportKey uri => ((s.exportKey uri).map .key, s)

/-- **All that a manager can do is to put one more key.** If it does not, nothing changes. -/
theorem serve_cases (s : KeyStore) (r : Request) :
    (∃ key, (s.serve r).1 = .ok (.held key.publicJwk.uri) ∧
      ∀ uri, (s.serve r).2.find uri = (s.insert key).find uri) ∨
    (∀ uri, (s.serve r).1 ≠ .ok (.held uri)) ∧ (s.serve r).2 = s := by
  have hquery : ∀ {α : Type} {reply : α → Reply} {o : Outcome α}, (∀ a uri, reply a ≠ .held uri) →
      ∀ uri, o.map reply ≠ .ok (.held uri) := by
    intro α reply o hreply uri h
    obtain ⟨a, -, ha⟩ := Outcome.map_eq_ok.mp h
    exact hreply a uri ha
  cases r with
  | generateKey algorithm =>
    exact Or.inl ⟨KeyPair.draw algorithm (s.random s.drawn), rfl, fun _ => rfl⟩
  | importKey jwk =>
    rw [serve, importKey]
    cases importable jwk with
    | ok key => exact Or.inl ⟨key, rfl, fun _ => rfl⟩
    | error f => exact Or.inr ⟨fun _ => nofun, rfl⟩
  | publicKey uri => exact Or.inr ⟨hquery fun _ _ => nofun, rfl⟩
  | sign uri message => exact Or.inr ⟨hquery fun _ _ => nofun, rfl⟩
  | exportKey uri => exact Or.inr ⟨hquery fun _ _ => nofun, rfl⟩

/-- A request that fails changes nothing. -/
theorem serve_of_error {r : Request} {f : Fault} (h : (s.serve r).1 = .error f) :
    (s.serve r).2 = s := by
  rcases s.serve_cases r with ⟨key, hreply, -⟩ | ⟨-, hsame⟩
  · rw [hreply] at h
    cases h
  · exact hsame

end KeyStore

/-! ### One manager -/

/-- A manager, and the URIs that it has given to its callers. -/
structure Keeper where
  /-- What it holds. -/
  store : KeyStore
  /-- The URIs that it has given for keys that it made or took in. -/
  given : List String := []

namespace Keeper

open KeyStore (Request Reply)

/-- The URIs that a reply gives. -/
def urisOf : Outcome Reply → List String
  | .ok (.held uri) => [uri]
  | _ => []

/-- A manager after it has been asked. -/
def serve (m : Keeper) (r : Request) : Keeper :=
  let (reply, store) := m.store.serve r
  { store, given := urisOf reply ++ m.given }

/-- Every key is held under its own URI, and the URIs are the ones that were given. -/
structure Sound (m : Keeper) : Prop where
  /-- The URI of a key is that of its public key. -/
  own_uri : ∀ uri key, m.store.find uri = .ok key → key.publicJwk.uri = uri
  /-- A URI was given exactly if a key is held under it. -/
  mem_given : ∀ uri, uri ∈ m.given ↔ m.store.Holds uri

variable {m : Keeper}

theorem Sound.new (random : Nat → Seed) : Sound { store := { random } } where
  own_uri _ _ := nofun
  mem_given _ := ⟨nofun, fun ⟨_, h⟩ => by cases h⟩

/-- What a request does to a manager: it gives the URI of one more key, or nothing changes. -/
theorem serve_cases (m : Keeper) (r : Request) :
    (∃ key, (∀ uri, (m.serve r).store.find uri = (m.store.insert key).find uri) ∧
      (m.serve r).given = key.publicJwk.uri :: m.given) ∨
    m.serve r = m := by
  rcases m.store.serve_cases r with ⟨key, hreply, hfind⟩ | ⟨hreply, hsame⟩
  · refine Or.inl ⟨key, hfind, ?_⟩
    rw [serve]
    dsimp only
    rw [hreply]
    rfl
  · refine Or.inr ?_
    have hnone : urisOf (m.store.serve r).1 = [] := by
      cases hr : (m.store.serve r).1 with
      | error f => rfl
      | ok reply =>
        cases reply with
        | held uri => exact absurd hr (hreply uri)
        | _ => rfl
    rw [serve]
    dsimp only
    rw [hsame, hnone]
    rfl

/-- **What was exported is held again by whoever imports it**, under the same URI. -/
theorem Sound.exists_importKey (h : m.Sound) {uri : String} {key : KeyPair}
    (hkey : m.store.find uri = .ok key) (other : KeyStore) :
    ∃ other', other.importKey key.privateJwk = (.ok uri, other') ∧ other'.find uri = .ok key := by
  have huri := h.own_uri uri key hkey
  refine ⟨other.insert key, huri ▸ KeyStore.importKey_privateJwk other key, ?_⟩
  rw [KeyStore.find_insert, if_pos huri.symm]

/-- Two sound managers hold the same public key under a URI, unless their keys collide. -/
theorem Sound.eq_or_collide {m' : Keeper} (h : m.Sound) (h' : m'.Sound) {uri : String}
    {key key' : KeyPair} (hkey : m.store.find uri = .ok key)
    (hkey' : m'.store.find uri = .ok key') :
    key'.publicJwk = key.publicJwk ∨ key'.publicJwk.Collide key.publicJwk := by
  have huri : key'.publicJwk.uri = key.publicJwk.uri :=
    (h'.own_uri uri key' hkey').trans (h.own_uri uri key hkey).symm
  have hcanonical := Jwk.canonical_eq_or_collide huri
  rwa [KeyPair.canonical_publicJwk, KeyPair.canonical_publicJwk] at hcanonical

/-- **No request breaks anything.** -/
theorem Sound.serve (h : m.Sound) (r : Request) : (m.serve r).Sound := by
  rcases m.serve_cases r with ⟨key, hfind, hgiven⟩ | hsame
  · refine ⟨fun uri found hfound => ?_, fun uri => ?_⟩
    · rw [hfind, KeyStore.find_insert] at hfound
      split at hfound
      · next huri =>
        obtain rfl := Except.ok.inj hfound
        exact huri.symm
      · exact h.own_uri uri found hfound
    · rw [hgiven, List.mem_cons, h.mem_given, ← KeyStore.holds_insert, KeyStore.Holds,
        KeyStore.Holds]
      simp only [hfind]
  · rw [hsame]
    exact h

/-- **No request takes a key away.** -/
theorem holds_serve {uri : String} (h : m.store.Holds uri) (r : Request) :
    (m.serve r).store.Holds uri := by
  rcases m.serve_cases r with ⟨key, hfind, -⟩ | hsame
  · obtain ⟨found, hfound⟩ := KeyStore.holds_insert.mpr (Or.inr h)
    exact ⟨found, (hfind uri).trans hfound⟩
  · rw [hsame]
    exact h

theorem holds_foldl {uri : String} (h : m.store.Holds uri) (requests : List Request) :
    (requests.foldl serve m).store.Holds uri := by
  induction requests generalizing m with
  | nil => exact h
  | cons r requests ih => exact ih (holds_serve h r)

end Keeper

/-! ### Managers and handles -/

/-- Managers, and handles on them. There can be any number of handles on one manager. -/
structure Vault where
  /-- The managers. -/
  keepers : List Keeper := []
  /-- For each handle the place of its manager. -/
  handles : List Nat := []

namespace Vault

open KeyStore (Request)

/-- What can happen to managers and handles. -/
inductive Event where
  /-- A manager is made, and a handle on it. Its keys will be drawn from these seeds. -/
  | create (random : Nat → Seed)
  /-- A handle is made on the manager of another handle. -/
  | share (handle : Nat)
  /-- A manager is asked for something through a handle. -/
  | call (handle : Nat) (request : Request)

/-- The manager of a handle. -/
def keeper? (v : Vault) (handle : Nat) : Option Keeper :=
  v.handles[handle]?.bind fun i => v.keepers[i]?

/-- What becomes of managers and handles by an event. -/
def happen (v : Vault) : Event → Vault
  | .create random =>
    { keepers := v.keepers ++ [{ store := { random } }],
      handles := v.handles ++ [v.keepers.length] }
  | .share handle => { v with handles := v.handles ++ v.handles[handle]?.toList }
  | .call handle request =>
    match v.handles[handle]? with
    | some i => { v with keepers := v.keepers.modify i (Keeper.serve · request) }
    | none => v

/-- What becomes of managers and handles by some events, one after the other. -/
def run (v : Vault) (events : List Event) : Vault :=
  events.foldl happen v

variable {v : Vault} {handle : Nat} {m : Keeper}

/-! ### What no event breaks -/

/-- Every manager is sound. -/
def Sound (v : Vault) : Prop :=
  ∀ m ∈ v.keepers, m.Sound

theorem Sound.empty : ({} : Vault).Sound :=
  fun _ h => absurd h List.not_mem_nil

theorem Sound.of_keeper? (h : v.Sound) (hm : v.keeper? handle = some m) : m.Sound := by
  obtain ⟨i, -, hi⟩ := Option.bind_eq_some_iff.mp hm
  exact h m (List.mem_of_getElem? hi)

theorem eq_or_eq_of_mem_modify {α : Type} {l : List α} {i : Nat} {f : α → α} {a : α}
    (h : a ∈ l.modify i f) : ∃ b ∈ l, a = b ∨ a = f b := by
  obtain ⟨j, hj⟩ := List.mem_iff_getElem?.mp h
  rw [List.getElem?_modify] at hj
  obtain ⟨b, hb, rfl⟩ := Option.map_eq_some_iff.mp hj
  refine ⟨b, List.mem_of_getElem? hb, ?_⟩
  by_cases hij : i = j
  · exact Or.inr (if_pos hij)
  · exact Or.inl (if_neg hij)

/-- **No event breaks anything**, through whatever handle a manager is asked. -/
theorem Sound.happen (h : v.Sound) (e : Event) : (v.happen e).Sound := by
  cases e with
  | create random => exact List.forall_mem_append.mpr ⟨h, by simpa using Keeper.Sound.new random⟩
  | share handle => exact h
  | call handle request =>
    rw [Vault.happen]
    cases v.handles[handle]? with
    | none => exact h
    | some i =>
      intro m hm
      obtain ⟨before, hbefore, rfl | rfl⟩ := eq_or_eq_of_mem_modify hm
      · exact h m hbefore
      · exact (h before hbefore).serve request

/-- **No run breaks anything.** -/
theorem Sound.run (h : v.Sound) (events : List Event) : (v.run events).Sound := by
  induction events generalizing v with
  | nil => exact h
  | cons e events ih => exact ih (h.happen e)

/-! ### What becomes of a manager -/

/-- By an event, a manager is at most asked once. -/
theorem keeper?_happen (hm : v.keeper? handle = some m) (e : Event) :
    ∃ requests : List Request,
      (v.happen e).keeper? handle = some (requests.foldl Keeper.serve m) := by
  -- managers and handles are only ever added at the end, so that the place of a manager stays
  obtain ⟨i, hi, hmi⟩ := Option.bind_eq_some_iff.mp hm
  have hhandle : handle < v.handles.length := (List.getElem?_eq_some_iff.mp hi).1
  have hplace : i < v.keepers.length := (List.getElem?_eq_some_iff.mp hmi).1
  cases e with
  | create random =>
    refine ⟨[], ?_⟩
    rw [keeper?, happen, List.getElem?_append_left hhandle, hi, Option.bind_some,
      List.getElem?_append_left hplace, hmi]
    rfl
  | share other =>
    refine ⟨[], ?_⟩
    rw [keeper?, happen, List.getElem?_append_left hhandle, hi]
    exact hmi
  | call other request =>
    rw [happen]
    cases v.handles[other]? with
    | none => exact ⟨[], hm⟩
    | some j =>
      by_cases hij : j = i
      · refine ⟨[request], ?_⟩
        rw [keeper?, hi, Option.bind_some, List.getElem?_modify, hmi]
        exact congrArg some (if_pos hij)
      · refine ⟨[], ?_⟩
        rw [keeper?, hi, Option.bind_some, List.getElem?_modify, hmi]
        exact congrArg some (if_neg hij)

/-- **A manager is what it was asked to be**, through whatever handles. -/
theorem keeper?_run (hm : v.keeper? handle = some m) (events : List Event) :
    ∃ requests : List Request,
      (v.run events).keeper? handle = some (requests.foldl Keeper.serve m) := by
  induction events generalizing v m with
  | nil => exact ⟨[], hm⟩
  | cons e events ih =>
    obtain ⟨first, hfirst⟩ := keeper?_happen hm e
    obtain ⟨later, hlater⟩ := ih hfirst
    refine ⟨first ++ later, ?_⟩
    rw [List.foldl_append]
    exact hlater

/-- A manager that is asked through a handle is the manager of this handle. -/
theorem keeper?_call (hm : v.keeper? handle = some m) (r : Request) :
    (v.happen (.call handle r)).keeper? handle = some (m.serve r) := by
  obtain ⟨i, hi, hmi⟩ := Option.bind_eq_some_iff.mp hm
  rw [happen, hi, keeper?, hi, Option.bind_some, List.getElem?_modify, hmi]
  exact congrArg some (if_pos rfl)

theorem handles_happen (v : Vault) (e : Event) : v.handles <+: (v.happen e).handles := by
  cases e with
  | create random => exact List.prefix_append _ _
  | share handle => exact List.prefix_append _ _
  | call handle request =>
    rw [happen]
    cases v.handles[handle]? <;> exact List.prefix_rfl

theorem handles_run (v : Vault) (events : List Event) : v.handles <+: (v.run events).handles := by
  induction events generalizing v with
  | nil => exact List.prefix_rfl
  | cons e events ih => exact (handles_happen v e).trans (ih (v.happen e))

/-- **A handle that was made from another one stays on the same keys**, whatever the manager is
asked through either of them. -/
theorem keeper?_share (h : handle < v.handles.length) (events : List Event) :
    ((v.happen (.share handle)).run events).keeper? v.handles.length =
      ((v.happen (.share handle)).run events).keeper? handle := by
  obtain ⟨more, hmore⟩ := handles_run (v.happen (.share handle)) events
  have hshare : (v.happen (.share handle)).handles = v.handles ++ [v.handles[handle]] := by
    rw [happen, List.getElem?_eq_getElem h]
    rfl
  rw [keeper?, keeper?, ← hmore, hshare, List.append_assoc, List.getElem?_append_left h,
    List.getElem?_append_right (Nat.le_refl _), Nat.sub_self, List.getElem?_eq_getElem h]
  rfl

end Vault

/-! ### Managers that have been used -/

/-- The keys that a manager can hold: it started with none, and was asked for one thing after the
other since. -/
def KeyStore.Reachable (s : KeyStore) : Prop :=
  ∃ events handle m, (Vault.run {} events).keeper? handle = some m ∧ m.store = s

/-- In a manager that has been used, every key is held under its own URI. -/
theorem KeyStore.Reachable.own_uri {s : KeyStore} (h : s.Reachable) {uri : String} {key : KeyPair}
    (hkey : s.find uri = .ok key) : key.publicJwk.uri = uri := by
  obtain ⟨events, handle, m, hm, rfl⟩ := h
  exact ((Vault.Sound.empty.run events).of_keeper? hm).own_uri uri key hkey

theorem KeyStore.reachable_new (random : Nat → Seed) : KeyStore.Reachable { random } :=
  ⟨[.create random], 0, { store := { random } }, rfl, rfl⟩

/-- Every key can come to be held. -/
theorem KeyStore.Reachable.insert {s : KeyStore} (h : s.Reachable) (key : KeyPair) :
    (s.insert key).Reachable := by
  obtain ⟨events, handle, m, hm, rfl⟩ := h
  refine ⟨events ++ [.call handle (.importKey key.privateJwk)], handle,
    m.serve (.importKey key.privateJwk), ?_, ?_⟩
  · rw [Vault.run, List.foldl_append]
    exact Vault.keeper?_call hm _
  · rw [Keeper.serve, KeyStore.serve, KeyStore.importKey_privateJwk]

namespace Vault

/-- **What managers hold they keep.** Whatever some managers have been asked, through whatever
handles: a key that one of them holds is held under the URI of its public key, which is not private;
its private key can be exported, and whoever imports this holds the same key pair under the same URI
and gives the same signatures. The URIs under which keys are held are the ones that were given for
them, and all other URIs are answered by the failure that there is no such key. A request that fails
changes nothing. Whatever the managers are asked then, a key is still held under every such URI, and
it is the same one, or else the two public keys collide. -/
theorem held_keys (events : List Event) {handle : Nat} {m : Keeper}
    (hm : (run {} events).keeper? handle = some m) :
    (∀ uri j, m.store.publicKey uri = .ok j →
      j.uri = uri ∧ j.isPrivate = false ∧ j.canonical = j ∧
      ∃ p, m.store.exportKey uri = .ok p ∧ p.isPrivate = true ∧ p.toPublic = j ∧
        ∀ other : KeyStore, ∃ other', other.importKey p = (.ok uri, other') ∧
          other'.publicKey uri = .ok j ∧
          ∀ message, other'.sign uri message = m.store.sign uri message) ∧
    (∀ uri, uri ∈ m.given ↔ ∃ j, m.store.publicKey uri = .ok j) ∧
    (∀ uri ∉ m.given, m.store.publicKey uri = fail .keyNotFound s!"no key for {uri}" ∧
      m.store.exportKey uri = fail .keyNotFound s!"no key for {uri}" ∧
      ∀ message, m.store.sign uri message = fail .keyNotFound s!"no key for {uri}") ∧
    (∀ r f, (m.store.serve r).1 = .error f → (m.store.serve r).2 = m.store) ∧
    ∀ later, ∃ m', ((run {} events).run later).keeper? handle = some m' ∧
      ∀ uri j, m.store.publicKey uri = .ok j →
        ∃ j', m'.store.publicKey uri = .ok j' ∧ (j' = j ∨ j'.Collide j) := by
  have hvault : (run {} events).Sound := Sound.empty.run events
  have hsound := hvault.of_keeper? hm
  refine ⟨fun uri j hj => ?_, fun uri => ?_, fun uri huri => ?_, fun r f => KeyStore.serve_of_error,
    fun later => ?_⟩
  · obtain ⟨key, hkey, rfl⟩ := KeyStore.publicKey_eq_ok.mp hj
    refine ⟨hsound.own_uri uri key hkey, key.isPrivate_publicJwk, key.canonical_publicJwk,
      key.privateJwk, KeyStore.exportKey_eq_ok.mpr ⟨key, hkey, rfl⟩, key.isPrivate_privateJwk,
      key.toPublic_privateJwk, fun other => ?_⟩
    obtain ⟨other', himport, hfind⟩ := hsound.exists_importKey hkey other
    refine ⟨other', himport, KeyStore.publicKey_eq_ok.mpr ⟨key, hfind, rfl⟩, fun message => ?_⟩
    rw [KeyStore.sign_of_find hfind, KeyStore.sign_of_find hkey]
  · rw [hsound.mem_given, KeyStore.exists_publicKey_iff]
  · exact KeyStore.fail_of_not_holds fun h => huri ((hsound.mem_given uri).mpr h)
  · obtain ⟨requests, hm'⟩ := keeper?_run hm later
    refine ⟨_, hm', fun uri j hj => ?_⟩
    obtain ⟨key, hkey, rfl⟩ := KeyStore.publicKey_eq_ok.mp hj
    obtain ⟨key', hkey'⟩ := Keeper.holds_foldl ⟨key, hkey⟩ requests
    exact ⟨key'.publicJwk, KeyStore.publicKey_eq_ok.mpr ⟨key', hkey', rfl⟩,
      hsound.eq_or_collide ((hvault.run later).of_keeper? hm') hkey hkey'⟩

/-- A private key that comes with a public key which is not its own. -/
def mislabelledKey : Jwk :=
  .okp
    { crv := "Ed25519", x := "AA", d := some (Base64Url.encode (Seed.ofNat 1)),
      params := { kid := some "other" } }

theorem importable_mislabelledKey :
    KeyStore.importable mislabelledKey = .ok (.ed25519 (Seed.ofNat 1)) := by
  change KeyPair.seedOf "Ed25519" (some (Base64Url.encode (Seed.ofNat 1))) >>= _ = _
  rw [KeyPair.seedOf_encode]
  rfl

/-- A manager with two handles. A key is made through one of them, and another one is taken in
through the other. -/
def sampleEvents : List Event :=
  [.create Seed.ofNat, .share 0, .call 1 (.generateKey .secp256k1),
    .call 0 (.importKey mislabelledKey)]

theorem held_keys_sample : ∃ m uri j,
    (run {} sampleEvents).keeper? 1 = some m ∧ m.store.publicKey uri = .ok j ∧ j.uri = uri ∧
      (∃ p, m.store.exportKey uri = .ok p ∧ p.toPublic = j ∧
        ∀ other : KeyStore, ∃ other', other.importKey p = (.ok uri, other') ∧
          other'.publicKey uri = .ok j) ∧
      uri ∈ m.given := by
  let key : KeyPair := .ed25519 (Seed.ofNat 1)
  let made := Keeper.serve { store := {} } (.generateKey .secp256k1)
  have hm : (run {} sampleEvents).keeper? 1 = some (made.serve (.importKey mislabelledKey)) := rfl
  have hstore : (made.serve (.importKey mislabelledKey)).store = made.store.insert key := by
    change (made.store.importKey mislabelledKey).2 = _
    rw [made.store.importKey_of_importable importable_mislabelledKey]
  have hj : (made.serve (.importKey mislabelledKey)).store.publicKey key.publicJwk.uri =
      .ok key.publicJwk := by
    rw [hstore, KeyStore.publicKey, KeyStore.find_insert, if_pos rfl]
    rfl
  obtain ⟨hheld, hgiven, -⟩ := held_keys sampleEvents hm
  obtain ⟨huri, -, -, p, hp, -, hpublic, hother⟩ := hheld _ _ hj
  refine ⟨_, _, _, hm, hj, huri, ⟨p, hp, hpublic, fun other => ?_⟩, (hgiven _).mpr ⟨_, hj⟩⟩
  obtain ⟨other', himport, hfound, -⟩ := hother other
  exact ⟨other', himport, hfound⟩

end Vault

end DidMethods
