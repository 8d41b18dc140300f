import DidMethods.Proofs.Outcome
import DidMethods.Resolver.Resource

/-!
# What is asked of a resolver

The caches that can be relied on never fail and give back only what they were given
(`DidMethods.LawfulCache`); those of the library are of this kind. With such a cache a resolution
can go in four ways, which are the cases of one relation (`DidMethods.Resolver.Course`): what
`DidMethods.Resolver.resolveOrFail` does is one of them (`DidMethods.Resolver.exists_course`), and
all that is known of resolutions is read off there.

So what holds of every answer that a method gives in time holds of everything that a cache ever
holds, whatever is asked of the resolver and done to its cache
(`DidMethods.Resolver.holdsOnly_after`).
-/

namespace DidMethods

variable {ω κ : Type}

/-! ### Caches that can be relied on -/

/-- A cache that never fails and gives back only what it was given. It may lose anything at any
time. -/
class LawfulCache (κ : Type) extends ResultCache κ where
  /-- Some time passes. -/
  wait : Duration → κ → κ
  /-- A result is held under a key, which does not mean that it is still given back. -/
  Holds : κ → String → Resolution → Prop
  /-- What is given back is held. -/
  get_lawful (key : String) (c : κ) : ∃ kept c', get key c = (.ok kept, c') ∧
    (∀ v, kept = some v → Holds c key v) ∧ ∀ k v, Holds c' k v → Holds c k v
  /-- What is held afterwards is the new result or was held before. -/
  set_lawful (key : String) (v : Resolution) (c : κ) : ∃ c', set key v c = (.ok (), c') ∧
    ∀ k x, Holds c' k x → (k = key ∧ x = v) ∨ Holds c k x
  /-- Nothing is held but what was held before. -/
  delete_lawful (key : String) (c : κ) : ∃ c', delete key c = (.ok (), c') ∧
    ∀ k v, Holds c' k v → Holds c k v
  /-- Nothing is held but what was held before. -/
  clear_lawful (c : κ) : ∃ c', clear c = (.ok (), c') ∧ ∀ k v, Holds c' k v → Holds c k v
  /-- Nothing is held but what was held before. -/
  close_lawful (c : κ) : ∃ c', close c = (.ok (), c') ∧ ∀ k v, Holds c' k v → Holds c k v
  /-- Nothing is held but what was held before. -/
  holds_wait (d : Duration) (c : κ) (k : String) (v : Resolution) :
    Holds (wait d c) k v → Holds c k v

instance : LawfulCache NoCache where
  wait _ c := c
  Holds _ _ _ := False
  get_lawful _ c := ⟨none, c, rfl, by simp, fun _ _ h => h⟩
  set_lawful _ _ c := ⟨c, rfl, fun _ _ h => h.elim⟩
  delete_lawful _ c := ⟨c, rfl, fun _ _ h => h⟩
  clear_lawful c := ⟨c, rfl, fun _ _ h => h⟩
  close_lawful c := ⟨c, rfl, fun _ _ h => h⟩
  holds_wait _ _ _ _ h := h

namespace MemoryCache

variable {c : MemoryCache} {key k : String} {v x : Resolution}

/-- There is an entry with a result under a key, be it expired or not. -/
def Holds (c : MemoryCache) (key : String) (v : Resolution) : Prop :=
  ∃ e ∈ c.entries, e.1 = key ∧ e.2.result = v

theorem Holds.of_erase (h : (c.erase key).Holds k v) : c.Holds k v := by
  obtain ⟨e, he, hkey⟩ := h
  exact ⟨e, (List.mem_filter.mp he).1, hkey⟩

theorem Holds.of_insert (h : (c.insert key v).Holds k x) : (k = key ∧ x = v) ∨ c.Holds k x := by
  obtain ⟨e, he, hkey, hresult⟩ := h
  rcases List.mem_cons.mp he with rfl | he
  · exact Or.inl ⟨hkey.symm, hresult.symm⟩
  · exact Or.inr (Holds.of_erase ⟨e, he, hkey, hresult⟩)

theorem not_holds_empty : ¬ c.empty.Holds k v := by
  rintro ⟨e, he, -⟩
  exact absurd he List.not_mem_nil

/-- What is found is held, and nothing is held afterwards but what was held before. -/
theorem find_lawful (c : MemoryCache) (key : String) :
    (∀ v, (c.find key).1 = some v → c.Holds key v) ∧
      ∀ k v, (c.find key).2.Holds k v → c.Holds k v := by
  rw [find]
  cases hlookup : c.entries.lookup key with
  | none => exact ⟨by simp, fun _ _ h => h⟩
  | some e =>
    obtain ⟨before, after, hentries, -⟩ := List.lookup_eq_some_iff.mp hlookup
    have hmem : (key, e) ∈ c.entries := hentries ▸ List.mem_append_right _ List.mem_cons_self
    dsimp only
    split
    · exact ⟨by simp, fun _ _ h => h.of_erase⟩
    · refine ⟨?_, fun _ _ h => h⟩
      rintro v ⟨⟩
      exact ⟨(key, e), hmem, rfl, rfl⟩

/-- The result of the entry under a key, be it expired or not. -/
def kept (c : MemoryCache) (key : String) : Option Resolution :=
  (c.entries.lookup key).map CacheEntry.result

/-- What does not grow old is found, and stays. -/
theorem find_of_no_lifetime (h : c.lifetime = none) (key : String) :
    c.find key = (c.kept key, c) := by
  rw [find, kept]
  cases c.entries.lookup key with
  | none => rfl
  | some e => simp [isExpired, h]

end MemoryCache

instance : LawfulCache MemoryCache where
  wait d c := c.wait d
  Holds := MemoryCache.Holds
  get_lawful key c := ⟨(c.find key).1, (c.find key).2, rfl, c.find_lawful key⟩
  set_lawful key v c := ⟨c.insert key v, rfl, fun _ _ h => h.of_insert⟩
  delete_lawful key c := ⟨c.erase key, rfl, fun _ _ h => h.of_erase⟩
  clear_lawful c := ⟨c.empty, rfl, fun _ _ h => absurd h MemoryCache.not_holds_empty⟩
  close_lawful c := ⟨c.empty, rfl, fun _ _ h => absurd h MemoryCache.not_holds_empty⟩
  holds_wait _ _ _ _ h := h

/-! ### The method of a name -/

namespace Resolver

/-- The last method that is registered under a name. -/
def IsLast (r : Resolver ω) (name : String) (m : DidMethod ω) : Prop :=
  ∃ before after, r.methods = before ++ m :: after ∧ m.name = name ∧ ∀ m' ∈ after, m'.name ≠ name

variable {r : Resolver ω} {m : DidMethod ω} {did name : String} {parsed : Did}

theorem find?_eq_some : r.find? name = some m ↔ r.IsLast name m := by
  rw [find?, List.find?_eq_some_iff_append]
  constructor
  · rintro ⟨hname, after, before, hmethods, hafter⟩
    refine ⟨before.reverse, after.reverse, ?_, by simpa using hname, fun m' hm' => ?_⟩
    · rw [← List.reverse_reverse r.methods, hmethods]
      simp
    · simpa using hafter m' (List.mem_reverse.mp hm')
  · rintro ⟨before, after, hmethods, hname, hafter⟩
    refine ⟨by simpa using hname, after.reverse, before.reverse, ?_, fun m' hm' => ?_⟩
    · rw [hmethods]
      simp
    · simpa using hafter m' (List.mem_reverse.mp hm')

theorem find?_eq_none : r.find? name = none ↔ ∀ m ∈ r.methods, m.name ≠ name := by
  simp [find?, List.find?_eq_none]

theorem methodOf_of_not_parse? (h : Did.parse? did = none) :
    r.methodOf did = fail .invalidDid s!"invalid DID: {did}" := by
  rw [methodOf, Did.parse, h]
  rfl

theorem methodOf_of_parse? (h : Did.parse? did = some parsed) :
    r.methodOf did =
      orFail .methodNotSupported s!"no resolver for {parsed.method}" (r.find? parsed.method) := by
  rw [methodOf, Did.parse, h]
  rfl

/-- A method is known if the text is a DID and one is registered under its method name. -/
theorem methodOf_eq_ok :
    r.methodOf did = .ok m ↔
      ∃ parsed, Did.parse? did = some parsed ∧ r.IsLast parsed.method m := by
  cases hparse : Did.parse? did with
  | none =>
    rw [methodOf_of_not_parse? hparse]
    simp
  | some parsed =>
    rw [methodOf_of_parse? hparse, Outcome.orFail_eq_ok, find?_eq_some]
    simp

/-- What is wrong where no method is known. -/
theorem methodOf_eq_error {f : Fault} :
    r.methodOf did = .error f ↔
      (Did.parse? did = none ∧ f = .because .invalidDid s!"invalid DID: {did}") ∨
        ∃ parsed, Did.parse? did = some parsed ∧ (∀ m ∈ r.methods, m.name ≠ parsed.method) ∧
          f = .because .methodNotSupported s!"no resolver for {parsed.method}" := by
  cases hparse : Did.parse? did with
  | none =>
    rw [methodOf_of_not_parse? hparse]
    simp [fail, eq_comm]
  | some parsed =>
    rw [methodOf_of_parse? hparse]
    simp only [← find?_eq_none]
    cases hfind : r.find? parsed.method with
    | none => simp [orFail, fail, hfind, eq_comm]
    | some m => simp [orFail, hfind]

theorem mem_of_methodOf (h : r.methodOf did = .ok m) : m ∈ r.methods := by
  obtain ⟨parsed, -, before, after, hmethods, -⟩ := methodOf_eq_ok.mp h
  rw [hmethods]
  exact List.mem_append_right before List.mem_cons_self

end Resolver

/-! ### The ways a resolution can go -/

/-- A method was asked to resolve a DID, and has answered. -/
structure MethodCall (ω : Type) where
  /-- The method. -/
  method : DidMethod ω
  /-- The DID or DID URL. -/
  did : String
  /-- What else the method was told. -/
  options : ResolutionOptions
  /-- What it answered. -/
  answer : Answer

namespace Resolver

/-- How a resolution of a DID goes: what it comes to, which calls it makes and what it leaves. -/
inductive Course [LawfulCache κ] (r : Resolver ω) (did : String) :
    ω × κ → Outcome Resolution → List (MethodCall ω) → ω × κ → Prop where
  /-- The text is no DID, or its method is not known. -/
  | refused {f : Fault} {s : ω × κ} (hmethod : r.methodOf did = .error f) :
      Course r did s (.error f) [] s
  /-- The cache has a result. -/
  | found {m : DidMethod ω} {v : Resolution} {w : ω} {c c' : κ} (hmethod : r.methodOf did = .ok m)
      (hget : ResultCache.get did c = (.ok (some v), c')) (hheld : LawfulCache.Holds c did v) :
      Course r did (w, c) (.ok v) [] (w, c')
  /-- The method takes too long. -/
  | late {m : DidMethod ω} {answer : Answer} {limit : Duration} {w w' : ω} {c c' : κ}
      (hmethod : r.methodOf did = .ok m) (hget : ResultCache.get did c = (.ok none, c'))
      (hask : (m.resolve did r.options).run w = (answer, w'))
      (hlimit : r.exceeded? answer = some limit) :
      Course r did (w, c) (.ok (timedOut limit)) [⟨m, did, r.options, answer⟩] (w', c')
  /-- The method answers in time, and its result is kept. -/
  | answered {m : DidMethod ω} {answer : Answer} {w w' : ω} {c c' c'' : κ}
      (hmethod : r.methodOf did = .ok m) (hget : ResultCache.get did c = (.ok none, c'))
      (hask : (m.resolve did r.options).run w = (answer, w'))
      (hlimit : r.exceeded? answer = none)
      (hset : ResultCache.set did answer.result c' = (.ok (), c'')) :
      Course r did (w, c) (.ok answer.result) [⟨m, did, r.options, answer⟩] (w', c'')

/-- What comes of an answer: its result, unless it comes too late. -/
def awaited (r : Resolver ω) (a : Answer) : Resolution :=
  match r.exceeded? a with
  | some limit => timedOut limit
  | none => a.result

variable {r : Resolver ω} {did : String} {s s' : ω × κ} {o : Outcome Resolution}

theorem awaited_of_exceeded {a : Answer} {limit : Duration} (h : r.exceeded? a = some limit) :
    r.awaited a = timedOut limit := by
  rw [awaited, h]

theorem awaited_of_inTime {a : Answer} (h : r.exceeded? a = none) : r.awaited a = a.result := by
  rw [awaited, h]

section AnyCache

variable [ResultCache κ]

/-- A resolution that is refused does not touch the cache, whatever the cache is. -/
theorem resolveOrFail_of_error {f : Fault} (hmethod : r.methodOf did = .error f) (s : ω × κ) :
    r.resolveOrFail did s = (.error f, s) := by
  rw [resolveOrFail, hmethod]
  exact Action.bind_of_error (Action.ofOutcome_apply _ _)

/-- Where the cache has nothing, the method is asked. -/
theorem resolveOrFail_of_miss {m : DidMethod ω} {w : ω} {c c' : κ}
    (hmethod : r.methodOf did = .ok m) (hget : ResultCache.get did c = (.ok none, c')) :
    r.resolveOrFail did (w, c) = r.askMethod m did (w, c') := by
  rw [resolveOrFail, hmethod, Action.bind_of_ok (Action.ofOutcome_apply _ _),
    Action.bind_of_ok (Action.second_of_eq hget)]

/-- To dereference a DID URL is to resolve its bare DID, and then to look into the document. -/
theorem dereference_of_parse? {url : String} {parsed : Did} (h : Did.parse? url = some parsed)
    (s : ω × κ) :
    r.dereference url s =
      ((r.resolveOrFail parsed.uri s).1 >>= fun result =>
          result.documentOf parsed.uri >>= fun document => document.resource parsed,
        (r.resolveOrFail parsed.uri s).2) := by
  have hparse : orFail .invalidDidUrl s!"invalid DID URL: {url}" (Did.parse? url) = .ok parsed :=
    Outcome.orFail_eq_ok.mpr h
  rw [dereference, hparse, Action.bind_of_ok (Action.ofOutcome_apply _ _)]
  rcases hresolve : r.resolveOrFail parsed.uri s with ⟨f | result, s'⟩
  · exact Action.bind_of_error hresolve
  · rw [Action.bind_of_ok hresolve, Outcome.ok_bind]
    rcases hdocument : result.documentOf parsed.uri with f | document
    · exact Action.bind_of_error (Action.ofOutcome_apply _ _)
    · exact Action.bind_of_ok (Action.ofOutcome_apply _ _)

theorem dereference_of_not_parse? {url : String} (h : Did.parse? url = none) (s : ω × κ) :
    r.dereference url s = (fail .invalidDidUrl s!"invalid DID URL: {url}", s) := by
  rw [dereference, h]
  exact Action.bind_of_error (Action.ofOutcome_apply _ _)

end AnyCache

section LawfulCache

variable [LawfulCache κ] {calls : List (MethodCall ω)}

theorem Course.resolveOrFail_eq (h : r.Course did s o calls s') :
    r.resolveOrFail did s = (o, s') := by
  cases h with
  | refused hmethod => exact resolveOrFail_of_error hmethod s
  | found hmethod hget =>
    rw [resolveOrFail, hmethod, Action.bind_of_ok (Action.ofOutcome_apply _ _),
      Action.bind_of_ok (Action.second_of_eq hget)]
    rfl
  | late hmethod hget hask hlimit =>
    rw [resolveOrFail_of_miss hmethod hget, askMethod, Action.bind_of_ok (Action.first_of_eq hask),
      hlimit]
    rfl
  | answered hmethod hget hask hlimit hset =>
    rw [resolveOrFail_of_miss hmethod hget, askMethod, Action.bind_of_ok (Action.first_of_eq hask),
      hlimit]
    exact Action.bind_of_ok (Action.second_of_eq hset)

/-- **A resolution goes in one of these ways.** -/
theorem exists_course (r : Resolver ω) (did : String) (s : ω × κ) :
    ∃ calls, r.Course did s (r.resolveOrFail did s).1 calls (r.resolveOrFail did s).2 := by
  suffices h : ∃ o calls s', r.Course did s o calls s' by
    obtain ⟨o, calls, s', h⟩ := h
    rw [h.resolveOrFail_eq]
    exact ⟨calls, h⟩
  obtain ⟨w, c⟩ := s
  cases hmethod : r.methodOf did with
  | error f => exact ⟨_, _, _, .refused hmethod⟩
  | ok m =>
    obtain ⟨_ | v, c', hget, hheld, -⟩ := LawfulCache.get_lawful did c
    · rcases hask : (m.resolve did r.options).run w with ⟨answer, w'⟩
      cases hlimit : r.exceeded? answer with
      | some limit => exact ⟨_, _, _, .late hmethod hget hask hlimit⟩
      | none =>
        obtain ⟨c'', hset, -⟩ := LawfulCache.set_lawful did answer.result c'
        exact ⟨_, _, _, .answered hmethod hget hask hlimit hset⟩
    · exact ⟨_, _, _, .found hmethod hget (hheld v rfl)⟩

/-- A resolution by a method comes to what is held or to what the method answers now. -/
theorem resolveOrFail_cases {m : DidMethod ω} (hmethod : r.methodOf did = .ok m) (s : ω × κ) :
    (∃ v, (r.resolveOrFail did s).1 = .ok v ∧ LawfulCache.Holds s.2 did v) ∨
      (r.resolveOrFail did s).1 = .ok (r.awaited ((m.resolve did r.options).run s.1).1) := by
  obtain ⟨calls, h⟩ := r.exists_course did s
  generalize r.resolveOrFail did s = result at h ⊢
  obtain ⟨o, s'⟩ := result
  cases h with
  | refused hrefused =>
    rw [hmethod] at hrefused
    cases hrefused
  | @found m' v w c c' _ _ hheld => exact Or.inl ⟨v, rfl, hheld⟩
  | late hm' _ hask hlimit =>
    rw [hmethod] at hm'
    obtain rfl := Except.ok.inj hm'
    exact Or.inr (by rw [hask, awaited_of_exceeded hlimit])
  | answered hm' _ hask hlimit =>
    rw [hmethod] at hm'
    obtain rfl := Except.ok.inj hm'
    exact Or.inr (by rw [hask, awaited_of_inTime hlimit])

/-! ### What holds of every answer -/

/-- What holds of a result under its key holds of all that is held. -/
def HoldsOnly (P : String → Resolution → Prop) (c : κ) : Prop :=
  ∀ key v, LawfulCache.Holds c key v → P key v

/-- What holds of a result for its DID holds of every answer that comes in time. -/
def AnswersOnly (r : Resolver ω) (P : String → Resolution → Prop) : Prop :=
  ∀ did m w, r.methodOf did = .ok m → r.exceeded? ((m.resolve did r.options).run w).1 = none →
    P did ((m.resolve did r.options).run w).1.result

variable {P : String → Resolution → Prop}

theorem HoldsOnly.of_imp {c c' : κ} (hc : HoldsOnly P c)
    (h : ∀ k v, LawfulCache.Holds c' k v → LawfulCache.Holds c k v) : HoldsOnly P c' :=
  fun k v hv => hc k v (h k v hv)

omit [LawfulCache κ] in
theorem holdsOnly_noCache (P : String → Resolution → Prop) : HoldsOnly P NoCache.mk :=
  fun _ _ h => h.elim

omit [LawfulCache κ] in
/-- A new cache in memory holds nothing. -/
theorem holdsOnly_memory (P : String → Resolution → Prop) (lifetime : Option Duration) :
    HoldsOnly P ({ lifetime } : MemoryCache) := by
  rintro key v ⟨e, he, -⟩
  exact absurd he List.not_mem_nil

theorem HoldsOnly.of_get {c c' : κ} {key : String} {o : Outcome (Option Resolution)}
    (hc : HoldsOnly P c) (hget : ResultCache.get key c = (o, c')) : HoldsOnly P c' := by
  obtain ⟨kept, c'', hlawful, -, hheld⟩ := LawfulCache.get_lawful key c
  rw [hlawful] at hget
  cases hget
  exact hc.of_imp hheld

theorem HoldsOnly.of_set {c c' : κ} {key : String} {v : Resolution} {o : Outcome Unit}
    (hc : HoldsOnly P c) (hv : P key v) (hset : ResultCache.set key v c = (o, c')) :
    HoldsOnly P c' := by
  obtain ⟨c'', hlawful, hheld⟩ := LawfulCache.set_lawful key v c
  rw [hlawful] at hset
  cases hset
  intro k x hx
  rcases hheld k x hx with ⟨rfl, rfl⟩ | hx
  · exact hv
  · exact hc k x hx

omit [LawfulCache κ] in
theorem AnswersOnly.of_ask {m : DidMethod ω} {answer : Answer} {w w' : ω} (hr : r.AnswersOnly P)
    (hmethod : r.methodOf did = .ok m) (hask : (m.resolve did r.options).run w = (answer, w'))
    (hlimit : r.exceeded? answer = none) : P did answer.result := by
  have hfine := hr did m w hmethod
  rw [hask] at hfine
  exact hfine hlimit

/-- A resolution keeps nothing but answers. -/
theorem Course.holdsOnly (hr : r.AnswersOnly P) (hs : HoldsOnly P s.2)
    (h : r.Course did s o calls s') : HoldsOnly P s'.2 := by
  cases h with
  | refused => exact hs
  | found _ hget => exact HoldsOnly.of_get hs hget
  | late _ hget => exact HoldsOnly.of_get hs hget
  | answered hmethod hget hask hlimit hset =>
    exact (HoldsOnly.of_get hs hget).of_set (hr.of_ask hmethod hask hlimit) hset

theorem holdsOnly_resolveOrFail (hr : r.AnswersOnly P) (hs : HoldsOnly P s.2) (did : String) :
    HoldsOnly P (r.resolveOrFail did s).2.2 := by
  obtain ⟨calls, h⟩ := r.exists_course did s
  exact h.holdsOnly hr hs

end LawfulCache

end Resolver

/-! ### Requests -/

/-- What someone does with a resolver or with its cache. -/
inductive Request where
  /-- Resolve a DID or DID URL. -/
  | resolve (did : String)
  /-- Find what a DID URL addresses. -/
  | dereference (url : String)
  /-- Delete an entry of the cache. -/
  | delete (key : String)
  /-- Clear the cache. -/
  | clear
  /-- Close the cache. -/
  | close
  /-- Let some time pass. -/
  | wait (d : Duration)
deriving DecidableEq, Repr

/-- What comes back. -/
inductive Reply where
  /-- The result of a resolution. -/
  | resolution (o : Outcome Resolution)
  /-- The resource that a DID URL addresses. -/
  | resource (o : Outcome Resource)
  /-- Nothing, or the failure of the cache. -/
  | done (o : Outcome Unit)

namespace Resolver

variable [LawfulCache κ]

/-- Do what is asked. -/
def perform (r : Resolver ω) (q : Request) (s : ω × κ) : Reply × (ω × κ) :=
  match q with
  | .resolve did => (.resolution (r.resolveOrFail did s).1, (r.resolveOrFail did s).2)
  | .dereference url => (.resource (r.dereference url s).1, (r.dereference url s).2)
  | .delete key => touch (ResultCache.delete key) s
  | .clear => touch ResultCache.clear s
  | .close => touch ResultCache.close s
  | .wait d => (.done (.ok ()), (s.1, LawfulCache.wait d s.2))
where
  /-- Do something to the cache. -/
  touch (x : Action κ Unit) (s : ω × κ) : Reply × (ω × κ) :=
    (.done (x s.2).1, (s.1, (x s.2).2))

/-- The state after some requests, one after the other. -/
def after (r : Resolver ω) (requests : List Request) (s : ω × κ) : ω × κ :=
  requests.foldl (fun s q => (r.perform q s).2) s

variable {r : Resolver ω} {P : String → Resolution → Prop} {s : ω × κ}

/-- **No request keeps anything but answers.** -/
theorem holdsOnly_perform (hr : r.AnswersOnly P) (hs : HoldsOnly P s.2) (q : Request) :
    HoldsOnly P (r.perform q s).2.2 := by
  obtain ⟨w, c⟩ := s
  cases q with
  | resolve did => exact holdsOnly_resolveOrFail hr hs did
  | dereference url =>
    change HoldsOnly P (r.dereference url (w, c)).2.2
    cases hparse : Did.parse? url with
    | none =>
      rw [dereference_of_not_parse? hparse]
      exact hs
    | some parsed =>
      rw [dereference_of_parse? hparse]
      exact holdsOnly_resolveOrFail hr hs parsed.uri
  | delete key =>
    obtain ⟨c', hdelete, hheld⟩ := LawfulCache.delete_lawful key c
    rw [perform, perform.touch, hdelete]
    exact hs.of_imp hheld
  | clear =>
    obtain ⟨c', hclear, hheld⟩ := LawfulCache.clear_lawful c
    rw [perform, perform.touch, hclear]
    exact hs.of_imp hheld
  | close =>
    obtain ⟨c', hclose, hheld⟩ := LawfulCache.close_lawful c
    rw [perform, perform.touch, hclose]
    exact hs.of_imp hheld
  | wait d => exact hs.of_imp (LawfulCache.holds_wait d c)

/-- **No sequence of requests keeps anything but answers.** -/
theorem holdsOnly_after (hr : r.AnswersOnly P) (hs : HoldsOnly P s.2) (requests : List Request) :
    HoldsOnly P (r.after requests s).2 := by
  induction requests generalizing s with
  | nil => exact hs
  | cons q requests ih => exact ih (holdsOnly_perform hr hs q)

end Resolver

end DidMethods
