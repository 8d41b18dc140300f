import DidMethods.Proofs.ResolverRequests
import DidMethods.Resolver.Standard
import Mathlib.Logic.Function.Basic

/-!
# Resolutions that share a cache

A resolution looks up the method, asks the cache, asks the method and sets the cache, and other
resolutions may do any of this in between (`DidMethods.Resolver.Phase`). When nothing comes in
between, the steps are the resolution (`DidMethods.Resolver.advance_alone`). Here any number of
resolutions take their steps in any order, and entries may be deleted and the cache be cleared or
closed at any time (`DidMethods.Resolver.Event`).

Between asking and setting there is no lock: two resolutions of one DID may both miss and both set,
and one may set what has been deleted since. None of this can be seen, as long as what a method
answers depends on the DID only (`DidMethods.Resolver.IsFunctional`). What carries this is that the
cache never holds anything but what the method answers to the key
(`DidMethods.Resolver.Sound.run`): a late entry is as good as any. So what a resolution returns is
what it returns without a cache (`DidMethods.Resolver.returned_eq_noCache`).
-/

namespace DidMethods.Resolver

variable {ω κ ι : Type}

/-! ### One resolution, step by step -/

/-- How far a resolution has come. -/
inductive Phase (ω : Type) where
  /-- Nothing has been done. -/
  | begun
  /-- The method is known. -/
  | known (m : DidMethod ω)
  /-- The cache had nothing. -/
  | missed (m : DidMethod ω)
  /-- The method has answered in time. -/
  | answered (r : Resolution)
  /-- All is done but to return. -/
  | finished (o : Outcome Resolution)
  /-- The caller has the result, or the failure. -/
  | returned (o : Outcome Resolution)

/-- The next step of a resolution, and what it does to the world and the cache. -/
def advance [ResultCache κ] (r : Resolver ω) (did : String) : Phase ω → ω × κ → Phase ω × (ω × κ)
  | .begun, s =>
    match r.methodOf did with
    | .ok m => (.known m, s)
    | .error f => (.finished (.error f), s)
  | .known m, (w, c) =>
    match ResultCache.get did c with
    | (.ok none, c) => (.missed m, (w, c))
    | (.ok (some kept), c) => (.finished (.ok kept), (w, c))
    | (.error f, c) => (.finished (.error f), (w, c))
  | .missed m, (w, c) =>
    let (answer, w) := (m.resolve did r.options).run w
    match r.exceeded? answer with
    | some limit => (.finished (.ok (timedOut limit)), (w, c))
    | none => (.answered answer.result, (w, c))
  | .answered result, (w, c) =>
    match ResultCache.set did result c with
    | (.ok (), c) => (.finished (.ok result), (w, c))
    | (.error f, c) => (.finished (.error f), (w, c))
  | .finished o, s => (.returned o, s)
  | .returned o, s => (.returned o, s)

/-- Some steps of a resolution with nothing in between. -/
def advances [ResultCache κ] (r : Resolver ω) (did : String) :
    (steps : Nat) → Phase ω → ω × κ → Phase ω × (ω × κ)
  | 0, p, s => (p, s)
  | steps + 1, p, s => let (p, s) := r.advance did p s; r.advances did steps p s

/-- **A resolution that nothing comes in between is a resolution.** -/
theorem advance_alone [ResultCache κ] (r : Resolver ω) (did : String) (s : ω × κ) :
    r.advances did 5 .begun s =
      (.returned (r.resolveOrFail did s).1, (r.resolveOrFail did s).2) := by
  obtain ⟨w, c⟩ := s
  rw [resolveOrFail]
  cases hm : r.methodOf did with
  | error f =>
    rw [Action.bind_of_error (Action.ofOutcome_apply _ _)]
    simp only [advances, advance, hm]
  | ok m =>
    rw [Action.bind_of_ok (Action.ofOutcome_apply _ _)]
    rcases hget : ResultCache.get did c with ⟨f | kept, c'⟩
    · rw [Action.bind_of_error (Action.second_of_eq hget)]
      simp only [advances, advance, hm, hget]
    · rw [Action.bind_of_ok (Action.second_of_eq hget)]
      cases kept with
      | some kept =>
        simp only [advances, advance, hm, hget]
        rfl
      | none =>
        rcases hask : (m.resolve did r.options).run w with ⟨answer, w'⟩
        dsimp only
        rw [askMethod, Action.bind_of_ok (Action.first_of_eq hask)]
        cases hlimit : r.exceeded? answer with
        | some limit =>
          simp only [advances, advance, hm, hget, hask, hlimit]
          rfl
        | none =>
          rcases hset : ResultCache.set did answer.result c' with ⟨f | ⟨⟩, c''⟩
          · dsimp only
            rw [Action.bind_of_error (Action.second_of_eq hset)]
            simp only [advances, advance, hm, hget, hask, hlimit, hset]
          · dsimp only
            rw [Action.bind_of_ok (Action.second_of_eq hset)]
            simp only [advances, advance, hm, hget, hask, hlimit, hset]
            rfl

/-! ### What a resolution comes to without a cache -/

/-- The result, or the failure, of a resolution that keeps nothing. -/
def uncached (r : Resolver ω) (did : String) (w : ω) : Outcome Resolution :=
  (r.resolveOrFail did (w, NoCache.mk)).1

theorem advances_noCache (r : Resolver ω) (did : String) (w : ω) :
    (r.advances did 5 .begun (w, NoCache.mk)).1 = .returned (r.uncached did w) := by
  rw [advance_alone, uncached]

theorem uncached_of_error {r : Resolver ω} {did : String} {f : Fault}
    (h : r.methodOf did = .error f) (w : ω) : r.uncached did w = .error f := by
  have hsteps := r.advances_noCache did w
  simp only [advances, advance, h] at hsteps
  exact (Phase.returned.inj hsteps).symm

theorem uncached_of_exceeded {r : Resolver ω} {did : String} {m : DidMethod ω} {limit : Duration}
    {w : ω} (h : r.methodOf did = .ok m)
    (hlimit : r.exceeded? ((m.resolve did r.options).run w).1 = some limit) :
    r.uncached did w = .ok (timedOut limit) := by
  have hsteps := r.advances_noCache did w
  have hget : ResultCache.get did NoCache.mk = (.ok none, NoCache.mk) := rfl
  rcases hask : (m.resolve did r.options).run w with ⟨answer, w'⟩
  rw [hask] at hlimit
  simp only [advances, advance, h, hget, hask, hlimit] at hsteps
  exact (Phase.returned.inj hsteps).symm

theorem uncached_of_inTime {r : Resolver ω} {did : String} {m : DidMethod ω} {w : ω}
    (h : r.methodOf did = .ok m)
    (hlimit : r.exceeded? ((m.resolve did r.options).run w).1 = none) :
    r.uncached did w = .ok ((m.resolve did r.options).run w).1.result := by
  have hsteps := r.advances_noCache did w
  have hget : ResultCache.get did NoCache.mk = (.ok none, NoCache.mk) := rfl
  have hset : ∀ v, ResultCache.set did v NoCache.mk = (.ok (), NoCache.mk) := fun _ => rfl
  rcases hask : (m.resolve did r.options).run w with ⟨answer, w'⟩
  rw [hask] at hlimit
  simp only [advances, advance, h, hget, hask, hlimit, hset] at hsteps
  exact (Phase.returned.inj hsteps).symm

/-! ### Methods that are functions -/

/-- What a method answers depends on the DID only, and so does whether it answers in time. -/
structure IsFunctional (r : Resolver ω) : Prop where
  /-- The result is the same in every world. -/
  result : ∀ m ∈ r.methods, ∀ did w w',
    ((m.resolve did r.options).run w).1.result = ((m.resolve did r.options).run w').1.result
  /-- It is there in time in every world or in none. -/
  inTime : ∀ m ∈ r.methods, ∀ did w w',
    r.exceeded? ((m.resolve did r.options).run w).1 =
      r.exceeded? ((m.resolve did r.options).run w').1

/-- The registered method answers this to a DID, in time and in every world. -/
def IsAnswer (r : Resolver ω) (did : String) (v : Resolution) : Prop :=
  ∃ m, r.methodOf did = .ok m ∧ ∀ w, ((m.resolve did r.options).run w).1.result = v ∧
    r.exceeded? ((m.resolve did r.options).run w).1 = none

/-- A resolution fails only for a text that is no DID or a method that is not registered. -/
theorem code_of_methodOf {r : Resolver ω} {did : String} {f : Fault}
    (h : r.methodOf did = .error f) : f.code = .invalidDid ∨ f.code = .methodNotSupported := by
  rcases methodOf_eq_error.mp h with ⟨-, rfl⟩ | ⟨parsed, -, -, rfl⟩
  · exact Or.inl rfl
  · exact Or.inr rfl

/-- A resolution without a cache fails only for a DID or its method. -/
theorem code_of_uncached {r : Resolver ω} {did : String} {w : ω} {f : Fault}
    (h : r.uncached did w = .error f) : f.code = .invalidDid ∨ f.code = .methodNotSupported := by
  cases hm : r.methodOf did with
  | error g =>
    rw [uncached_of_error hm] at h
    obtain rfl := Except.error.inj h
    exact code_of_methodOf hm
  | ok m =>
    cases hlimit : r.exceeded? ((m.resolve did r.options).run w).1 with
    | some limit =>
      rw [uncached_of_exceeded hm hlimit] at h
      cases h
    | none =>
      rw [uncached_of_inTime hm hlimit] at h
      cases h

theorem IsAnswer.uncached_eq {r : Resolver ω} {did : String} {v : Resolution}
    (h : r.IsAnswer did v) (w : ω) : r.uncached did w = .ok v := by
  obtain ⟨m, hm, hanswer⟩ := h
  rw [uncached_of_inTime hm (hanswer w).2, (hanswer w).1]

/-! ### Many resolutions -/

/-- The world and the cache that all resolutions share, and how far each of them has come. -/
structure Traffic (ω ι : Type) where
  /-- What the methods need to know. -/
  world : ω
  /-- The cache. -/
  cache : MemoryCache
  /-- How far each resolution has come. -/
  phase : ι → Phase ω

/-- What can happen next. -/
inductive Event (ι : Type) where
  /-- A resolution takes a step. -/
  | step (i : ι)
  /-- Someone deletes an entry of the cache. -/
  | delete (key : String)
  /-- Someone clears the cache. -/
  | clear
  /-- Someone closes the cache. -/
  | close
  /-- Time passes. -/
  | wait (d : Duration)
deriving DecidableEq

namespace Traffic

/-- No resolution has begun, and the cache is empty and has no limit on the age of an entry. -/
def start (w : ω) : Traffic ω ι where
  world := w
  cache := {}
  phase _ := .begun

/-- Something is done to the cache by someone else. -/
def touch (s : Traffic ω ι) (x : Action MemoryCache Unit) : Traffic ω ι :=
  { s with cache := (x s.cache).2 }

variable [DecidableEq ι] (r : Resolver ω) (dids : ι → String)

/-- What becomes of the resolutions of some DIDs by an event. -/
def happen (s : Traffic ω ι) : Event ι → Traffic ω ι
  | .step i =>
    let (p, (w, c)) := r.advance (dids i) (s.phase i) (s.world, s.cache)
    { world := w, cache := c, phase := Function.update s.phase i p }
  | .delete key => s.touch (ResultCache.delete key)
  | .clear => s.touch ResultCache.clear
  | .close => s.touch ResultCache.close
  | .wait d => { s with cache := s.cache.wait d }

/-- What becomes of the resolutions of some DIDs by some events, one after the other. -/
def run (s : Traffic ω ι) (events : List (Event ι)) : Traffic ω ι :=
  events.foldl (happen r dids) s

end Traffic

/-! ### What no step breaks -/

/-- The cache holds nothing but what the methods answer, and its entries do not grow old. -/
structure CacheSound (r : Resolver ω) (c : MemoryCache) : Prop where
  /-- There is no limit on the age of an entry. -/
  lifetime : c.lifetime = none
  /-- Each entry is what the method answers to its key. -/
  entries : ∀ e ∈ c.entries, r.IsAnswer e.1 e.2.result

/-- A resolution knows the right method, has the right answer, and comes to the right end. -/
def PhaseSound (r : Resolver ω) (did : String) : Phase ω → Prop
  | .begun => True
  | .known m => r.methodOf did = .ok m
  | .missed m => r.methodOf did = .ok m
  | .answered v => r.IsAnswer did v
  | .finished o => ∀ w, r.uncached did w = o
  | .returned o => ∀ w, r.uncached did w = o

namespace CacheSound

variable {r : Resolver ω} {c : MemoryCache}

theorem erase (h : r.CacheSound c) (key : String) : r.CacheSound (c.erase key) where
  lifetime := h.lifetime
  entries := fun e he => h.entries e (List.mem_filter.mp he).1

theorem insert (h : r.CacheSound c) {key : String} {v : Resolution} (hv : r.IsAnswer key v) :
    r.CacheSound (c.insert key v) where
  lifetime := h.lifetime
  entries := List.forall_mem_cons.mpr ⟨hv, (h.erase key).entries⟩

theorem empty (h : r.CacheSound c) : r.CacheSound c.empty where
  lifetime := h.lifetime
  entries _ he := absurd he List.not_mem_nil

theorem wait (h : r.CacheSound c) (d : Duration) : r.CacheSound (c.wait d) where
  lifetime := h.lifetime
  entries := h.entries

/-- What is found is what the method answers, and looking for it changes nothing. -/
theorem find (h : r.CacheSound c) (key : String) :
    (c.find key).2 = c ∧ ∀ v, (c.find key).1 = some v → r.IsAnswer key v := by
  refine ⟨by rw [MemoryCache.find_of_no_lifetime h.lifetime], fun v hv => ?_⟩
  obtain ⟨e, he, rfl, rfl⟩ := (c.find_lawful key).1 v hv
  exact h.entries e he

end CacheSound

/-- **No step of a resolution breaks anything.** -/
theorem advance_sound {r : Resolver ω} (hr : r.IsFunctional) {did : String} {p : Phase ω}
    {w : ω} {c : MemoryCache} (hp : r.PhaseSound did p) (hc : r.CacheSound c) :
    r.PhaseSound did (r.advance did p (w, c)).1 ∧
      r.CacheSound (r.advance did p (w, c)).2.2 := by
  cases p with
  | begun =>
    cases hm : r.methodOf did with
    | ok m => simp only [advance, hm]; exact ⟨hm, hc⟩
    | error f => simp only [advance, hm]; exact ⟨uncached_of_error hm, hc⟩
  | known m =>
    obtain ⟨hcache, hfound⟩ := hc.find did
    have hget : ResultCache.get did c = (.ok (c.find did).1, c) := by
      change ((.ok (c.find did).1 : Outcome (Option Resolution)), (c.find did).2) = _
      rw [hcache]
    cases hfind : (c.find did).1 with
    | none => simp only [advance, hget, hfind]; exact ⟨hp, hc⟩
    | some kept =>
      -- whoever kept it, it is what the method would answer now
      simp only [advance, hget, hfind]
      exact ⟨(hfound kept hfind).uncached_eq, hc⟩
  | missed m =>
    have hmem := mem_of_methodOf hp
    rcases hask : (m.resolve did r.options).run w with ⟨answer, w'⟩
    have hanswer : answer = ((m.resolve did r.options).run w).1 := by rw [hask]
    -- the world may have changed since the resolution began, but not the answer
    cases hlimit : r.exceeded? answer with
    | some limit =>
      simp only [advance, hask, hlimit]
      refine ⟨fun v => uncached_of_exceeded hp ?_, hc⟩
      rw [hr.inTime m hmem did v w, ← hanswer, hlimit]
    | none =>
      simp only [advance, hask, hlimit]
      refine ⟨⟨m, hp, fun v => ⟨?_, ?_⟩⟩, hc⟩
      · rw [hr.result m hmem did v w, ← hanswer]
      · rw [hr.inTime m hmem did v w, ← hanswer, hlimit]
  | answered v =>
    -- what the cache holds by now does not matter: the new entry is right by itself
    have hset : ResultCache.set did v c = (.ok (), c.insert did v) := rfl
    simp only [advance, hset]
    exact ⟨IsAnswer.uncached_eq hp, hc.insert hp⟩
  | finished o => exact ⟨hp, hc⟩
  | returned o => exact ⟨hp, hc⟩

/-- The shared cache and every resolution are sound. -/
structure Sound (r : Resolver ω) (dids : ι → String) (s : Traffic ω ι) : Prop where
  /-- The cache. -/
  cache : r.CacheSound s.cache
  /-- Each resolution. -/
  phase : ∀ i, r.PhaseSound (dids i) (s.phase i)

namespace Sound

variable {r : Resolver ω} {dids : ι → String} {s : Traffic ω ι}

theorem start (w : ω) : Sound r dids (Traffic.start w) where
  cache := ⟨rfl, fun _ he => absurd he List.not_mem_nil⟩
  phase _ := trivial

variable [DecidableEq ι]

/-- **No event breaks anything**, be it a step of a resolution or something that is done to the
cache. -/
theorem happen (hr : r.IsFunctional) (h : Sound r dids s) (e : Event ι) :
    Sound r dids (s.happen r dids e) := by
  cases e with
  | step i =>
    obtain ⟨hphase, hcache⟩ := advance_sound hr (w := s.world) (h.phase i) h.cache
    refine ⟨hcache, fun j => ?_⟩
    by_cases hij : j = i
    · subst hij
      rw [Traffic.happen]
      simpa using hphase
    · rw [Traffic.happen]
      simpa [hij] using h.phase j
  | delete key => exact ⟨h.cache.erase key, h.phase⟩
  | clear => exact ⟨h.cache.empty, h.phase⟩
  | close => exact ⟨h.cache.empty, h.phase⟩
  | wait d => exact ⟨h.cache.wait d, h.phase⟩

/-- **No run breaks anything.** -/
theorem run (hr : r.IsFunctional) (h : Sound r dids s) (events : List (Event ι)) :
    Sound r dids (s.run r dids events) := by
  induction events generalizing s with
  | nil => exact h
  | cons e events ih => exact ih (h.happen hr e)

end Sound

/-! ### How soon a resolution returns -/

/-- The steps that a resolution has left at most. -/
def Phase.left : Phase ω → Nat
  | .begun => 5
  | .known _ => 4
  | .missed _ => 3
  | .answered _ => 2
  | .finished _ => 1
  | .returned _ => 0

theorem Phase.eq_returned_of_left {p : Phase ω} (h : p.left = 0) : ∃ o, p = .returned o := by
  cases p with
  | returned o => exact ⟨o, rfl⟩
  | _ => cases h

theorem left_advance [ResultCache κ] (r : Resolver ω) (did : String) (p : Phase ω) (s : ω × κ) :
    (r.advance did p s).1.left ≤ p.left - 1 := by
  obtain ⟨w, c⟩ := s
  cases p with
  | begun => cases hm : r.methodOf did <;> simp [advance, hm, Phase.left]
  | known m =>
    rcases hget : ResultCache.get did c with ⟨f | _ | kept, c'⟩ <;>
      simp [advance, hget, Phase.left]
  | missed m =>
    rcases hask : (m.resolve did r.options).run w with ⟨answer, w'⟩
    cases hlimit : r.exceeded? answer <;> simp [advance, hask, hlimit, Phase.left]
  | answered v =>
    rcases hset : ResultCache.set did v c with ⟨f | ⟨⟩, c'⟩ <;> simp [advance, hset, Phase.left]
  | finished o => exact Nat.le_refl 0
  | returned o => exact Nat.le_refl 0

namespace Traffic

variable [DecidableEq ι]

theorem left_happen (r : Resolver ω) (dids : ι → String) (s : Traffic ω ι) (e : Event ι) (i : ι) :
    ((s.happen r dids e).phase i).left ≤ (s.phase i).left - [e].count (.step i) := by
  cases e with
  | step j =>
    by_cases hij : i = j
    · subst hij
      simpa [happen] using left_advance r (dids i) (s.phase i) (s.world, s.cache)
    · simp [happen, hij, Ne.symm hij]
  | _ => simp [happen, touch]

/-- Every step of a resolution brings it nearer to its end, whatever comes in between. -/
theorem left_run (r : Resolver ω) (dids : ι → String) (s : Traffic ω ι) (events : List (Event ι))
    (i : ι) : ((s.run r dids events).phase i).left ≤ (s.phase i).left - events.count (.step i) := by
  induction events generalizing s with
  | nil => exact Nat.le_refl _
  | cons e events ih =>
    calc ((s.run r dids (e :: events)).phase i).left
      _ ≤ ((s.happen r dids e).phase i).left - events.count (.step i) := ih _
      _ ≤ (s.phase i).left - [e].count (.step i) - events.count (.step i) :=
        Nat.sub_le_sub_right (left_happen r dids s e i) _
      _ = (s.phase i).left - (e :: events).count (.step i) := by
        rw [Nat.sub_sub, ← List.count_append, List.singleton_append]

end Traffic

/-! ### Nobody sees the cache -/

/-- **A shared cache changes no result.** Whatever the order in which the resolutions of some DIDs
take their steps, and whatever is deleted and cleared meanwhile: a resolution that returns has the
result that it has without a cache, or the failure, which is about the DID or its method; a
resolution that takes five steps returns; and the cache holds nothing but what the methods answer to
the keys. -/
theorem returned_eq_noCache [DecidableEq ι] {r : Resolver ω} (hr : r.IsFunctional) (dids : ι → String)
    (w : ω) (events : List (Event ι)) :
    let s := (Traffic.start w).run r dids events
    (∀ i o, s.phase i = .returned o →
      (∀ w', (r.resolveOrFail (dids i) (w', NoCache.mk)).1 = o) ∧
        ∀ f, o = .error f → f.code = .invalidDid ∨ f.code = .methodNotSupported) ∧
      (∀ i, 5 ≤ events.count (.step i) → ∃ o, s.phase i = .returned o) ∧
      ∀ e ∈ s.cache.entries, ∃ m, r.methodOf e.1 = .ok m ∧
        ∀ w', ((m.resolve e.1 r.options).run w').1.result = e.2.result := by
  have hsound := (Sound.start w : Sound r dids _).run hr events
  refine ⟨fun i o ho => ?_, fun i hi => ?_, fun e he => ?_⟩
  · have hphase := hsound.phase i
    rw [ho] at hphase
    refine ⟨hphase, ?_⟩
    rintro f rfl
    exact code_of_uncached (hphase w)
  · have hleft : _ ≤ 5 - _ := Traffic.left_run r dids (Traffic.start w) events i
    exact Phase.eq_returned_of_left (by omega)
  · obtain ⟨m, hm, hanswer⟩ := hsound.cache.entries e he
    exact ⟨m, hm, fun w' => (hanswer w').1⟩

/-- A resolver for the key method, which needs to know nothing of the world. -/
theorem isFunctional_keyMethod (options : KeyOptions) (timeout : Option Duration) :
    IsFunctional { methods := [(KeyMethod.didMethod options : DidMethod ω)], timeout } where
  result m hm did w w' := by
    obtain rfl := List.mem_singleton.mp hm
    rfl
  inTime m hm did w w' := by
    obtain rfl := List.mem_singleton.mp hm
    rfl

/-- Two resolutions that both miss. What the first one keeps is deleted before the second one keeps
the same again. -/
def race : List (Event Bool) :=
  [.step false, .step true, .step false, .step true, .step false, .step true, .step false,
    .delete "did:key:zero", .step true, .clear, .step true, .step false]

theorem returned_eq_noCache_race : ∃ o,
    ((Traffic.start ()).run { methods := [KeyMethod.didMethod {}] } (fun _ => "did:key:zero")
      race).phase false = .returned o ∧
    ((Traffic.start ()).run { methods := [KeyMethod.didMethod {}] } (fun _ => "did:key:zero")
      race).phase true = .returned o := by
  have hrace := returned_eq_noCache (@isFunctional_keyMethod Unit {} none)
    (fun _ => "did:key:zero") () race
  obtain ⟨hresult, hreturned, -⟩ := hrace
  obtain ⟨o, ho⟩ := hreturned false (by decide)
  obtain ⟨o', ho'⟩ := hreturned true (by decide)
  have hsame : o' = o := ((hresult true o' ho').1 ()).symm.trans ((hresult false o ho).1 ())
  exact ⟨o, ho, hsame ▸ ho'⟩

end DidMethods.Resolver
