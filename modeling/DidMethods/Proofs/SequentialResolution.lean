import DidMethods.Proofs.Lookup
import DidMethods.Proofs.ResolverRequests

/-!
# Which calls a resolver makes

Requests are served one after the other, and every call of a method is written down as it is made
(`DidMethods.Resolver.recorded`; to write them down changes nothing,
`DidMethods.Resolver.recorded_perform`). What a request should come to can be told from the reports
on the requests before it (`DidMethods.Report.Conforms`): a DID that was stored and has not been
forgotten since (`DidMethods.Resolver.Stored`) is not asked for again, and any other one is asked
for once, as it was given, of the method that was last registered under its name.

With a cache in memory the entries are at any time what was stored and not forgotten
(`DidMethods.Resolver.Remembers`); each request preserves this, and this is all that the answer to
the next one depends on. A cache whose entries are too old at once is as good as none.
-/

namespace DidMethods

variable {ω κ : Type}

/-! ### Writing down the calls -/

/-- The method, with its calls written down. -/
def DidMethod.recorded (m : DidMethod ω) : DidMethod (ω × List (MethodCall ω)) where
  name := m.name
  resolve did options := fun (w, log) =>
    let (answer, w) := (m.resolve did options).run w
    (answer, (w, log ++ [⟨m, did, options, answer⟩]))

/-- The report on a request. -/
structure Report (ω : Type) where
  /-- The request. -/
  request : Request
  /-- The world in which it was made. -/
  world : ω
  /-- What came back. -/
  reply : Reply
  /-- The calls that it made. -/
  calls : List (MethodCall ω)

namespace Resolver

/-- The resolver, with the calls of its methods written down. -/
def recorded (r : Resolver ω) : Resolver (ω × List (MethodCall ω)) where
  methods := r.methods.map DidMethod.recorded
  timeout := r.timeout
  options := r.options

section Reports

variable [LawfulCache κ]

/-- The report on a request. -/
def report (r : Resolver ω) (q : Request) (s : ω × κ) : Report ω where
  request := q
  world := s.1
  reply := (r.recorded.perform q ((s.1, []), s.2)).1
  calls := (r.recorded.perform q ((s.1, []), s.2)).2.1.2

/-- The reports on some requests, one after the other. -/
def reports (r : Resolver ω) : List Request → ω × κ → List (Report ω)
  | [], _ => []
  | q :: requests, s => r.report q s :: r.reports requests (r.perform q s).2

end Reports

variable {r : Resolver ω} {m : DidMethod ω} {did : String} {parsed : Did}

theorem find?_recorded (r : Resolver ω) (name : String) :
    r.recorded.find? name = (r.find? name).map DidMethod.recorded := by
  rw [find?, find?, recorded, ← List.map_reverse, List.find?_map]
  rfl

theorem methodOf_recorded (r : Resolver ω) (did : String) :
    r.recorded.methodOf did = (r.methodOf did).map DidMethod.recorded := by
  rw [methodOf, methodOf]
  rcases Did.parse did with f | parsed
  · rfl
  · rw [Outcome.ok_bind, Outcome.ok_bind, find?_recorded]
    cases r.find? parsed.method <;> rfl

theorem methodOf_recorded_of_ok (h : r.methodOf did = .ok m) :
    r.recorded.methodOf did = .ok m.recorded := by
  rw [methodOf_recorded, h]
  rfl

/-- A method answers as ever when its calls are written down. -/
theorem ask_recorded {options : ResolutionOptions} {answer : Answer} {w w' : ω}
    (hask : (m.resolve did options).run w = (answer, w')) (log : List (MethodCall ω)) :
    (m.recorded.resolve did options).run (w, log) =
      (answer, (w', log ++ [⟨m, did, options, answer⟩])) := by
  have hrun : (m.recorded.resolve did options).run (w, log) =
      (((m.resolve did options).run w).1, (((m.resolve did options).run w).2,
        log ++ [⟨m, did, options, ((m.resolve did options).run w).1⟩])) := rfl
  rw [hrun, hask]

/-! ### What a resolution should come to -/

/-- What a resolution in a world should come to and which calls it should make, when these are the
results that are stored for the DID. -/
inductive Handled (r : Resolver ω) (stored : Resolution → Prop) (did : String) (w : ω) :
    Outcome Resolution → List (MethodCall ω) → Prop where
  /-- The text is no DID. -/
  | unparsed (hparse : Did.parse? did = none) :
      Handled r stored did w (fail .invalidDid s!"invalid DID: {did}") []
  /-- No method is registered under the name. -/
  | unregistered {parsed : Did} (hparse : Did.parse? did = some parsed)
      (hnone : ∀ m ∈ r.methods, m.name ≠ parsed.method) :
      Handled r stored did w (fail .methodNotSupported s!"no resolver for {parsed.method}") []
  /-- There is a stored result. -/
  | reused {parsed : Did} {m : DidMethod ω} {v : Resolution} (hparse : Did.parse? did = some parsed)
      (hlast : r.IsLast parsed.method m) (hstored : stored v) :
      Handled r stored did w (.ok v) []
  /-- Nothing is stored. -/
  | asked {parsed : Did} {m : DidMethod ω} {answer : Answer} (hparse : Did.parse? did = some parsed)
      (hlast : r.IsLast parsed.method m) (hstored : ∀ v, ¬ stored v)
      (hanswer : ((m.resolve did r.options).run w).1 = answer) :
      Handled r stored did w (.ok (r.awaited answer)) [⟨m, did, r.options, answer⟩]

section Course

variable [LawfulCache κ] {w w' : ω} {c c' : κ} {o : Outcome Resolution}
  {calls : List (MethodCall ω)}

/-- **The calls of a resolution are written down, and nothing else changes.** -/
theorem Course.recorded_eq (h : r.Course did (w, c) o calls (w', c')) (log : List (MethodCall ω)) :
    r.recorded.resolveOrFail did ((w, log), c) = (o, ((w', log ++ calls), c')) := by
  cases h with
  | refused hmethod =>
    rw [List.append_nil]
    refine resolveOrFail_of_error ?_ _
    rw [methodOf_recorded, hmethod]
    rfl
  | found hmethod hget hheld =>
    rw [List.append_nil]
    exact (Course.found (methodOf_recorded_of_ok hmethod) hget hheld).resolveOrFail_eq
  | late hmethod hget hask hlimit =>
    have hrecorded := ask_recorded hask log
    exact (Course.late (methodOf_recorded_of_ok hmethod) hget hrecorded hlimit).resolveOrFail_eq
  | answered hmethod hget hask hlimit hset =>
    have hrecorded := ask_recorded hask log
    exact (Course.answered (methodOf_recorded_of_ok hmethod) hget hrecorded hlimit
      hset).resolveOrFail_eq

/-- **A resolution comes to what it should**, the stored result being what the cache gives back. -/
theorem Course.handled (h : r.Course did (w, c) o calls (w', c')) {kept : Option Resolution}
    {c₁ : κ} (hkept : ResultCache.get did c = (.ok kept, c₁)) :
    r.Handled (fun v => kept = some v) did w o calls := by
  cases h with
  | @refused f _ hmethod =>
    rcases methodOf_eq_error.mp hmethod with ⟨hparse, rfl⟩ | ⟨parsed, hparse, hnone, rfl⟩
    · exact .unparsed hparse
    · exact .unregistered hparse hnone
  | @found m v _ _ _ hmethod hget hheld =>
    obtain ⟨parsed, hparse, hlast⟩ := methodOf_eq_ok.mp hmethod
    rw [hget] at hkept
    cases hkept
    exact .reused hparse hlast rfl
  | @late m answer limit _ _ _ _ hmethod hget hask hlimit =>
    obtain ⟨parsed, hparse, hlast⟩ := methodOf_eq_ok.mp hmethod
    rw [hget] at hkept
    cases hkept
    rw [← awaited_of_exceeded hlimit]
    exact .asked hparse hlast (by simp) (by rw [hask])
  | @answered m answer _ _ _ _ _ hmethod hget hask hlimit hset =>
    obtain ⟨parsed, hparse, hlast⟩ := methodOf_eq_ok.mp hmethod
    rw [hget] at hkept
    cases hkept
    rw [← awaited_of_inTime hlimit]
    exact .asked hparse hlast (by simp) (by rw [hask])

end Course

end Resolver

/-! ### What a request should come to -/

/-- After this request nothing is stored under the key. -/
def Request.Forgets : Request → String → Prop
  | .delete key, d => key = d
  | .clear, _ => True
  | .close, _ => True
  | _, _ => False

namespace Report

/-- A request has come to what it should and has made the calls that it should, when these are the
results that are stored for each DID. -/
inductive Conforms (r : Resolver ω) (stored : String → Resolution → Prop) : Report ω → Prop where
  /-- A DID was resolved. -/
  | resolved {did : String} {w : ω} {o : Outcome Resolution} {calls : List (MethodCall ω)}
      (h : r.Handled (stored did) did w o calls) :
      Conforms r stored ⟨.resolve did, w, .resolution o, calls⟩
  /-- The bare DID of a DID URL was resolved, and the resource was looked up in the document. -/
  | dereferenced {url : String} {parsed : Did} {w : ω} {o : Outcome Resolution}
      {calls : List (MethodCall ω)} (hparse : Did.parse? url = some parsed)
      (h : r.Handled (stored parsed.uri) parsed.uri w o calls) :
      Conforms r stored ⟨.dereference url, w,
        .resource (o >>= fun result => result.documentOf parsed.uri >>= fun d => d.resource parsed),
        calls⟩
  /-- The text was no DID URL. -/
  | unparsed {url : String} {w : ω} (hparse : Did.parse? url = none) :
      Conforms r stored
        ⟨.dereference url, w, .resource (fail .invalidDidUrl s!"invalid DID URL: {url}"), []⟩
  /-- An entry of the cache was deleted. -/
  | deleted {key : String} {w : ω} : Conforms r stored ⟨.delete key, w, .done (.ok ()), []⟩
  /-- The cache was cleared. -/
  | cleared {w : ω} : Conforms r stored ⟨.clear, w, .done (.ok ()), []⟩
  /-- The cache was closed. -/
  | closed {w : ω} : Conforms r stored ⟨.close, w, .done (.ok ()), []⟩
  /-- Some time passed. -/
  | waited {d : Duration} {w : ω} : Conforms r stored ⟨.wait d, w, .done (.ok ()), []⟩

/-- The request stores a result for a DID: it has called the method, which has answered in time. -/
def Stores (r : Resolver ω) (e : Report ω) (did : String) (v : Resolution) : Prop :=
  ∃ call ∈ e.calls, call.did = did ∧ r.exceeded? call.answer = none ∧ call.answer.result = v

theorem not_stores_of_calls {r : Resolver ω} {e : Report ω} (h : e.calls = []) (did : String)
    (v : Resolution) : ¬ e.Stores r did v := by
  simp [Stores, h]

/-- A DID is asked for only where nothing is stored for it. -/
theorem Conforms.not_stored {r : Resolver ω} {stored : String → Resolution → Prop} {e : Report ω}
    (h : e.Conforms r stored) {call : MethodCall ω} (hcall : call ∈ e.calls) (v : Resolution) :
    ¬ stored call.did v := by
  have hhandled : ∀ {did w o calls}, r.Handled (stored did) did w o calls → call ∈ calls →
      ¬ stored call.did v := by
    intro did w o calls h hcall
    cases h with
    | asked _ _ hstored =>
      obtain rfl := List.mem_singleton.mp hcall
      exact hstored v
    | _ => exact absurd hcall List.not_mem_nil
  cases h with
  | resolved h => exact hhandled h hcall
  | dereferenced _ h => exact hhandled h hcall
  | _ => exact absurd hcall List.not_mem_nil

end Report

namespace Resolver

/-- A result was stored for a DID, and since then the DID has not been forgotten. -/
def Stored (r : Resolver ω) (history : List (Report ω)) (did : String) (v : Resolution) : Prop :=
  ∃ before e after, history = before ++ e :: after ∧ e.Stores r did v ∧
    ∀ e' ∈ after, ¬ e'.request.Forgets did

/-- What is stored after one more request. -/
theorem stored_concat {r : Resolver ω} {history : List (Report ω)} {e : Report ω} {did : String}
    {v : Resolution} :
    r.Stored (history ++ [e]) did v ↔
      e.Stores r did v ∨ (¬ e.request.Forgets did ∧ r.Stored history did v) := by
  constructor
  · rintro ⟨before, e₀, after, hhistory, hstores, hafter⟩
    rcases List.eq_nil_or_concat after with rfl | ⟨after, last, rfl⟩
    · obtain ⟨rfl, hlast⟩ := List.append_inj' hhistory rfl
      obtain rfl := List.singleton_inj.mp hlast
      exact Or.inl hstores
    · rw [List.concat_eq_append, ← List.cons_append, ← List.append_assoc] at hhistory
      obtain ⟨rfl, hlast⟩ := List.append_inj' hhistory rfl
      obtain rfl := List.singleton_inj.mp hlast
      refine Or.inr ⟨hafter _ (by simp), before, e₀, after, rfl, hstores, fun e' he' => ?_⟩
      exact hafter e' (by simp [he'])
  · rintro (hstores | ⟨hkeeps, before, e₀, after, rfl, hstores, hafter⟩)
    · exact ⟨history, e, [], rfl, hstores, fun e' he' => absurd he' List.not_mem_nil⟩
    · refine ⟨before, e₀, after ++ [e], by simp, hstores, fun e' he' => ?_⟩
      rcases List.mem_append.mp he' with he' | he'
      · exact hafter e' he'
      · obtain rfl := List.mem_singleton.mp he'
        exact hkeeps

/-! ### One request -/

section Report

variable [LawfulCache κ] {r : Resolver ω} {did url : String} {parsed : Did} {w w' : ω} {c c' : κ}
  {o : Outcome Resolution} {calls : List (MethodCall ω)}

theorem report_resolve (h : r.Course did (w, c) o calls (w', c')) :
    r.report (.resolve did) (w, c) = ⟨.resolve did, w, .resolution o, calls⟩ := by
  rw [report, perform, h.recorded_eq]
  rfl

theorem report_dereference (hparse : Did.parse? url = some parsed)
    (h : r.Course parsed.uri (w, c) o calls (w', c')) :
    r.report (.dereference url) (w, c) = ⟨.dereference url, w,
      .resource (o >>= fun result => result.documentOf parsed.uri >>= fun d => d.resource parsed),
      calls⟩ := by
  rw [report, perform, dereference_of_parse? hparse, h.recorded_eq]
  rfl

theorem report_dereference_of_not_parse? (hparse : Did.parse? url = none) :
    r.report (.dereference url) (w, c) =
      ⟨.dereference url, w, .resource (fail .invalidDidUrl s!"invalid DID URL: {url}"), []⟩ := by
  rw [report, perform, dereference_of_not_parse? hparse]

/-- **To write down the calls changes nothing else.** -/
theorem recorded_perform (r : Resolver ω) (q : Request) (s : ω × κ) (log : List (MethodCall ω)) :
    r.recorded.perform q ((s.1, log), s.2) =
      ((r.perform q s).1,
        (((r.perform q s).2.1, log ++ (r.report q s).calls), (r.perform q s).2.2)) := by
  obtain ⟨w, c⟩ := s
  cases q with
  | resolve did =>
    obtain ⟨calls, h⟩ := r.exists_course did (w, c)
    rw [report_resolve h, perform, perform, h.recorded_eq]
  | dereference url =>
    cases hparse : Did.parse? url with
    | none =>
      rw [report_dereference_of_not_parse? hparse, perform, perform,
        dereference_of_not_parse? hparse, dereference_of_not_parse? hparse, List.append_nil]
    | some parsed =>
      obtain ⟨calls, h⟩ := r.exists_course parsed.uri (w, c)
      rw [report_dereference hparse h, perform, perform, dereference_of_parse? hparse,
        dereference_of_parse? hparse, h.recorded_eq]
  | delete _ | clear | close | wait _ =>
    -- no method is called, and the log stays as it is
    exact congrArg (fun calls => (_, ((_, calls), _))) (List.append_nil log).symm

/-- **A request comes to what it should**, the stored results being what the cache gives back. -/
theorem report_conforms (r : Resolver ω) (q : Request) {w : ω} {c : κ}
    (kept : String → Option Resolution)
    (hkept : ∀ did, ∃ c', ResultCache.get did c = (.ok (kept did), c')) :
    (r.report q (w, c)).Conforms r fun did v => kept did = some v := by
  cases q with
  | resolve did =>
    obtain ⟨calls, h⟩ := r.exists_course did (w, c)
    obtain ⟨c', hget⟩ := hkept did
    rw [report_resolve h]
    exact .resolved (h.handled hget)
  | dereference url =>
    cases hparse : Did.parse? url with
    | none =>
      rw [report_dereference_of_not_parse? hparse]
      exact .unparsed hparse
    | some parsed =>
      obtain ⟨calls, h⟩ := r.exists_course parsed.uri (w, c)
      obtain ⟨c', hget⟩ := hkept parsed.uri
      rw [report_dereference hparse h]
      exact .dereferenced hparse (h.handled hget)
  | delete key =>
    obtain ⟨c', hdelete, -⟩ := LawfulCache.delete_lawful key c
    rw [report, perform, perform.touch, hdelete]
    exact .deleted
  | clear =>
    obtain ⟨c', hclear, -⟩ := LawfulCache.clear_lawful c
    rw [report, perform, perform.touch, hclear]
    exact .cleared
  | close =>
    obtain ⟨c', hclose, -⟩ := LawfulCache.close_lawful c
    rw [report, perform, perform.touch, hclose]
    exact .closed
  | wait d => exact .waited

end Report

end Resolver

/-! ### What a cache in memory gives back -/

namespace MemoryCache

variable {c : MemoryCache} {key d : String} {v : Resolution}

theorem get_eq_find (c : MemoryCache) (key : String) :
    ResultCache.get key c = (.ok (c.find key).1, (c.find key).2) := rfl

/-- Entries that expire at once are never found. -/
theorem find_of_zero_lifetime (h : c.lifetime = some .zero) (key : String) :
    (c.find key).1 = none := by
  rw [find]
  cases c.entries.lookup key with
  | none => rfl
  | some e =>
    have hexpired : c.isExpired e = true := by
      rw [isExpired, h]
      exact decide_eq_true (Nat.zero_le _)
    simp only [hexpired, if_true]

theorem lifetime_find (c : MemoryCache) (key : String) :
    (c.find key).2.lifetime = c.lifetime := by
  rw [find]
  cases c.entries.lookup key with
  | none => rfl
  | some e => cases h : c.isExpired e <;> simp only [h, if_true] <;> rfl

theorem kept_erase : (c.erase key).kept d = if d = key then none else c.kept d := by
  rw [kept, kept, erase]
  split
  · next h => rw [h, lookup_filter_self, Option.map_none]
  · next h => rw [lookup_filter_ne h]

theorem kept_insert : (c.insert key v).kept d = if d = key then some v else c.kept d := by
  rw [kept, insert, List.lookup_cons]
  by_cases h : d = key
  · rw [beq_iff_eq.mpr h, if_pos h, Option.map_some]
  · rw [beq_false_of_ne h, if_neg h]
    exact kept_erase.trans (if_neg h)

end MemoryCache

namespace Resolver

/-- The cache is what it should be after some requests: its entries do not grow old, and they are
the results that are stored. -/
structure Remembers (r : Resolver ω) (history : List (Report ω)) (c : MemoryCache) : Prop where
  /-- There is no limit on the age of an entry. -/
  lifetime : c.lifetime = none
  /-- What is kept is what was stored and not forgotten. -/
  kept : ∀ did v, c.kept did = some v ↔ r.Stored history did v

namespace Remembers

variable {r : Resolver ω} {history : List (Report ω)} {c : MemoryCache}

theorem start (r : Resolver ω) : r.Remembers [] {} where
  lifetime := rfl
  kept did v := by
    refine ⟨nofun, ?_⟩
    rintro ⟨before, e, after, h, -⟩
    simp at h

theorem get_eq (h : r.Remembers history c) (did : String) :
    ResultCache.get did c = (.ok (c.kept did), c) := by
  rw [c.get_eq_find, MemoryCache.find_of_no_lifetime h.lifetime]

/-- After a request that stores nothing all is kept that is not forgotten. -/
theorem of_not_stores (h : r.Remembers history c) {e : Report ω} (c' : MemoryCache)
    (hstores : ∀ did v, ¬ e.Stores r did v) (hlifetime : c'.lifetime = none)
    (hforgotten : ∀ did, e.request.Forgets did → c'.kept did = none)
    (hkept : ∀ did, ¬ e.request.Forgets did → c'.kept did = c.kept did) :
    r.Remembers (history ++ [e]) c' where
  lifetime := hlifetime
  kept did v := by
    rw [stored_concat, ← h.kept]
    by_cases hdid : e.request.Forgets did
    · simp [hstores, hdid, hforgotten did hdid]
    · simp [hstores, hdid, hkept did hdid]

/-- After a request that stores and forgets nothing all is as before. -/
theorem of_idle (h : r.Remembers history c) {e : Report ω} (hstores : ∀ did v, ¬ e.Stores r did v)
    (hforgets : ∀ did, ¬ e.request.Forgets did) : r.Remembers (history ++ [e]) c :=
  h.of_not_stores c hstores h.lifetime (fun did hdid => absurd hdid (hforgets did)) fun _ _ => rfl

/-- A resolution keeps what it has been answered in time, and nothing else. -/
theorem of_course (h : r.Remembers history c) {did : String} {w w' : ω} {c' : MemoryCache}
    {o : Outcome Resolution} {calls : List (MethodCall ω)}
    (hcourse : r.Course did (w, c) o calls (w', c')) {e : Report ω} (hcalls : e.calls = calls)
    (hforgets : ∀ did, ¬ e.request.Forgets did) : r.Remembers (history ++ [e]) c' := by
  have hget := h.get_eq did
  cases hcourse with
  | refused => exact h.of_idle (Report.not_stores_of_calls hcalls) hforgets
  | found _ hfound =>
    obtain rfl := (Prod.mk.inj (hget.symm.trans hfound)).2
    exact h.of_idle (Report.not_stores_of_calls hcalls) hforgets
  | late _ hmiss _ hlimit =>
    obtain rfl := (Prod.mk.inj (hget.symm.trans hmiss)).2
    exact h.of_idle (by simp [Report.Stores, hcalls, hlimit]) hforgets
  | @answered m answer _ _ _ _ _ _ hmiss _ hlimit hset =>
    obtain rfl := (Prod.mk.inj (hget.symm.trans hmiss)).2
    obtain rfl : c.insert did answer.result = c' := (Prod.mk.inj hset).2
    refine ⟨h.lifetime, fun d v => ?_⟩
    have hstores : e.Stores r d v ↔ did = d ∧ answer.result = v := by
      simp [Report.Stores, hcalls, hlimit]
    have hkept : c.kept did = none := Except.ok.inj (Prod.mk.inj (hget.symm.trans hmiss)).1
    rw [MemoryCache.kept_insert, stored_concat, hstores, ← h.kept]
    by_cases hd : d = did
    · subst hd
      simp [hkept]
    · simp [hd, Ne.symm hd, hforgets]

/-- **Every request leaves the cache as it should be.** -/
theorem perform (h : r.Remembers history c) (q : Request) (w : ω) :
    r.Remembers (history ++ [r.report q (w, c)]) (r.perform q (w, c)).2.2 := by
  cases q with
  | resolve did =>
    obtain ⟨calls, hcourse⟩ := r.exists_course did (w, c)
    exact h.of_course hcourse (by rw [report_resolve hcourse]) fun _ => id
  | dereference url =>
    cases hparse : Did.parse? url with
    | none =>
      rw [report_dereference_of_not_parse? hparse, Resolver.perform,
        dereference_of_not_parse? hparse]
      exact h.of_idle (Report.not_stores_of_calls rfl) fun _ => id
    | some parsed =>
      obtain ⟨calls, hcourse⟩ := r.exists_course parsed.uri (w, c)
      rw [report_dereference hparse hcourse, Resolver.perform, dereference_of_parse? hparse]
      exact h.of_course hcourse rfl fun _ => id
  | delete key =>
    refine h.of_not_stores (c.erase key) (Report.not_stores_of_calls rfl) h.lifetime
      (fun did hdid => ?_) fun did hdid => ?_
    · exact MemoryCache.kept_erase.trans (if_pos hdid.symm)
    · exact MemoryCache.kept_erase.trans (if_neg fun heq => hdid heq.symm)
  | clear =>
    exact h.of_not_stores c.empty (Report.not_stores_of_calls rfl) h.lifetime
      (fun _ _ => rfl) fun _ hdid => absurd trivial hdid
  | close =>
    exact h.of_not_stores c.empty (Report.not_stores_of_calls rfl) h.lifetime
      (fun _ _ => rfl) fun _ hdid => absurd trivial hdid
  | wait d =>
    exact h.of_not_stores (c.wait d) (Report.not_stores_of_calls rfl) h.lifetime
      (fun _ hdid => hdid.elim) fun _ _ => rfl

theorem conforms (h : r.Remembers history c) (q : Request) (w : ω) :
    (r.report q (w, c)).Conforms r (r.Stored history) := by
  have hstored : (fun did v => c.kept did = some v) = r.Stored history := by
    funext did v
    exact propext (h.kept did v)
  rw [← hstored]
  exact r.report_conforms q c.kept fun did => ⟨c, h.get_eq did⟩

/-- **The cache is what it should be at any time**, and the requests that are still to come are
served with it. -/
theorem of_reports (h : r.Remembers history c) (requests : List Request) (w : ω)
    {before after : List (Report ω)} (hreports : r.reports requests (w, c) = before ++ after) :
    ∃ requests' w' c',
      r.Remembers (history ++ before) c' ∧ r.reports requests' (w', c') = after := by
  induction before generalizing history c w requests with
  | nil =>
    rw [List.append_nil]
    exact ⟨requests, w, c, h, hreports⟩
  | cons e before ih =>
    cases requests with
    | nil => exact absurd hreports (by simp [reports])
    | cons q requests =>
      obtain ⟨rfl, hrest⟩ := List.cons.inj hreports
      have hnext := ih (h.perform q w) requests (r.perform q (w, c)).2.1 hrest
      rwa [List.append_assoc] at hnext

/-- The next report is that on a request which was made when the cache was what it should be. -/
theorem conforms_of_reports {requests : List Request} {w : ω} (h : r.Remembers history c)
    {e : Report ω} {after : List (Report ω)} (hreports : r.reports requests (w, c) = e :: after) :
    e.Conforms r (r.Stored history) := by
  cases requests with
  | nil => exact absurd hreports (by simp [reports])
  | cons q requests =>
    obtain ⟨rfl, -⟩ := List.cons.inj hreports
    exact h.conforms q w

/-- For no DID two results are stored. -/
theorem stored_unique (h : r.Remembers history c) {did : String} {v v' : Resolution}
    (hv : r.Stored history did v) (hv' : r.Stored history did v') : v = v' :=
  Option.some.inj (((h.kept did v).mpr hv).symm.trans ((h.kept did v').mpr hv'))

end Remembers

/-! ### Caches that give nothing back -/

section Forgetful

variable {r : Resolver ω}

/-- With a cache that never gives anything back every request is served as if nothing had ever been
stored. -/
theorem reports_conform_of_get_none [LawfulCache κ] (good : κ → Prop)
    (hget : ∀ c did, good c → ∃ c', ResultCache.get did c = (.ok none, c'))
    (hperform : ∀ q (s : ω × κ), good s.2 → good (r.perform q s).2.2) (requests : List Request)
    {s : ω × κ} (hs : good s.2) {e : Report ω} (he : e ∈ r.reports requests s) :
    e.Conforms r fun _ _ => False := by
  induction requests generalizing s with
  | nil => exact absurd he List.not_mem_nil
  | cons q requests ih =>
    rcases List.mem_cons.mp he with rfl | he
    · have hconforms := r.report_conforms q (w := s.1) (fun _ => none) fun did =>
        hget s.2 did hs
      simpa using hconforms
    · exact ih (hperform q s hs) he

/-- No request changes how long entries are kept. -/
theorem lifetime_perform (r : Resolver ω) (q : Request) (s : ω × MemoryCache) :
    (r.perform q s).2.2.lifetime = s.2.lifetime := by
  have hget : ∀ {did o} {c c' : MemoryCache}, ResultCache.get did c = (o, c') →
      c'.lifetime = c.lifetime := by
    rintro did o c c' ⟨⟩
    exact c.lifetime_find did
  have hcourse : ∀ {did o calls} {s s' : ω × MemoryCache}, r.Course did s o calls s' →
      s'.2.lifetime = s.2.lifetime := by
    intro did o calls s s' h
    cases h with
    | refused => rfl
    | found _ hfound => exact hget hfound
    | late _ hmiss => exact hget hmiss
    | answered _ hmiss _ _ hset =>
      obtain ⟨⟩ := hset
      have hlifetime := hget hmiss
      exact hlifetime
  cases q with
  | resolve did =>
    obtain ⟨calls, h⟩ := r.exists_course did s
    exact hcourse h
  | dereference url =>
    cases hparse : Did.parse? url with
    | none => rw [perform, dereference_of_not_parse? hparse]
    | some parsed =>
      obtain ⟨calls, h⟩ := r.exists_course parsed.uri s
      rw [perform, dereference_of_parse? hparse]
      exact hcourse h
  | _ => rfl

end Forgetful

/-! ### All requests -/

/-- **Which calls a resolver makes.** Requests are served one after the other. To write down their
calls changes nothing. With a cache in memory whose entries do not grow old, each request comes to
what it should after those before it: a result that was stored and not forgotten since comes back
without a call, whatever it is, and otherwise the method is called once, the last one of its name,
with the DID as it was given. So a DID that is stored is not asked for again before it is forgotten.
With entries that expire at once, or without a cache, every request is served as if nothing had been
stored. A text that is no DID, or whose method is not known, touches no cache whatsoever. -/
theorem reports_conform (r : Resolver ω) (requests : List Request) (w : ω) :
    (∀ (κ : Type) [LawfulCache κ] (q : Request) (s : ω × κ) (log : List (MethodCall ω)),
      r.recorded.perform q ((s.1, log), s.2) =
        ((r.perform q s).1,
          (((r.perform q s).2.1, log ++ (r.report q s).calls), (r.perform q s).2.2))) ∧
    (∀ before e after, r.reports requests (w, ({} : MemoryCache)) = before ++ e :: after →
      e.Conforms r (r.Stored before) ∧
        ∀ did v v', r.Stored before did v → r.Stored before did v' → v = v') ∧
    (∀ before e between e' after did v,
      r.reports requests (w, ({} : MemoryCache)) = before ++ e :: between ++ e' :: after →
      e.Stores r did v → (∀ x ∈ between, ¬ x.request.Forgets did) →
      ∀ call ∈ e'.calls, call.did ≠ did) ∧
    (∀ e ∈ r.reports requests (w, ({ lifetime := some .zero } : MemoryCache)),
      e.Conforms r fun _ _ => False) ∧
    (∀ e ∈ r.reports requests (w, NoCache.mk), e.Conforms r fun _ _ => False) ∧
    ∀ (κ : Type) [ResultCache κ] (did : String) (s : ω × κ),
      (∀ parsed, Did.parse? did = some parsed → ∀ m ∈ r.methods, m.name ≠ parsed.method) →
      ∃ f, r.resolveOrFail did s = (.error f, s) := by
  have hmemory : ∀ {before e after},
      r.reports requests (w, ({} : MemoryCache)) = before ++ e :: after →
      e.Conforms r (r.Stored before) ∧
        ∀ did v v', r.Stored before did v → r.Stored before did v' → v = v' := by
    intro before e after hreports
    obtain ⟨_, _, _, hremembers, hrest⟩ := (Remembers.start r).of_reports requests w hreports
    exact ⟨hremembers.conforms_of_reports hrest, fun _ _ _ => hremembers.stored_unique⟩
  refine ⟨fun κ _ q s log => r.recorded_perform q s log, fun _ _ _ => hmemory, ?_, ?_, ?_, ?_⟩
  · rintro before e between e' after _ v hreports hstores hbetween call hcall rfl
    exact (hmemory hreports).1.not_stored hcall v ⟨before, e, between, rfl, hstores, hbetween⟩
  · intro e he
    refine reports_conform_of_get_none (fun c => c.lifetime = some .zero)
      (fun c did hc => ?_) (fun q s hs => (r.lifetime_perform q s).trans hs) requests rfl he
    exact ⟨(c.find did).2, by rw [c.get_eq_find, MemoryCache.find_of_zero_lifetime hc]⟩
  · intro e he
    exact reports_conform_of_get_none (fun _ => True) (fun c _ _ => ⟨c, rfl⟩)
      (fun _ _ _ => trivial) requests trivial he
  · intro κ _ did s hunknown
    cases hparse : Did.parse? did with
    | none => exact ⟨_, resolveOrFail_of_error (methodOf_eq_error.mpr (Or.inl ⟨hparse, rfl⟩)) s⟩
    | some parsed =>
      have hmethod := methodOf_eq_error.mpr (Or.inr ⟨parsed, hparse, hunknown parsed hparse, rfl⟩)
      exact ⟨_, resolveOrFail_of_error hmethod s⟩

/-- A method that counts how often it is asked. -/
def counting : DidMethod Nat where
  name := "example"
  resolve _ _ := fun n => ({ result := {} }, n + 1)

/-- A DID of that method. -/
def counted : Did where
  uri := "did:example:a"
  url := "did:example:a"
  method := "example"
  id := "a"
  params := none
  path := none
  query := none
  fragment := none

theorem reports_conform_counting : ∃ e e',
    ({ methods := [counting] } : Resolver Nat).reports
      [.resolve counted.uri, .resolve counted.uri] (0, ({} : MemoryCache)) = [e, e'] ∧
    e.calls = [⟨counting, counted.uri, {}, { result := {} }⟩] ∧
    ∀ call ∈ e'.calls, call.did ≠ counted.uri := by
  have hmethod : ({ methods := [counting] } : Resolver Nat).methodOf counted.uri = .ok counting :=
    methodOf_eq_ok.mpr ⟨counted, by decide +kernel, [], [], rfl, rfl, by simp⟩
  have hcourse : Course _ _ (0, ({} : MemoryCache)) _ _ _ := .answered hmethod rfl rfl rfl rfl
  have hcalls := congrArg Report.calls (report_resolve hcourse)
  have hfirst := List.mem_of_mem_head? (congrArg List.head? hcalls)
  have hreports := reports_conform { methods := [counting] }
    [.resolve counted.uri, .resolve counted.uri] 0
  exact ⟨_, _, rfl, hcalls, hreports.2.2.1 [] _ [] _ [] counted.uri {} rfl
    ⟨_, hfirst, rfl, rfl, rfl⟩ (by simp)⟩

end Resolver

end DidMethods
