import DidMethods.Action

/-!
# Computations that can fail

What is known of a computation that was successful: each of its steps was
(`DidMethods.Outcome.bind_eq_ok`), and so was the step for each item of a list
(`DidMethods.Outcome.mapM_eq_ok`). The same holds where the steps change a state
(`DidMethods.Action.bind_eq_ok`). A reader that gives an optional result reads a list if it reads
each item (`DidMethods.mapM_map_eq_some`).

Of a failure, the code counts and the sentence does not: computations are compared by the one
(`DidMethods.Outcome.coded`), and it is said which codes there can be
(`DidMethods.Outcome.FailsOnly`). Where the sentence counts, too, computations are compared as they
are, with some relation between their results (`DidMethods.Outcome.Agree`). All of these go through
a computation step by step.
-/

namespace DidMethods

@[simp] theorem fail_ne_ok {α : Type} (c : Code) (s : String) (a : α) : fail c s ≠ .ok a :=
  nofun

/-- What is written item by item is read item by item. -/
theorem mapM_map_eq_some {α β γ : Type} {write : α → γ} {read : γ → Option β} {f : α → β}
    {items : List α} (h : ∀ a ∈ items, read (write a) = some (f a)) :
    (items.map write).mapM read = some (items.map f) := by
  induction items with
  | nil => rfl
  | cons a items ih =>
    obtain ⟨ha, hitems⟩ := List.forall_mem_cons.mp h
    rw [List.map_cons, List.mapM_cons, ha, ih hitems]
    rfl

namespace Outcome

variable {α β : Type}

/-- A successful computation was successful in each of its steps. -/
theorem bind_eq_ok {x : Outcome α} {f : α → Outcome β} {b : β} :
    x >>= f = .ok b ↔ ∃ a, x = .ok a ∧ f a = .ok b := by
  cases x with
  | error e => simp [bind, Except.bind]
  | ok a => simp [bind, Except.bind]

@[simp] theorem ok_bind (a : α) (f : α → Outcome β) : ((.ok a : Outcome α) >>= f) = f a := rfl

theorem map_eq_ok {x : Outcome α} {f : α → β} {b : β} :
    x.map f = .ok b ↔ ∃ a, x = .ok a ∧ f a = b := by
  cases x with
  | error e => simp [Except.map]
  | ok a => simp [Except.map]

/-- A condition that is checked holds where the check does not fail. -/
theorem ite_fail_eq_ok {p : Prop} [Decidable p] {c : Code} {s : String} {x : Outcome α} {a : α} :
    (if p then fail c s else x) = .ok a ↔ ¬ p ∧ x = .ok a := by
  by_cases hp : p
  · simp [hp]
  · simp [hp]

theorem orFail_eq_ok {c : Code} {s : String} {o : Option α} {a : α} :
    orFail c s o = .ok a ↔ o = some a := by
  cases o with
  | none => simp [orFail]
  | some b => simp [orFail]

theorem toOption_eq_some {x : Outcome α} {a : α} : x.toOption = some a ↔ x = .ok a := by
  cases x with
  | error f => simp [Except.toOption]
  | ok b => simp [Except.toOption]

/-- A list of results, item by item. -/
theorem mapM_eq_ok {f : α → Outcome β} {items : List α} {results : List β} :
    items.mapM f = .ok results ↔ items.map f = results.map .ok := by
  induction items generalizing results with
  | nil => cases results <;> simp [pure, Except.pure]
  | cons a items ih =>
    rw [List.mapM_cons, bind_eq_ok]
    cases results with
    | nil =>
      constructor
      · rintro ⟨b, -, h⟩
        obtain ⟨more, -, h⟩ := bind_eq_ok.mp h
        cases h
      · exact fun h => absurd h (by simp)
    | cons b results =>
      rw [List.map_cons, List.map_cons, List.cons.injEq, ← ih]
      constructor
      · rintro ⟨c, hc, h⟩
        obtain ⟨more, hmore, h⟩ := bind_eq_ok.mp h
        obtain ⟨rfl, rfl⟩ := List.cons.inj (Except.ok.inj h)
        exact ⟨hc, hmore⟩
      · rintro ⟨hb, hmore⟩
        exact ⟨b, hb, bind_eq_ok.mpr ⟨results, hmore, rfl⟩⟩

/-- Every result is the result for an item. -/
theorem exists_of_mem_mapM {f : α → Outcome β} {items : List α} {results : List β}
    (h : items.mapM f = .ok results) {b : β} (hb : b ∈ results) : ∃ a ∈ items, f a = .ok b := by
  have hmem : (.ok b : Outcome β) ∈ items.map f := by
    rw [mapM_eq_ok.mp h]
    exact List.mem_map_of_mem hb
  obtain ⟨a, ha, hfa⟩ := List.mem_map.mp hmem
  exact ⟨a, ha, hfa⟩

/-- Every item has its result. -/
theorem exists_mem_of_mapM {f : α → Outcome β} {items : List α} {results : List β}
    (h : items.mapM f = .ok results) {a : α} (ha : a ∈ items) : ∃ b ∈ results, f a = .ok b := by
  have hmem : f a ∈ results.map .ok := by
    rw [← mapM_eq_ok.mp h]
    exact List.mem_map_of_mem ha
  obtain ⟨b, hb, hfa⟩ := List.mem_map.mp hmem
  exact ⟨b, hb, hfa.symm⟩

/-- A list of results fails where one of its items does. -/
theorem exists_of_mapM_eq_error {f : α → Outcome β} {items : List α} {e : Fault}
    (h : items.mapM f = .error e) : ∃ a ∈ items, f a = .error e := by
  induction items with
  | nil => cases h
  | cons a items ih =>
    rw [List.mapM_cons] at h
    cases ha : f a with
    | error e' =>
      rw [ha] at h
      obtain rfl := Except.error.inj h
      exact ⟨a, List.mem_cons_self, ha⟩
    | ok b =>
      rw [ha, ok_bind] at h
      cases hitems : items.mapM f with
      | error e' =>
        rw [hitems] at h
        obtain rfl := Except.error.inj h
        obtain ⟨a', ha', he⟩ := ih hitems
        exact ⟨a', List.mem_cons_of_mem a ha', he⟩
      | ok results =>
        rw [hitems] at h
        cases h

/-- A check of a list is a check of each item. -/
theorem forM_eq_ok {f : α → Outcome PUnit} {items : List α} :
    items.forM f = .ok () ↔ ∀ a ∈ items, f a = .ok () := by
  induction items with
  | nil => simp [pure, Except.pure]
  | cons a items ih =>
    have hcons : (a :: items).forM f = (f a >>= fun _ => items.forM f) := rfl
    rw [hcons, bind_eq_ok, List.forall_mem_cons, ← ih]
    constructor
    · rintro ⟨⟨⟩, ha, hitems⟩
      exact ⟨ha, hitems⟩
    · rintro ⟨ha, hitems⟩
      exact ⟨(), ha, hitems⟩

/-! ### The codes that there can be -/

/-- If the computation fails, then with one of these codes. -/
def FailsOnly (codes : List Code) (x : Outcome α) : Prop :=
  ∀ f, x = .error f → f.code ∈ codes

section FailsOnly

variable {codes : List Code}

theorem failsOnly_ok (a : α) : FailsOnly codes (.ok a) := nofun

theorem failsOnly_fail {c : Code} (h : c ∈ codes) (s : String) :
    FailsOnly codes (fail c s : Outcome α) := by
  intro f hf
  rw [← Except.error.inj hf]
  exact h

theorem FailsOnly.ite {p : Prop} [Decidable p] {x y : Outcome α} (hx : FailsOnly codes x)
    (hy : FailsOnly codes y) : FailsOnly codes (if p then x else y) := by
  split
  · exact hx
  · exact hy

theorem FailsOnly.bind {x : Outcome α} {f : α → Outcome β} (hx : FailsOnly codes x)
    (hf : ∀ a, FailsOnly codes (f a)) : FailsOnly codes (x >>= f) := by
  cases x with
  | error e => exact fun e' he => hx e' (congrArg _ (Except.error.inj he))
  | ok a => exact hf a

theorem FailsOnly.mapM {f : α → Outcome β} (hf : ∀ a, FailsOnly codes (f a)) (items : List α) :
    FailsOnly codes (items.mapM f) := by
  intro e he
  obtain ⟨a, -, ha⟩ := exists_of_mapM_eq_error he
  exact hf a e ha

theorem FailsOnly.forM {f : α → Outcome PUnit} (hf : ∀ a, FailsOnly codes (f a))
    (items : List α) : FailsOnly codes (items.forM f) := by
  induction items with
  | nil => exact failsOnly_ok ()
  | cons a items ih => exact (hf a).bind fun _ => ih

end FailsOnly

/-! ### Comparing by the code -/

/-- The result, or the code of the failure by itself. -/
def coded (x : Outcome α) : Except Code α :=
  x.mapError Fault.code

theorem coded_bind (x : Outcome α) (f : α → Outcome β) :
    (x >>= f).coded = x.coded >>= fun a => (f a).coded := by
  cases x <;> rfl

theorem coded_map (f : α → β) (x : Outcome α) : coded (x.map f) = (coded x).map f := by
  cases x <;> rfl

theorem coded_eq_error {x : Outcome α} {c : Code} :
    x.coded = .error c ↔ ∃ f, x = .error f ∧ f.code = c := by
  constructor
  · intro h
    cases x with
    | error f => exact ⟨f, rfl, Except.error.inj h⟩
    | ok a => cases h
  · rintro ⟨f, rfl, rfl⟩
    rfl

/-! ### Comparing by the results -/

/-- Two computations agree if they fail with the same fault, or if both are successful and their
results are related. -/
inductive Agree {α β : Type} (R : α → β → Prop) : Outcome α → Outcome β → Prop where
  /-- They fail with the same fault. -/
  | error (f : Fault) : Agree R (.error f) (.error f)
  /-- The results are related. -/
  | ok {a : α} {b : β} (h : R a b) : Agree R (.ok a) (.ok b)

section Agree

variable {γ : Type} {R : α → β → Prop} {x : Outcome α} {y : Outcome β}

/-- A step in common makes no difference. -/
theorem Agree.bind {x : Outcome γ} {f : γ → Outcome α} {g : γ → Outcome β}
    (h : ∀ c, x = .ok c → Agree R (f c) (g c)) : Agree R (x >>= f) (x >>= g) := by
  cases x with
  | error e => exact .error e
  | ok c => exact h c rfl

/-- A check in common makes no difference. -/
theorem Agree.ite_fail {p : Prop} [Decidable p] {c : Code} {s : String}
    (h : ¬ p → Agree R x y) :
    Agree R (if p then fail c s else x) (if p then fail c s else y) := by
  split
  · exact .error _
  · next hp => exact h hp

theorem Agree.exists_of_eq_ok {a : α} (h : Agree R x y) (hx : x = .ok a) :
    ∃ b, y = .ok b ∧ R a b := by
  subst hx
  cases h with
  | ok h => exact ⟨_, rfl, h⟩

end Agree

end Outcome

namespace Action

variable {σ α β : Type} {x : Action σ α} {f : α → Action σ β} {s t : σ}

theorem bind_of_ok {a : α} (h : x s = (.ok a, t)) : (x >>= f) s = f a t := by
  change ExceptT.bindCont f (x s).1 (x s).2 = _
  rw [h]
  rfl

theorem bind_of_error {e : Fault} (h : x s = (.error e, t)) : (x >>= f) s = (.error e, t) := by
  change ExceptT.bindCont f (x s).1 (x s).2 = _
  rw [h]
  rfl

theorem discard_of_ok {a : α} (h : x s = (.ok a, t)) :
    (discard x : Action σ PUnit) s = (.ok (), t) := by
  have hbind : (discard x : Action σ PUnit) = x >>= fun _ => pure () := rfl
  rw [hbind, bind_of_ok h]
  rfl

/-- A successful action was successful in each of its steps, one after the other. -/
theorem bind_eq_ok {b : β} :
    (x >>= f) s = (.ok b, t) ↔ ∃ a s', x s = (.ok a, s') ∧ f a s' = (.ok b, t) := by
  rcases hx : x s with ⟨e | a, s'⟩
  · rw [bind_of_error hx]
    constructor
    · intro h
      cases h
    · rintro ⟨_, _, h, -⟩
      cases h
  · rw [bind_of_ok hx]
    constructor
    · exact fun h => ⟨a, s', rfl, h⟩
    · rintro ⟨_, _, h, hf⟩
      cases h
      exact hf

theorem ofOutcome_apply (o : Outcome α) (s : σ) : (ofOutcome o : Action σ α) s = (o, s) := rfl

variable {τ : Type}

theorem first_of_eq {x : StateM σ α} {r : τ} {a : α} (h : x.run s = (a, t)) :
    (first (x : Action σ α)) (s, r) = (.ok a, (t, r)) := by
  have hlift : (x : Action σ α) s = (.ok a, t) := by
    change ((.ok (x.run s).1 : Outcome α), (x.run s).2) = _
    rw [h]
  rw [first]
  simp only [hlift]

theorem second_of_eq {o : Outcome α} {r : τ} (h : x s = (o, t)) :
    second x (r, s) = (o, (r, t)) := by
  rw [second]
  simp only [h]

end Action

end DidMethods
