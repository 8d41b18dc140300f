import Mathlib.Data.List.Nodup

/-!
# Looking things up by name

Entries are looked up by their names, and the first one of a name counts. Where the names are
distinct, an entry is found if it is there (`DidMethods.lookup_eq_some`), and the order does not
matter (`DidMethods.lookup_perm`). The same holds of items that have a key
(`DidMethods.find?_eq_some_of_nodup`).
-/

namespace DidMethods

variable {β γ : Type} {name other : String}

theorem lookup_eq_some {entries : List (String × β)} {k : String} {v : β}
    (hnodup : (entries.map (·.1)).Nodup) :
    entries.lookup k = some v ↔ (k, v) ∈ entries := by
  induction entries with
  | nil => simp
  | cons e entries ih =>
    obtain ⟨j, w⟩ := e
    obtain ⟨hj, hnodup⟩ := List.nodup_cons.mp hnodup
    rw [List.lookup_cons]
    by_cases hk : k = j
    · -- the first entry of the name is the only one
      subst hk
      have hnot : (k, v) ∉ entries := fun hmem => hj (List.mem_map.mpr ⟨_, hmem, rfl⟩)
      simp [hnot, eq_comm]
    · rw [beq_false_of_ne hk]
      simp [hk, ih hnodup]

/-- Of entries with distinct names the order does not matter. -/
theorem lookup_perm {a b : List (String × β)} (hperm : a.Perm b)
    (hnodup : (b.map (·.1)).Nodup) (k : String) : a.lookup k = b.lookup k := by
  have hnodup' : (a.map (·.1)).Nodup := (hperm.map _).nodup_iff.mpr hnodup
  refine Option.ext fun v => ?_
  rw [lookup_eq_some hnodup, lookup_eq_some hnodup', hperm.mem_iff]

theorem lookup_map (f : β → γ) (entries : List (String × β)) (k : String) :
    (entries.map fun m => (m.1, f m.2)).lookup k = (entries.lookup k).map f := by
  induction entries with
  | nil => rfl
  | cons e entries ih =>
    obtain ⟨j, v⟩ := e
    rw [List.map_cons, List.lookup_cons, List.lookup_cons, ih]
    cases k == j <;> rfl

/-- Dropping the entries of a name does not change what is found under other names. -/
theorem lookup_filter_ne (h : other ≠ name)
    (entries : List (String × β)) :
    (entries.filter fun e => e.1 ≠ name).lookup other = entries.lookup other := by
  induction entries with
  | nil => rfl
  | cons e entries ih =>
    by_cases he : e.1 = name
    · have hother : (other == e.1) = false := beq_false_of_ne (he ▸ h)
      rw [List.filter_cons_of_neg (by simpa using he), ih, List.lookup_cons, hother]
    · rw [List.filter_cons_of_pos (by simpa using he), List.lookup_cons, List.lookup_cons, ih]

/-- Where the entries of a name are dropped, nothing is found under it. -/
theorem lookup_filter_self (name : String) (entries : List (String × β)) :
    (entries.filter fun e => e.1 ≠ name).lookup name = none := by
  rw [List.lookup_eq_none_iff]
  intro e he
  have hne : e.1 ≠ name := of_decide_eq_true (List.mem_filter.mp he).2
  simpa using hne.symm

/-- Among items with distinct keys the one that is looked for is found, if all that would do have
its key. -/
theorem find?_eq_some_of_nodup {α κ : Type} {key : α → κ} {items : List α} {p : α → Bool} {a : α}
    (hnodup : (items.map key).Nodup) (ha : a ∈ items) (hp : p a = true)
    (hkey : ∀ b ∈ items, p b = true → key b = key a) : items.find? p = some a := by
  cases hfind : items.find? p with
  | none => exact absurd hp (List.find?_eq_none.mp hfind a ha)
  | some b =>
    have hb := List.mem_of_find?_eq_some hfind
    rw [List.inj_on_of_nodup_map hnodup hb ha (hkey b hb (List.find?_some hfind))]

/-- What the first reference leads to, of references that are there several times each: what the
first item leads to that has any. -/
theorem findSome?_flatMap_replicate {α β γ : Type} {items : List α} {times : α → Nat} {ref : α → β}
    {look : β → Option γ} {found : α → γ} (h : ∀ a ∈ items, look (ref a) = some (found a)) :
    (items.flatMap fun a => List.replicate (times a) (ref a)).findSome? look =
      (items.find? fun a => times a ≠ 0).map found := by
  induction items with
  | nil => rfl
  | cons a items ih =>
    obtain ⟨ha, hitems⟩ := List.forall_mem_cons.mp h
    rw [List.flatMap_cons, List.findSome?_append, List.findSome?_replicate, ih hitems, ha]
    by_cases hzero : times a = 0
    · rw [if_pos hzero, Option.none_or, List.find?_cons_of_neg (by simpa using hzero)]
    · rw [if_neg hzero, Option.some_or, List.find?_cons_of_pos (by simpa using hzero),
        Option.map_some]

end DidMethods
