import DidMethods.Json.Alternatives
import DidMethods.Proofs.JsonOrder
import DidMethods.Proofs.Outcome

/-!
# Reading back written structures

A structure is written as an object with distinct names, and a reader looks its members up by name
(`DidMethods.Json.record?_object`). What it reads depends on nothing but what is found
(`DidMethods.Json.required?_of_lookup` and its kin), so that it reads the object as it was written
and the canonical text, in which the members are in order, in the same way. A list of values is read
item by item (`DidMethods.Json.listOf?_array`).
-/

namespace DidMethods.Json

theorem flatRecord?_eq_some {names : List String} {members found : List Member} :
    (object members).flatRecord? names = some found ↔
      uniqueNames names members = true ∧ members = found := by
  rw [flatRecord?, Option.ite_none_right_eq_some, Option.some.injEq]

section Members

variable {members : List Member} (h : (members.map (·.1)).Nodup)

include h

theorem uniqueNames_of_nodup (names : List String) : uniqueNames names members = true := by
  rw [uniqueNames, List.all_eq_true]
  exact fun name _ => decide_eq_true (length_named_le h name)

theorem flatRecord?_object (names : List String) :
    (object members).flatRecord? names = some members := by
  rw [flatRecord?, uniqueNames_of_nodup h]
  rfl

/-- **The members of a structure are found**, whatever their order. -/
theorem record?_object (slots : List Slot) : (object members).record? slots = some members :=
  flatRecord?_object h _

theorem nodup_sortedObject : ((sortedObject members).map (·.1)).Nodup :=
  (names_sortedObject members).nodup_iff.mpr h

end Members

/-! ### The readers of a member -/

section Readers

variable {α : Type} {members : List Member} {k : String} {read : Json → Option α} {a : α}

/-- A member that must be there, and is found. -/
theorem required?_of_lookup {v : Json} (hv : members.lookup k = some v) (ha : read v = some a) :
    required? members k read = some a := by
  rw [required?, hv]
  exact ha

/-- A text that must be there, and is found. -/
theorem requiredString?_of_lookup {s : String} (hv : members.lookup k = some (.string s)) :
    required? members k string? = some s :=
  required?_of_lookup hv rfl

/-- A member that may be missing or `null`. -/
theorem optional?_of_lookup {write : α → Json} {o : Option α}
    (hv : members.lookup k = o.map write)
    (ha : ∀ a ∈ o, write a ≠ .null ∧ read (write a) = some a) :
    optional? members k read = some o := by
  rw [optional?, hv]
  cases o with
  | none => rfl
  | some a =>
    obtain ⟨hnull, hread⟩ := ha a rfl
    rw [Option.map_some]
    split
    · contradiction
    · next h => exact absurd (Option.some.inj h) hnull
    · next h =>
      obtain rfl := Option.some.inj h
      rw [hread]
      rfl

/-- A text that may be missing. -/
theorem optionalString?_of_lookup {s : Option String} (hv : members.lookup k = s.map .string) :
    optional? members k string? = some s :=
  optional?_of_lookup hv fun _ _ => ⟨by simp, rfl⟩

/-- A member that may be missing, and is found. -/
theorem defaulted?_of_lookup {v : Json} {default : α} (hv : members.lookup k = some v)
    (ha : read v = some a) : defaulted? members k default read = some a := by
  rw [defaulted?, hv]
  exact ha

/-- A member that may be missing: where it is not found, the default counts. -/
theorem defaulted?_of_lookup_none {default : α} (hv : members.lookup k = none) :
    defaulted? members k default read = some default := by
  rw [defaulted?, hv]

/-- What is read of a member that may be missing or `null` is read from something else. -/
theorem optional?_cases {o : Option α} (h : optional? members k read = some o) (ha : a ∈ o) :
    ∃ v, v ≠ .null ∧ read v = some a := by
  obtain rfl := ha
  rw [optional?] at h
  split at h
  · cases h
  · cases h
  · next v hnull _ =>
    obtain ⟨b, hb, hsame⟩ := Option.map_eq_some_iff.mp h
    obtain rfl := Option.some.inj hsame
    exact ⟨v, hnull, hb⟩

/-- What is read of a member that may be missing is the default, or is read from something. -/
theorem defaulted?_cases {default : α} (h : defaulted? members k default read = some a) :
    a = default ∨ ∃ v, read v = some a := by
  rw [defaulted?] at h
  split at h
  · exact .inl (Option.some.inj h).symm
  · exact .inr ⟨_, h⟩

end Readers

/-! ### Members without a value -/

/-- The members that have a value. -/
def present (members : List (String × Option Json)) : List Member :=
  members.filterMap fun m => m.2.map fun v => (m.1, v)

theorem compact_eq (members : List (String × Option Json)) :
    compact members = object (present members) := rfl

theorem present_cons (k : String) (v? : Option Json) (members : List (String × Option Json)) :
    present ((k, v?) :: members) = (v?.map (Prod.mk k)).toList ++ present members := by
  cases v? <;> rfl

theorem present_append (a b : List (String × Option Json)) :
    present (a ++ b) = present a ++ present b :=
  List.filterMap_append

/-- Members all of which have a value. -/
theorem present_map_some (members : List Member) :
    present (members.map fun m => (m.1, some m.2)) = members := by
  induction members with
  | nil => rfl
  | cons m members ih => rw [List.map_cons, present_cons, ih]; rfl

theorem mem_present {members : List (String × Option Json)} {m : Member} :
    m ∈ present members ↔ (m.1, some m.2) ∈ members := by
  rw [present, List.mem_filterMap]
  constructor
  · rintro ⟨⟨k, v?⟩, hmem, heq⟩
    obtain ⟨v, rfl, rfl⟩ := Option.map_eq_some_iff.mp heq
    exact hmem
  · exact fun hmem => ⟨_, hmem, rfl⟩

theorem hasNumber_compact {members : List (String × Option Json)}
    (h : ∀ m ∈ members, ∀ v ∈ m.2, v.hasNumber = false) : (compact members).hasNumber = false := by
  rw [compact_eq, hasNumber_object]
  exact fun m hm => h _ (mem_present.mp hm) m.2 rfl

theorem depth_compact {members : List (String × Option Json)} {n : Nat}
    (h : ∀ m ∈ members, ∀ v ∈ m.2, v.depth ≤ n) : (compact members).depth ≤ n + 1 := by
  rw [compact_eq, depth_object]
  exact fun m hm => h _ (mem_present.mp hm) m.2 rfl

theorem names_present (members : List (String × Option Json)) :
    ((present members).map (·.1)).Sublist (members.map (·.1)) := by
  induction members with
  | nil => exact List.Sublist.refl _
  | cons m members ih =>
    obtain ⟨k, v?⟩ := m
    cases v? with
    | none => exact ih.cons k
    | some v => exact ih.cons_cons k

theorem nodup_present {members : List (String × Option Json)} (h : (members.map (·.1)).Nodup) :
    ((present members).map (·.1)).Nodup :=
  h.sublist (names_present members)

/-- What is found under a name is the value of this name, if there is one. -/
theorem lookup_present {members : List (String × Option Json)} (h : (members.map (·.1)).Nodup)
    (k : String) : (present members).lookup k = (members.lookup k).join := by
  induction members with
  | nil => rfl
  | cons m members ih =>
    obtain ⟨j, v?⟩ := m
    obtain ⟨hj, hmembers⟩ := List.nodup_cons.mp h
    by_cases hk : k = j
    · subst hk
      cases v? with
      | some v => simp [present_cons]
      | none =>
        -- the name has no value here, and it does not occur again
        have hnone : (present members).lookup k = none := by
          rw [List.lookup_eq_none_iff]
          intro n hn
          have hmem := (names_present members).subset (List.mem_map.mpr ⟨n, hn, rfl⟩)
          exact bne_iff_ne.mpr fun heq => hj (heq ▸ hmem)
        simp [present_cons, hnone]
    · have hne := beq_false_of_ne hk
      cases v? <;> simp [present_cons, List.lookup_cons, hne, ih hmembers]

theorem get?_of_eq_compact {v : Json} {members : List (String × Option Json)} {k : String}
    (hv : v = compact members) (h : (members.map (·.1)).Nodup) :
    v.get? k = (members.lookup k).join := by
  rw [hv]
  exact lookup_present h k

/-- What is found in the canonical text is the value of this name in order. -/
theorem lookup_sortedPresent {members : List (String × Option Json)}
    (h : (members.map (·.1)).Nodup) (k : String) :
    (sortedObject (present members)).lookup k = (members.lookup k).join.map sorted := by
  rw [lookup_sortedObject (nodup_present h), lookup_present h]

/-! ### Lists -/

section Lists

variable {α β : Type} {read : Json → Option β}

/-- **A list is read back item by item.** -/
theorem listOf?_array {write : α → Json} {f : α → β} {items : List α}
    (h : ∀ a ∈ items, read (write a) = some (f a)) :
    listOf? read (array (items.map write)) = some (items.map f) :=
  mapM_map_eq_some h

theorem listOf?_array_self {write : β → Json} {items : List β}
    (h : ∀ a ∈ items, read (write a) = some a) :
    listOf? read (array (items.map write)) = some items :=
  (listOf?_array h).trans (congrArg some (List.map_id _))

/-- In the canonical text of a list, each item stands in its own canonical form. -/
theorem sorted_list (write : α → Json) (items : List α) :
    (array (items.map write)).sorted = array (items.map fun a => (write a).sorted) := by
  rw [sorted_array, List.map_map]
  rfl

/-- Every item of a list that was read was read from something. -/
theorem exists_read_of_mem {v : Json} {items : List β} (h : listOf? read v = some items)
    {a : β} (ha : a ∈ items) : ∃ w, read w = some a := by
  obtain ⟨values, -, hvalues⟩ := Option.bind_eq_some_iff.mp h
  clear h
  induction values generalizing items with
  | nil =>
    cases hvalues
    exact absurd ha List.not_mem_nil
  | cons w values ih =>
    simp only [List.mapM_cons, Option.bind_eq_bind, Option.bind_eq_some_iff, Option.pure_def,
      Option.some.injEq] at hvalues
    obtain ⟨b, hb, rest, hrest, rfl⟩ := hvalues
    rcases List.mem_cons.mp ha with rfl | ha
    · exact ⟨w, hb⟩
    · exact ih ha hrest

theorem listOf?_strings (items : List String) : listOf? string? (strings items) = some items :=
  listOf?_array_self fun _ _ => rfl

theorem sorted_strings (items : List String) : (strings items).sorted = strings items :=
  sorted_list string items

end Lists

end DidMethods.Json
