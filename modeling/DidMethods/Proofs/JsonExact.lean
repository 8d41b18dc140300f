import DidMethods.Proofs.JsonRecord

/-!
# Values that are read back

A reader takes more forms than a writer makes: it passes over members that it does not know, takes a
list for an object, and keeps the last of several members of one name. So what is written of a value
that was read need not be what it was read from. But of the values that a reader makes something is
known, and all values of which this is known are read back as they are written
(`DidMethods.Json.Exact`). Each way to build a form from others keeps this: lists
(`DidMethods.Json.Exact.list`), a text in place of a structure (`DidMethods.Json.Exact.textOr`),
one value in place of a list (`DidMethods.Json.Exact.oneOrMany`), and the members of a structure
(`DidMethods.Json.Exact.required` and its kin). The choices are what is to be watched: the reader
has to take the branch again from which the value was written.
-/

namespace DidMethods

/-! ### What is read of a choice -/

section Choice

variable {α : Type} {read : Json → Option α} {v : Json}

theorem TextOr.ofJson?_cases {x : TextOr α} (h : TextOr.ofJson? read v = some x) :
    (∃ s, x = .text s) ∨ ∃ a, x = .value a ∧ read v = some a := by
  cases v with
  | string s => exact .inl ⟨s, (Option.some.inj h).symm⟩
  | null | bool _ | number _ | array _ | object _ =>
    obtain ⟨a, ha, rfl⟩ := Option.map_eq_some_iff.mp h
    exact .inr ⟨a, rfl, ha⟩

theorem OneOrMany.ofJson?_cases {x : OneOrMany α} (h : OneOrMany.ofJson? read v = some x) :
    (∃ a, x = .one a ∧ read v = some a) ∨
      ∃ items, x = .many items ∧ v.listOf? read = some items := by
  rw [OneOrMany.ofJson?] at h
  split at h
  · next a ha => exact .inl ⟨a, (Option.some.inj h).symm, ha⟩
  · obtain ⟨items, hitems, rfl⟩ := Option.map_eq_some_iff.mp h
    exact .inr ⟨items, rfl, hitems⟩

end Choice

namespace Json

/-- The values with a property are those that are read, and all of them are read back as they are
written, which is never `null`. -/
structure Exact {α : Type} (P : α → Prop) (write : α → Json) (read : Json → Option α) : Prop where
  /-- What has the property is read back. -/
  back : ∀ {a : α}, P a → read (write a) = some a
  /-- Nothing else is ever read. -/
  sound : ∀ {v : Json} {a : α}, read v = some a → P a
  /-- What is there is not written as what is missing. -/
  ne_null : ∀ {a : α}, P a → write a ≠ .null

namespace Exact

variable {α : Type} {P : α → Prop} {write : α → Json} {read : Json → Option α}

/-- A form in which every value is read back. -/
theorem of_forall (h : ∀ a, read (write a) = some a) (hnull : ∀ a, write a ≠ .null) :
    Exact (fun _ => True) write read where
  back _ := h _
  sound _ := trivial
  ne_null _ := hnull _

theorem string : Exact (fun _ => True) .string string? :=
  of_forall (fun _ => rfl) nofun

theorem bool : Exact (fun _ => True) .bool bool? :=
  of_forall (fun _ => rfl) nofun

variable (h : Exact P write read)

include h

/-- The values that are read are exactly the ones with the property. -/
theorem back_iff {a : α} : read (write a) = some a ↔ P a :=
  ⟨h.sound, h.back⟩

/-- What was read is read again as it is written. -/
theorem again {v : Json} {a : α} (hread : read v = some a) : read (write a) = some a :=
  h.back (h.sound hread)

/-- A list is read item by item. -/
theorem list :
    Exact (fun items => ∀ a ∈ items, P a) (fun items => .array (items.map write))
      (listOf? read) where
  back hitems := listOf?_array_self fun a ha => h.back (hitems a ha)
  sound hread a ha := by
    obtain ⟨w, hw⟩ := exists_read_of_mem hread ha
    exact h.sound hw
  ne_null _ := nofun

/-- What is no text is not written as one. -/
theorem textOr (htext : ∀ a s, write a ≠ .string s) :
    Exact (fun x => ∀ a ∈ x.value?, P a) (TextOr.toJson write) (TextOr.ofJson? read) where
  back {x} hx := by
    cases x with
    | text s => rfl
    | value a =>
      have hback : (read (write a)).map TextOr.value = some (.value a) := by
        rw [h.back (hx a rfl)]
        rfl
      rw [TextOr.toJson]
      cases hwrite : write a with
      | string s => exact absurd hwrite (htext a s)
      | null | bool _ | number _ | array _ | object _ => rwa [hwrite] at hback
  sound hread a ha := by
    obtain ⟨s, rfl⟩ | ⟨b, rfl, hb⟩ := TextOr.ofJson?_cases hread
    · cases ha
    · obtain rfl := Option.some.inj ha
      exact h.sound hb
  ne_null {x} hx := by
    cases x with
    | text s => nofun
    | value a => exact h.ne_null (hx a rfl)

/-- A list is never taken for a single value. -/
theorem oneOrMany (harray : ∀ items, read (.array items) = none) :
    Exact (fun x => ∀ a ∈ x.toList, P a) (OneOrMany.toJson write) (OneOrMany.ofJson? read) where
  back {x} hx := by
    cases x with
    | one a => rw [OneOrMany.toJson, OneOrMany.ofJson?, h.back (hx a List.mem_cons_self)]
    | many items =>
      -- the reader tries a single value first, and a list is none
      rw [OneOrMany.toJson, OneOrMany.ofJson?, harray]
      exact congrArg (Option.map OneOrMany.many) (h.list.back hx)
  sound hread := by
    obtain ⟨a, rfl, ha⟩ | ⟨items, rfl, hitems⟩ := OneOrMany.ofJson?_cases hread
    · exact fun b hb => List.mem_singleton.mp hb ▸ h.sound ha
    · exact h.list.sound hitems
  ne_null {x} hx := by
    cases x with
    | one a => exact h.ne_null (hx a List.mem_cons_self)
    | many items => nofun

/-! ### Members of a structure -/

variable {found : List Member} {k : String}

theorem required {a : α} (ha : P a) (hfound : found.lookup k = some (write a)) :
    required? found k read = some a :=
  required?_of_lookup hfound (h.back ha)

theorem of_required {a : α} (hread : required? found k read = some a) : P a := by
  obtain ⟨v, -, hv⟩ := Option.bind_eq_some_iff.mp hread
  exact h.sound hv

theorem optional {o : Option α} (ho : ∀ a ∈ o, P a) (hfound : found.lookup k = o.map write) :
    optional? found k read = some o :=
  optional?_of_lookup hfound fun a ha => ⟨h.ne_null (ho a ha), h.back (ho a ha)⟩

theorem of_optional {o : Option α} (hread : optional? found k read = some o) : ∀ a ∈ o, P a := by
  intro a ha
  obtain ⟨v, -, hv⟩ := optional?_cases hread ha
  exact h.sound hv

theorem defaulted {a default : α} (ha : P a) (hfound : found.lookup k = some (write a)) :
    defaulted? found k default read = some a :=
  defaulted?_of_lookup hfound (h.back ha)

theorem of_defaulted {a default : α} (hdefault : P default)
    (hread : defaulted? found k default read = some a) : P a := by
  obtain rfl | ⟨v, hv⟩ := defaulted?_cases hread
  · exact hdefault
  · exact h.sound hv

end Exact

end Json

end DidMethods
