import DidMethods.Proofs.JsonText
import DidMethods.Proofs.Lookup

/-!
# The order of members

What a reader of members finds under a name is the first member of this name
(`DidMethods.Json.lookup_eq_named`). An object whose names are distinct is a map: putting its
members in order (`DidMethods.Json.sortMembers_perm`) changes none of its entries, hence nothing
that is found (`DidMethods.Json.lookup_sortedObject`). Values all of whose objects are maps
(`DidMethods.Json.distinctNames`) are the ones that a reader of values makes
(`DidMethods.Json.distinctNames_lastWins`), and such a reader leaves them as they are
(`DidMethods.Json.lastWins_eq_self`).
-/

namespace DidMethods.Json

/-! ### Induction on values -/

mutual

/-- What holds of a container when it holds of all that it contains, and of everything else, holds
of every value. -/
@[elab_as_elim]
theorem ind {motive : Json → Prop} (null : motive .null) (bool : ∀ b, motive (.bool b))
    (number : ∀ n, motive (.number n)) (string : ∀ s, motive (.string s))
    (array : ∀ items, (∀ v ∈ items, motive v) → motive (.array items))
    (object : ∀ members : List Member, (∀ m ∈ members, motive m.2) → motive (.object members))
    (v : Json) : motive v := by
  match v with
  | .null => exact null
  | .bool b => exact bool b
  | .number n => exact number n
  | .string s => exact string s
  | .array items => exact array items (indItems null bool number string array object items)
  | .object members =>
    exact object members (indMembers null bool number string array object members)

theorem indItems {motive : Json → Prop} (null : motive .null) (bool : ∀ b, motive (.bool b))
    (number : ∀ n, motive (.number n)) (string : ∀ s, motive (.string s))
    (array : ∀ items, (∀ v ∈ items, motive v) → motive (.array items))
    (object : ∀ members : List Member, (∀ m ∈ members, motive m.2) → motive (.object members))
    (items : List Json) : ∀ v ∈ items, motive v := by
  match items with
  | [] => exact fun _ h => absurd h List.not_mem_nil
  | v :: items =>
    exact List.forall_mem_cons.mpr ⟨ind null bool number string array object v,
      indItems null bool number string array object items⟩

theorem indMembers {motive : Json → Prop} (null : motive .null) (bool : ∀ b, motive (.bool b))
    (number : ∀ n, motive (.number n)) (string : ∀ s, motive (.string s))
    (array : ∀ items, (∀ v ∈ items, motive v) → motive (.array items))
    (object : ∀ members : List Member, (∀ m ∈ members, motive m.2) → motive (.object members))
    (members : List Member) : ∀ m ∈ members, motive m.2 := by
  match members with
  | [] => exact fun _ h => absurd h List.not_mem_nil
  | (k, v) :: members =>
    exact List.forall_mem_cons.mpr ⟨ind null bool number string array object v,
      indMembers null bool number string array object members⟩

end

/-! ### Members in order -/

theorem sortMembers_perm (members : List Member) : (sortMembers members).Perm members :=
  List.mergeSort_perm _ _

theorem le_names_trans (a b c : Member) (h : Utf16.le a.1 b.1 = true)
    (h' : Utf16.le b.1 c.1 = true) : Utf16.le a.1 c.1 = true :=
  Utf16.listLe_trans h h'

theorem le_names_total (a b : Member) : (Utf16.le a.1 b.1 || Utf16.le b.1 a.1) = true := by
  rw [Bool.or_eq_true]
  exact Utf16.listLe_total _ _

theorem pairwise_sortMembers (members : List Member) :
    (sortMembers members).Pairwise fun a b => Utf16.le a.1 b.1 :=
  List.pairwise_mergeSort le_names_trans le_names_total members

theorem sortMembers_of_pairwise {members : List Member}
    (h : members.Pairwise fun a b => Utf16.le a.1 b.1) : sortMembers members = members :=
  List.mergeSort_of_pairwise h

theorem sortedItems_eq_map (items : List Json) : sortedItems items = items.map sorted := by
  induction items with
  | nil => rfl
  | cons v items ih => rw [sortedItems, ih, List.map_cons]

theorem sortedMembers_eq_map (members : List Member) :
    sortedMembers members = members.map fun m => (m.1, m.2.sorted) := by
  induction members with
  | nil => rfl
  | cons m members ih =>
    obtain ⟨k, v⟩ := m
    rw [sortedMembers, ih, List.map_cons]

/-- The members of an object in order, at every depth. -/
def sortedObject (members : List Member) : List Member :=
  sortMembers (sortedMembers members)

@[simp] theorem sorted_object (members : List Member) :
    (object members).sorted = object (sortedObject members) := rfl

@[simp] theorem sorted_array (items : List Json) :
    (array items).sorted = array (items.map sorted) := by
  rw [sorted, sortedItems_eq_map]

@[simp] theorem sorted_null : null.sorted = null := rfl

@[simp] theorem sorted_string (s : String) : (string s).sorted = string s := rfl

/-- The members in order are the same members, each with its own value in order. -/
theorem sortedObject_perm (members : List Member) :
    (sortedObject members).Perm (members.map fun m => (m.1, m.2.sorted)) := by
  rw [sortedObject, sortedMembers_eq_map]
  exact sortMembers_perm _

theorem mem_sortedObject {members : List Member} {m : Member} :
    m ∈ sortedObject members ↔ ∃ n ∈ members, (n.1, n.2.sorted) = m := by
  rw [(sortedObject_perm members).mem_iff, List.mem_map]

/-- What holds of the ordered values of all members holds of the values of all members in order. -/
theorem forall_mem_sortedObject {members : List Member} (p : Json → Prop)
    (h : ∀ m ∈ members, p m.2.sorted) : ∀ m ∈ sortedObject members, p m.2 := by
  intro m hm
  obtain ⟨n, hn, rfl⟩ := mem_sortedObject.mp hm
  exact h n hn

/-- Members that are in order stay as they are. -/
@[simp] theorem sorted_sorted (v : Json) : v.sorted.sorted = v.sorted := by
  induction v using ind with
  | null | bool _ | number _ | string _ => rfl
  | array items ih =>
    rw [sorted_array, sorted_array, List.map_map]
    exact congrArg array (List.map_congr_left ih)
  | object members ih =>
    -- the values are in order by induction, and so are the members then
    have hvalues : sortedMembers (sortedObject members) = sortedObject members := by
      rw [sortedMembers_eq_map]
      refine (List.map_congr_left fun m hm => ?_).trans (List.map_id _)
      exact congrArg (Prod.mk m.1) (forall_mem_sortedObject (fun v => v.sorted = v) ih m hm)
    rw [sorted_object, sorted_object]
    refine congrArg object ?_
    rw [sortedObject, hvalues]
    exact sortMembers_of_pairwise (pairwise_sortMembers _)

/-! ### Numbers and depth -/

theorem hasNumberItems_iff {items : List Json} :
    hasNumberItems items = false ↔ ∀ v ∈ items, v.hasNumber = false := by
  induction items with
  | nil => simp [hasNumberItems]
  | cons v items ih => simp [hasNumberItems, ih]

theorem hasNumberMembers_iff {members : List Member} :
    hasNumberMembers members = false ↔ ∀ m ∈ members, m.2.hasNumber = false := by
  induction members with
  | nil => simp [hasNumberMembers]
  | cons m members ih => simp [hasNumberMembers, ih]

theorem hasNumber_array {items : List Json} :
    (array items).hasNumber = false ↔ ∀ v ∈ items, v.hasNumber = false :=
  hasNumberItems_iff

theorem hasNumber_object {members : List Member} :
    (object members).hasNumber = false ↔ ∀ m ∈ members, m.2.hasNumber = false :=
  hasNumberMembers_iff

theorem depthItems_le {items : List Json} {n : Nat} :
    depthItems items ≤ n ↔ ∀ v ∈ items, v.depth ≤ n := by
  induction items with
  | nil => simp [depthItems]
  | cons v items ih => rw [depthItems, Nat.max_le, List.forall_mem_cons, ih]

theorem depthMembers_le {members : List Member} {n : Nat} :
    depthMembers members ≤ n ↔ ∀ m ∈ members, m.2.depth ≤ n := by
  induction members with
  | nil => simp [depthMembers]
  | cons m members ih => rw [depthMembers, Nat.max_le, List.forall_mem_cons, ih]

theorem depth_array {items : List Json} {n : Nat} :
    (array items).depth ≤ n + 1 ↔ ∀ v ∈ items, v.depth ≤ n := by
  rw [depth, Nat.succ_le_succ_iff, depthItems_le]

theorem depth_object {members : List Member} {n : Nat} :
    (object members).depth ≤ n + 1 ↔ ∀ m ∈ members, m.2.depth ≤ n := by
  rw [depth, Nat.succ_le_succ_iff, depthMembers_le]

theorem hasNumber_sorted {v : Json} (h : v.hasNumber = false) : v.sorted.hasNumber = false := by
  induction v using ind with
  | null | bool _ | number _ | string _ => exact h
  | array items ih =>
    rw [hasNumber_array] at h
    rw [sorted_array, hasNumber_array, List.forall_mem_map]
    exact fun v hv => ih v hv (h v hv)
  | object members ih =>
    rw [hasNumber_object] at h
    rw [sorted_object, hasNumber_object]
    exact forall_mem_sortedObject (·.hasNumber = false) fun m hm => ih m hm (h m hm)

theorem depth_sorted {v : Json} {n : Nat} (h : v.depth ≤ n) : v.sorted.depth ≤ n := by
  induction v using ind generalizing n with
  | null | bool _ | number _ | string _ => exact h
  | array items ih =>
    cases n with
    | zero => exact absurd h (by simp [depth])  -- a container has a depth
    | succ n =>
      rw [depth_array] at h
      rw [sorted_array, depth_array, List.forall_mem_map]
      exact fun v hv => ih v hv (h v hv)
  | object members ih =>
    cases n with
    | zero => exact absurd h (by simp [depth])
    | succ n =>
      rw [depth_object] at h
      rw [sorted_object, depth_object]
      exact forall_mem_sortedObject (·.depth ≤ n) fun m hm => ih m hm (h m hm)

/-! ### Canonical text -/

/-- The canonical text of a value is read as the value in order. -/
theorem ofText?_canonical {v : Json} (hv : v.hasNumber = false) (shape : Shape) {limit : Nat}
    (h : v.depth ≤ limit) : ofText? v.canonical shape limit = some v.sorted :=
  ofText?_write rfl (hasNumber_sorted hv) shape (depth_sorted h)

/-- **The canonical octets are those of one value only**, up to the order of members. -/
theorem sorted_eq_of_canonicalBytes {v w : Json} (hv : v.hasNumber = false)
    (hw : w.hasNumber = false) (h : v.canonicalBytes = w.canonicalBytes) :
    v.sorted = w.sorted := by
  have htext := congrArg String.toList (Bytes.ofString_injective h)
  rw [canonical, canonical, String.toList_ofList, String.toList_ofList] at htext
  exact write_injective rfl (hasNumber_sorted hv) (hasNumber_sorted hw) htext

/-- Order does not matter for the canonical octets. -/
@[simp] theorem canonicalBytes_sorted (v : Json) : v.sorted.canonicalBytes = v.canonicalBytes := by
  rw [canonicalBytes, canonicalBytes, canonical, canonical, sorted_sorted]

/-! ### Members of one name -/

/-- The members of a name, in the order in which they stand. -/
def named (name : String) (members : List Member) : List Member :=
  members.filter fun m => m.1 == name

section Named

variable {members a b : List Member} {m : Member} {name : String}

theorem mem_named : m ∈ named name members ↔ m ∈ members ∧ m.1 = name := by
  rw [named, List.mem_filter, beq_iff_eq]

theorem named_append (name : String) (a b : List Member) :
    named name (a ++ b) = named name a ++ named name b :=
  List.filter_append ..

theorem named_cons_self (m : Member) (members : List Member) :
    named m.1 (m :: members) = m :: named m.1 members :=
  List.filter_cons_of_pos (beq_self_eq_true m.1)

theorem named_cons_of_ne (h : m.1 ≠ name) (members : List Member) :
    named name (m :: members) = named name members :=
  List.filter_cons_of_neg (by simpa using h)

theorem named_eq_nil (h : ∀ m ∈ members, m.1 ≠ name) : named name members = [] :=
  List.filter_eq_nil_iff.mpr fun m hm => by simpa using h m hm

/-- Of distinct names each one has at most one member. -/
theorem length_named_le (h : (members.map (·.1)).Nodup) (name : String) :
    (named name members).length ≤ 1 := by
  have hcount := List.nodup_iff_count.mp h name
  rwa [List.count, List.countP_map, List.countP_eq_length_filter] at hcount

/-- Where a name has at most one member, the order of members does not matter to it. -/
theorem named_eq_of_perm (h : (named name a).Perm (named name b))
    (hone : (named name a).length ≤ 1) : named name a = named name b := by
  have hlength := h.length_eq
  match hlist : named name a with
  | [] =>
    rw [hlist] at hlength
    exact (List.eq_nil_of_length_eq_zero hlength.symm).symm
  | [m] =>
    rw [hlist] at h
    exact (List.perm_singleton.mp h.symm).symm
  | _ :: _ :: _ =>
    rw [hlist] at hone
    exact absurd hone (by simp)

/-- What is found under a name is the first member of this name. -/
theorem lookup_eq_named (name : String) (members : List Member) :
    members.lookup name = (named name members).head?.map (·.2) := by
  induction members with
  | nil => rfl
  | cons m members ih =>
    obtain ⟨k, v⟩ := m
    rw [List.lookup_cons]
    by_cases hk : k = name
    · subst hk
      rw [beq_self_eq_true, named_cons_self (k, v)]
      rfl
    · rw [beq_false_of_ne (Ne.symm hk), named_cons_of_ne hk]
      exact ih

end Named

/-! ### Look-ups -/

theorem names_sortedObject (members : List Member) :
    ((sortedObject members).map (·.1)).Perm (members.map (·.1)) := by
  have h := (sortedObject_perm members).map (·.1)
  rwa [List.map_map] at h

/-- What is found under a name does not depend on the order of members. -/
theorem lookup_sortedObject {members : List Member} (h : (members.map (·.1)).Nodup) (k : String) :
    (sortedObject members).lookup k = (members.lookup k).map sorted := by
  have hnodup : ((members.map fun m => (m.1, m.2.sorted)).map (·.1)).Nodup := by
    rwa [List.map_map]
  rw [lookup_perm (sortedObject_perm members) hnodup, lookup_map]

/-! ### Distinct names -/

mutual

/-- The names of every object are distinct, at every depth. -/
def distinctNames : Json → Bool
  | .array items => distinctNamesItems items
  | .object members => decide (members.map (·.1)).Nodup && distinctNamesMembers members
  | _ => true

/-- The names of every object in the items are distinct. -/
def distinctNamesItems : List Json → Bool
  | [] => true
  | v :: rest => v.distinctNames && distinctNamesItems rest

/-- The names of every object in the values of the members are distinct. -/
def distinctNamesMembers : List Member → Bool
  | [] => true
  | (_, v) :: rest => v.distinctNames && distinctNamesMembers rest

end

theorem distinctNames_array {items : List Json} :
    (array items).distinctNames = true ↔ ∀ v ∈ items, v.distinctNames = true := by
  rw [distinctNames]
  induction items with
  | nil => simp [distinctNamesItems]
  | cons v items ih => simp [distinctNamesItems, ih]

theorem distinctNamesMembers_iff {members : List Member} :
    distinctNamesMembers members = true ↔ ∀ m ∈ members, m.2.distinctNames = true := by
  induction members with
  | nil => simp [distinctNamesMembers]
  | cons m members ih => simp [distinctNamesMembers, ih]

theorem distinctNames_object {members : List Member} :
    (object members).distinctNames = true ↔
      (members.map (·.1)).Nodup ∧ ∀ m ∈ members, m.2.distinctNames = true := by
  rw [distinctNames, Bool.and_eq_true, decide_eq_true_eq, distinctNamesMembers_iff]

theorem distinctNames_sorted {v : Json} (h : v.distinctNames = true) :
    v.sorted.distinctNames = true := by
  induction v using ind with
  | null | bool _ | number _ | string _ => exact h
  | array items ih =>
    rw [distinctNames_array] at h
    rw [sorted_array, distinctNames_array, List.forall_mem_map]
    exact fun v hv => ih v hv (h v hv)
  | object members ih =>
    obtain ⟨hnodup, h⟩ := distinctNames_object.mp h
    rw [sorted_object, distinctNames_object]
    exact ⟨(names_sortedObject members).nodup_iff.mpr hnodup,
      forall_mem_sortedObject (·.distinctNames = true) fun m hm => ih m hm (h m hm)⟩

/-! ### The last member of a name -/

theorem lastWinsItems_eq_map (items : List Json) : lastWinsItems items = items.map lastWins := by
  induction items with
  | nil => rfl
  | cons v items ih => rw [lastWinsItems, ih, List.map_cons]

theorem lastWinsMembers_eq_map (members : List Member) :
    lastWinsMembers members = members.map fun m => (m.1, m.2.lastWins) := by
  induction members with
  | nil => rfl
  | cons m members ih =>
    obtain ⟨k, v⟩ := m
    rw [lastWinsMembers, ih, List.map_cons]

theorem any_name_eq {members : List Member} {k : String} :
    (members.any fun n => n.1 == k) = true ↔ k ∈ members.map (·.1) := by
  simp [List.any_eq_true]

theorem lastOfName_eq_self {members : List Member} (h : (members.map (·.1)).Nodup) :
    lastOfName members = members := by
  induction members with
  | nil => rfl
  | cons m members ih =>
    obtain ⟨hm, h⟩ := List.nodup_cons.mp h
    rw [lastOfName, if_neg (fun hany => hm (any_name_eq.mp hany)), ih h]

theorem lastOfName_sublist (members : List Member) : (lastOfName members).Sublist members := by
  induction members with
  | nil => exact List.Sublist.refl _
  | cons m members ih =>
    rw [lastOfName]
    split
    · exact ih.cons m
    · exact ih.cons_cons m

theorem nodup_lastOfName (members : List Member) : ((lastOfName members).map (·.1)).Nodup := by
  induction members with
  | nil => exact List.nodup_nil
  | cons m members ih =>
    rw [lastOfName]
    split
    · exact ih
    · next hany =>
      refine List.nodup_cons.mpr ⟨fun hmem => hany (any_name_eq.mpr ?_), ih⟩
      exact ((lastOfName_sublist members).map _).subset hmem

/-- Where names are distinct there is nothing to choose between. -/
theorem lastWins_eq_self {v : Json} (h : v.distinctNames = true) : v.lastWins = v := by
  induction v using ind with
  | null | bool _ | number _ | string _ => rfl
  | array items ih =>
    rw [distinctNames_array] at h
    rw [lastWins, lastWinsItems_eq_map]
    exact congrArg array ((List.map_congr_left fun v hv => ih v hv (h v hv)).trans
      (List.map_id _))
  | object members ih =>
    obtain ⟨hnodup, h⟩ := distinctNames_object.mp h
    have hvalues : lastWinsMembers members = members := by
      rw [lastWinsMembers_eq_map]
      exact (List.map_congr_left fun m hm => congrArg (Prod.mk m.1) (ih m hm (h m hm))).trans
        (List.map_id _)
    rw [lastWins, hvalues, lastOfName_eq_self hnodup]

/-- A choice between members of one name leaves distinct names. -/
theorem distinctNames_lastWins (v : Json) : v.lastWins.distinctNames = true := by
  induction v using ind with
  | null | bool _ | number _ | string _ => rfl
  | array items ih =>
    rw [lastWins, lastWinsItems_eq_map, distinctNames_array, List.forall_mem_map]
    exact ih
  | object members ih =>
    rw [lastWins, distinctNames_object]
    refine ⟨nodup_lastOfName _, fun m hm => ?_⟩
    have hmem := (lastOfName_sublist _).subset hm
    rw [lastWinsMembers_eq_map] at hmem
    obtain ⟨n, hn, rfl⟩ := List.mem_map.mp hmem
    exact ih n hn

end DidMethods.Json
