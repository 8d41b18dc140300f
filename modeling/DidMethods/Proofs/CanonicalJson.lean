import DidMethods.Proofs.ContentHash
import DidMethods.Proofs.JsonOrder
import Mathlib.Logic.Relation

/-!
# Canonical JSON shows the value, up to order

Two values have the same canonical text if one becomes the other when members change places. What
this means is said step by step: an exchange takes two neighbouring members with different names,
somewhere in the value (`DidMethods.Json.Exchange`), and a value is reordered by any number of
exchanges (`DidMethods.Json.Reordered`). Members of one name are never exchanged with each other,
for of these the last one counts; where names are distinct, as they are in every value that has been
read, any order can be reached (`DidMethods.Json.Reordered.of_perm`).

The members of an object are put in order by a stable sort, so that all that it keeps is which
members there are of each name, one after the other (`DidMethods.Json.sortMembers_eq_iff`). Since no
two names have the same code units (`DidMethods.Utf16.units_injective`), this fixes the sorted list.
An exchange does not change it, and conversely the members of any object can be exchanged until they
are in order; hence values are the same in order exactly if one is the other reordered
(`DidMethods.Json.sorted_eq_iff`). Without numbers the canonical octets show the value in order, and
hashes are taken of these octets (`DidMethods.ContentHash.up_to_order`).
-/

namespace DidMethods

/-! ### The order of names -/

namespace Utf16

/-- The first character can be told from the code units of a text: only a high surrogate has another
unit that belongs to it. -/
theorem unitsOfChar_append_inj {c d : Char} {u v : List Nat}
    (h : unitsOfChar c ++ u = unitsOfChar d ++ v) : c = d ∧ u = v := by
  have hc := c.valid
  have hd := d.valid
  have hval : ∀ e : Char, e.val.toNat = e.toNat := fun _ => rfl
  simp only [UInt32.isValidChar, Nat.isValidChar, hval] at hc hd
  rw [unitsOfChar, unitsOfChar] at h
  -- a character beyond the basic plane begins with a unit that is no character by itself
  split at h <;> split at h <;>
    simp only [List.cons_append, List.nil_append, List.cons.injEq] at h
  · exact ⟨Char.toNat_inj.mp h.1, h.2⟩
  · omega
  · omega
  · exact ⟨Char.toNat_inj.mp (by omega), h.2.2⟩

/-- **The code units of a text determine it.** -/
theorem units_injective {s t : String} (h : units s = units t) : s = t := by
  have hchars : ∀ a b : List Char, a.flatMap unitsOfChar = b.flatMap unitsOfChar → a = b := by
    intro a
    induction a with
    | nil =>
      intro b hb
      cases b with
      | nil => rfl
      | cons d b =>
        -- every character has a code unit
        rw [List.flatMap_nil, List.flatMap_cons, unitsOfChar] at hb
        split at hb <;> cases hb
    | cons c a ih =>
      intro b hb
      cases b with
      | nil =>
        rw [List.flatMap_nil, List.flatMap_cons, unitsOfChar] at hb
        split at hb <;> cases hb
      | cons d b =>
        rw [List.flatMap_cons, List.flatMap_cons] at hb
        obtain ⟨rfl, hrest⟩ := unitsOfChar_append_inj hb
        rw [ih b hrest]
  exact String.toList_inj.mp (hchars _ _ h)

theorem listLe_refl (s : List Nat) : listLe s s = true := by
  induction s with
  | nil => rfl
  | cons a s ih => simp [listLe, ih]

theorem listLe_antisymm {s t : List Nat} (h : listLe s t = true) (h' : listLe t s = true) :
    s = t := by
  induction s generalizing t with
  | nil =>
    cases t with
    | nil => rfl
    | cons b t => cases h'
  | cons a s ih =>
    cases t with
    | nil => cases h
    | cons b t =>
      simp only [listLe, Bool.or_eq_true, decide_eq_true_eq, Bool.and_eq_true, beq_iff_eq] at h h'
      rcases h with h | ⟨rfl, h⟩
      · -- the other comparison fails at the first unit already
        rcases h' with h' | ⟨rfl, -⟩ <;> omega
      · rcases h' with h' | ⟨-, h'⟩
        · omega
        · rw [ih h h']

/-- No two names stand at the same place of the order. -/
theorem le_antisymm {s t : String} (h : le s t = true) (h' : le t s = true) : s = t :=
  units_injective (listLe_antisymm h h')

end Utf16

namespace Json

/-! ### A stable sort -/

section Named

variable {a b : List Member}

/-- **The sort is stable**: the members of a name stay as they stand. -/
theorem named_sortMembers (name : String) (members : List Member) :
    named name (sortMembers members) = named name members := by
  -- members of one name are in order, so that sorting keeps them as a part of the list
  have hordered : (named name members).Pairwise fun a b => Utf16.le a.1 b.1 = true := by
    refine List.pairwise_of_forall_mem_list fun a ha b hb => ?_
    rw [(mem_named.mp ha).2, (mem_named.mp hb).2]
    exact Utf16.listLe_refl _
  have hpart : (named name members).Sublist (sortMembers members) :=
    List.sublist_mergeSort le_names_trans le_names_total hordered List.filter_sublist
  have hnamed : named name (named name members) = named name members :=
    List.filter_filter .. |>.trans (by simp only [Bool.and_self]; rfl)
  have hsub := hpart.filter fun m => m.1 == name
  refine (List.Sublist.eq_of_length (hnamed ▸ hsub) ?_).symm
  exact ((sortMembers_perm members).filter _).length_eq.symm

/-- Lists in order that have the same members of each name are the same list. -/
theorem eq_of_pairwise_of_named (ha : a.Pairwise fun m n => Utf16.le m.1 n.1)
    (hb : b.Pairwise fun m n => Utf16.le m.1 n.1) (h : ∀ name, named name a = named name b) :
    a = b := by
  induction a generalizing b with
  | nil =>
    cases b with
    | nil => rfl
    | cons n b =>
      have hn := h n.1
      rw [named_cons_self] at hn
      cases hn
  | cons m a ih =>
    cases b with
    | nil =>
      have hm := h m.1
      rw [named_cons_self] at hm
      cases hm
    | cons n b =>
      obtain ⟨hma, ha'⟩ := List.pairwise_cons.mp ha
      obtain ⟨hnb, hb'⟩ := List.pairwise_cons.mp hb
      -- each list has a member of the name that the other one begins with, so both names are first
      have hmem : m ∈ n :: b := (mem_named.mp (h m.1 ▸ mem_named.mpr ⟨List.mem_cons_self, rfl⟩)).1
      have hnem : n ∈ m :: a := (mem_named.mp (h n.1 ▸ mem_named.mpr ⟨List.mem_cons_self, rfl⟩)).1
      have hname : m.1 = n.1 := by
        rcases List.mem_cons.mp hmem with rfl | hmem
        · rfl
        · rcases List.mem_cons.mp hnem with rfl | hnem
          · rfl
          · exact Utf16.le_antisymm (hma n hnem) (hnb m hmem)
      have hfirst := h m.1
      rw [named_cons_self, hname, named_cons_self] at hfirst
      obtain rfl := (List.cons.inj hfirst).1
      refine congrArg (m :: ·) (ih ha' hb' fun name => ?_)
      by_cases hm : m.1 = name
      · subst hm
        exact (List.cons.inj hfirst).2
      · have hrest := h name
        rwa [named_cons_of_ne hm, named_cons_of_ne hm] at hrest

/-- **Sorting keeps the members of each name, and nothing else.** -/
theorem sortMembers_eq_iff :
    sortMembers a = sortMembers b ↔ ∀ name, named name a = named name b := by
  constructor
  · intro h name
    rw [← named_sortMembers name a, h, named_sortMembers]
  · intro h
    refine eq_of_pairwise_of_named (pairwise_sortMembers a) (pairwise_sortMembers b) fun name => ?_
    rw [named_sortMembers, named_sortMembers, h name]

end Named

/-! ### Members that change places -/

/-- Two neighbouring members with different names change places, somewhere in a value. -/
inductive Exchange : Json → Json → Prop
  | here {m n : Member} (h : m.1 ≠ n.1) (before after : List Member) :
    Exchange (.object (before ++ m :: n :: after)) (.object (before ++ n :: m :: after))
  | item {v w : Json} (h : Exchange v w) (before after : List Json) :
    Exchange (.array (before ++ v :: after)) (.array (before ++ w :: after))
  | member {v w : Json} (h : Exchange v w) (name : String) (before after : List Member) :
    Exchange (.object (before ++ (name, v) :: after)) (.object (before ++ (name, w) :: after))

/-- Members change places any number of times. -/
def Reordered : Json → Json → Prop :=
  Relation.ReflTransGen Exchange

/-- An exchange is undone by an exchange. -/
theorem Exchange.symm {v w : Json} (h : Exchange v w) : Exchange w v := by
  induction h with
  | here h before after => exact .here h.symm before after
  | item _ before after ih => exact .item ih before after
  | member _ name before after ih => exact .member ih name before after

/-- What an exchange moves has no name in common, so that the members of each name stay. -/
theorem named_exchange {m n : Member} (h : m.1 ≠ n.1) (before after : List Member) (name : String) :
    named name (before ++ m :: n :: after) = named name (before ++ n :: m :: after) := by
  rw [named_append, named_append]
  refine congrArg (named name before ++ ·) ?_
  by_cases hm : m.1 = name
  · have hn : n.1 ≠ name := fun hn => h (hm.trans hn.symm)
    subst hm
    rw [named_cons_self, named_cons_of_ne hn, named_cons_of_ne hn, named_cons_self]
  · rw [named_cons_of_ne hm]
    by_cases hn : n.1 = name
    · subst hn
      rw [named_cons_self, named_cons_self, named_cons_of_ne hm]
    · rw [named_cons_of_ne hn, named_cons_of_ne hn, named_cons_of_ne hm]

/-- **An exchange keeps the value in order.** -/
theorem Exchange.sorted_eq {v w : Json} (h : Exchange v w) : v.sorted = w.sorted := by
  induction h with
  | @here m n h before after =>
    rw [sorted_object, sorted_object]
    refine congrArg object (sortMembers_eq_iff.mpr fun name => ?_)
    simp only [sortedMembers_eq_map, List.map_append, List.map_cons]
    exact named_exchange (m := (m.1, m.2.sorted)) (n := (n.1, n.2.sorted)) h _ _ name
  | item _ before after ih =>
    rw [sorted_array, sorted_array, List.map_append, List.map_append, List.map_cons, List.map_cons,
      ih]
  | member _ name before after ih =>
    rw [sorted_object, sorted_object, sortedObject, sortedObject]
    simp only [sortedMembers_eq_map, List.map_append, List.map_cons, ih]

namespace Reordered

variable {u v w : Json}

@[refl] theorem refl (v : Json) : Reordered v v :=
  Relation.ReflTransGen.refl

theorem trans (h : Reordered u v) (h' : Reordered v w) : Reordered u w :=
  Relation.ReflTransGen.trans h h'

theorem symm (h : Reordered v w) : Reordered w v := by
  induction h with
  | refl => exact refl v
  | tail _ hstep ih => exact (Relation.ReflTransGen.single hstep.symm).trans ih

/-- **Reordering keeps the value in order.** -/
theorem sorted_eq (h : Reordered v w) : v.sorted = w.sorted := by
  induction h with
  | refl => rfl
  | tail _ hstep ih => exact ih.trans hstep.sorted_eq

theorem item (h : Reordered v w) (before after : List Json) :
    Reordered (.array (before ++ v :: after)) (.array (before ++ w :: after)) := by
  induction h with
  | refl => exact refl _
  | tail _ hstep ih => exact Relation.ReflTransGen.tail ih (hstep.item before after)

theorem member (h : Reordered v w) (name : String) (before after : List Member) :
    Reordered (.object (before ++ (name, v) :: after))
      (.object (before ++ (name, w) :: after)) := by
  induction h with
  | refl => exact refl _
  | tail _ hstep ih => exact Relation.ReflTransGen.tail ih (hstep.member name before after)

/-- The items of an array are reordered one after the other. -/
theorem items {f : Json → Json} (before : List Json) {after : List Json}
    (h : ∀ v ∈ after, Reordered v (f v)) :
    Reordered (.array (before ++ after)) (.array (before ++ after.map f)) := by
  induction after generalizing before with
  | nil => exact refl _
  | cons v after ih =>
    obtain ⟨hv, hafter⟩ := List.forall_mem_cons.mp h
    have hrest := ih (before ++ [f v]) hafter
    rw [List.append_assoc, List.append_assoc] at hrest
    exact (hv.item before after).trans hrest

/-- The values of an object are reordered one after the other. -/
theorem members {f : Json → Json} (before : List Member) {after : List Member}
    (h : ∀ m ∈ after, Reordered m.2 (f m.2)) :
    Reordered (.object (before ++ after))
      (.object (before ++ after.map fun m => (m.1, f m.2))) := by
  induction after generalizing before with
  | nil => exact refl _
  | cons m after ih =>
    obtain ⟨hm, hafter⟩ := List.forall_mem_cons.mp h
    have hrest := ih (before ++ [(m.1, f m.2)]) hafter
    rw [List.append_assoc, List.append_assoc] at hrest
    exact (hm.member m.1 before after).trans hrest

/-- A member moves past members with other names. -/
theorem past {m : Member} {between : List Member} (h : ∀ n ∈ between, n.1 ≠ m.1)
    (before after : List Member) :
    Reordered (.object (before ++ m :: (between ++ after)))
      (.object (before ++ (between ++ m :: after))) := by
  induction between generalizing before with
  | nil => exact refl _
  | cons n between ih =>
    obtain ⟨hn, hbetween⟩ := List.forall_mem_cons.mp h
    have hrest := ih hbetween (before ++ [n])
    rw [List.append_assoc, List.append_assoc] at hrest
    exact (Relation.ReflTransGen.single (.here hn.symm before (between ++ after))).trans hrest

/-- **Members can be brought into every order** in which members of one name stand as before. -/
theorem of_named {a b : List Member} (before : List Member)
    (h : ∀ name, named name a = named name b) :
    Reordered (.object (before ++ a)) (.object (before ++ b)) := by
  induction a generalizing b before with
  | nil =>
    have hb : b = [] := List.eq_nil_iff_forall_not_mem.mpr fun n hn => by
      have hmem := mem_named.mpr ⟨hn, rfl⟩
      rw [← h n.1] at hmem
      cases hmem
    rw [hb]
  | cons m a ih =>
    -- the first member of this name in the other list is moved to the front of it
    have hfirst := h m.1
    rw [named_cons_self] at hfirst
    obtain ⟨between, after, rfl, hother, -, hafter⟩ := List.filter_eq_cons_iff.mp hfirst.symm
    have hbetween : ∀ n ∈ between, n.1 ≠ m.1 := fun n hn => by simpa using hother n hn
    have hrest : ∀ name, named name a = named name (between ++ after) := by
      intro name
      have hname := h name
      by_cases hm : m.1 = name
      · subst hm
        rw [named_append, named_eq_nil hbetween]
        exact hafter.symm
      · rwa [named_cons_of_ne hm, named_append, named_cons_of_ne hm, ← named_append] at hname
    have htail := ih (before ++ [m]) hrest
    rw [List.append_assoc, List.append_assoc] at htail
    exact htail.trans (past hbetween before after)

/-- Where names are distinct, members can be brought into every order. -/
theorem of_perm {a b : List Member} (hnames : (a.map (·.1)).Nodup) (h : a.Perm b) :
    Reordered (.object a) (.object b) :=
  of_named [] fun name => named_eq_of_perm (h.filter _) (length_named_le hnames name)

/-- Members can be brought in order, at every depth. -/
theorem sorted (v : Json) : Reordered v v.sorted := by
  induction v using ind with
  | null | bool _ | number _ | string _ => exact refl _
  | array values ih =>
    rw [sorted_array]
    exact items [] ih
  | object values ih =>
    rw [sorted_object, sortedObject, sortedMembers_eq_map]
    exact (members [] ih).trans (of_named [] fun name => (named_sortMembers name _).symm)

end Reordered

/-- **Values are the same in order exactly if one is the other reordered.** -/
theorem sorted_eq_iff {v w : Json} : v.sorted = w.sorted ↔ Reordered v w := by
  constructor
  · intro h
    have hv := Reordered.sorted v
    rw [h] at hv
    exact hv.trans (Reordered.sorted w).symm
  · exact Reordered.sorted_eq

/-- Order does not matter for the canonical octets. -/
theorem Reordered.canonicalBytes_eq {v w : Json} (h : Reordered v w) :
    v.canonicalBytes = w.canonicalBytes := by
  rw [← canonicalBytes_sorted v, h.sorted_eq, canonicalBytes_sorted]

/-- The canonical text of a value can be read again, as the value in order. -/
theorem parse?_canonicalBytes {v : Json} (hnumber : v.hasNumber = false)
    (hnames : v.distinctNames = true) (hdepth : v.depth ≤ maxDepth) :
    (Bytes.toString? v.canonicalBytes).bind parse? = some v.sorted := by
  rw [canonicalBytes, Bytes.toString?_ofString, Option.bind_some, parse?,
    ofText?_canonical hnumber .whole hdepth, Option.map_some,
    lastWins_eq_self (distinctNames_sorted hnames)]

end Json

/-! ### Hashes -/

namespace ContentHash

open Json (Reordered)

/-- **Canonical hashing sees the value up to the order of members, and nothing less.** Members whose
names are distinct may stand in any order, here and (by the exchanges that make up a reordering) at
any depth. Reordered values have the same canonical octets, the same hash and the same commitment,
and the same hashes are accepted as theirs. Without numbers only reordered values have the same
canonical octets, and the octets of a value whose names are distinct and that is not nested too
deeply are read as this value reordered, so that its canonical octets are those that were read. -/
theorem up_to_order :
    (∀ a b : List Json.Member, (a.map (·.1)).Nodup → a.Perm b →
      Reordered (.object a) (.object b)) ∧
    (∀ v w : Json, Reordered v w →
      v.canonicalBytes = w.canonicalBytes ∧ ofJson v = ofJson w ∧ commitment v = commitment w ∧
        ∀ hash, verify v hash = verify w hash) ∧
    (∀ v w : Json, v.hasNumber = false → w.hasNumber = false →
      v.canonicalBytes = w.canonicalBytes → Reordered v w) ∧
    ∀ v : Json, v.hasNumber = false → v.distinctNames = true → v.depth ≤ 127 →
      ∃ w, (Bytes.toString? v.canonicalBytes).bind Json.parse? = some w ∧ Reordered v w ∧
        w.canonicalBytes = v.canonicalBytes := by
  refine ⟨fun _ _ => Reordered.of_perm, fun v w h => ?_, fun v w hv hw h => ?_,
    fun v hnumber hnames hdepth => ?_⟩
  · have hbytes := h.canonicalBytes_eq
    have hhash : ofJson v = ofJson w := by rw [ofJson, hbytes, ofJson]
    refine ⟨hbytes, hhash, ?_, fun hash => ?_⟩
    · rw [commitment, hbytes, commitment]
    · rw [verify, hhash, verify]
  · exact Json.sorted_eq_iff.mp (Json.sorted_eq_of_canonicalBytes hv hw h)
  · exact ⟨v.sorted, Json.parse?_canonicalBytes hnumber hnames hdepth, Reordered.sorted v,
      Json.canonicalBytes_sorted v⟩

/-- Members that are not in order, one of them with a text that has to be escaped. -/
def sampleMembers : List Json.Member :=
  [("b", .null), ("a", .string "\"\\\n")]

/-- A value that contains these members, and whose own names are in order by code units only. -/
def sampleRecord (members : List Json.Member) : Json :=
  .object [("𝔸", .array [.bool true, .object members]), ("\uffff", .array [])]

theorem up_to_order_sample :
    ((sampleMembers.map (·.1)).Nodup ∧ sampleMembers.Perm sampleMembers.reverse) ∧
    Reordered (sampleRecord sampleMembers) (sampleRecord sampleMembers.reverse) ∧
    ofJson (sampleRecord sampleMembers) = ofJson (sampleRecord sampleMembers.reverse) ∧
    ((sampleRecord sampleMembers).hasNumber = false ∧
      (sampleRecord sampleMembers).distinctNames = true ∧
      (sampleRecord sampleMembers).depth ≤ 127) ∧
    ∃ w, (Bytes.toString? (sampleRecord sampleMembers).canonicalBytes).bind Json.parse? = some w ∧
      Reordered (sampleRecord sampleMembers) w := by
  have hnames : (sampleMembers.map (·.1)).Nodup := by decide
  have hperm : sampleMembers.Perm sampleMembers.reverse := (List.reverse_perm _).symm
  have hinner := up_to_order.1 _ _ hnames hperm
  have houter : Reordered (sampleRecord sampleMembers) (sampleRecord sampleMembers.reverse) :=
    (hinner.item [.bool true] []).member "𝔸" [] _
  obtain ⟨hbytes, hhash, -, -⟩ := up_to_order.2.1 _ _ houter
  have hnumber : (sampleRecord sampleMembers).hasNumber = false := by decide
  have hdistinct : (sampleRecord sampleMembers).distinctNames = true := by decide
  have hdepth : (sampleRecord sampleMembers).depth ≤ 127 := by decide
  obtain ⟨w, hparse, hw, -⟩ := up_to_order.2.2.2 _ hnumber hdistinct hdepth
  exact ⟨⟨hnames, hperm⟩, up_to_order.2.2.1 _ _ hnumber (by decide) hbytes, hhash,
    ⟨hnumber, hdistinct, hdepth⟩, w, hparse, hw⟩

end ContentHash

end DidMethods
