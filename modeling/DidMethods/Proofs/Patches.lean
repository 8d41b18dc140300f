import DidMethods.Proofs.StateSoundness

/-!
# Patches as changes of a map

A state is a list of keys and a list of services, and each of them is a map in the order of its
entries: an entry is known by its identifier. What a patch does to one of the lists is one of four
things (`DidMethods.Sidetree.Change`), and the two lists do not get in each other's way
(`DidMethods.Sidetree.State.apply_eq`). So all there is to know about patches is known of changes of
a list of entries of any kind.

Entries are put into a list one by one, each dropping those of its identifier and going to the end.
In the closed form, the entries whose identifiers are among the new ones go, and of the new ones
the last of each identifier are appended (`DidMethods.Sidetree.putAll_eq`). After any changes, the
entry of an identifier is the one that the last change speaks of which has something to say about
it (`DidMethods.Sidetree.Change.find?_foldl`).
-/

namespace DidMethods.Sidetree

/-! ### Lists of entries -/

section Entries

variable {α : Type} {id : α → String} {entries new : List α} {ids more : List String} {i : String}

/-- The entries of which no later one has the identifier. -/
def latest (id : α → String) : List α → List α
  | [] => []
  | e :: rest => if id e ∈ rest.map id then latest id rest else e :: latest id rest

theorem mem_of_mem_latest {e : α} (h : e ∈ latest id entries) : e ∈ entries := by
  induction entries with
  | nil => exact h
  | cons f rest ih =>
    rw [latest] at h
    split at h
    · exact List.mem_cons_of_mem f (ih h)
    · exact List.mem_cons.mpr ((List.mem_cons.mp h).imp_right ih)

theorem drop_eq_filter : drop id ids entries = entries.filter fun e => id e ∉ ids := by
  refine List.filter_congr fun e _ => ?_
  simp

theorem drop_append (front back : List α) :
    drop id ids (front ++ back) = drop id ids front ++ drop id ids back :=
  List.filter_append front back

theorem drop_drop : drop id more (drop id ids entries) = drop id (ids ++ more) entries := by
  simp only [drop, List.filter_filter]
  refine List.filter_congr fun e _ => ?_
  simp [Bool.and_comm]

/-- There is nothing left to drop. -/
theorem drop_eq_nil (h : ∀ e ∈ entries, id e ∈ ids) : drop id ids entries = [] := by
  refine List.filter_eq_nil_iff.mpr fun e he => ?_
  simpa using h e he

/-- **Entries that are put one by one**: those with their identifiers are gone, and the last one of
each identifier is appended. -/
theorem putAll_eq : putAll id entries new = drop id (new.map id) entries ++ latest id new := by
  induction new generalizing entries with
  | nil => simp [putAll, latest, drop]
  | cons e rest ih =>
    have hput : putAll id entries (e :: rest) = putAll id (put id entries e) rest := rfl
    rw [hput, ih, put, drop_append, drop_drop, List.append_assoc, latest]
    refine congrArg (drop id _ entries ++ ·) ?_
    -- the entry that was put first stays if none of the rest takes its place
    by_cases h : id e ∈ rest.map id
    · rw [if_pos h, drop_eq_nil (List.forall_mem_singleton.mpr h), List.nil_append]
    · rw [if_neg h, drop_eq_filter, List.filter_cons_of_pos (by simpa using h), List.filter_nil]
      rfl

/-! ### Looking an entry up -/

theorem find?_drop : (drop id ids entries).find? (fun e => id e == i) =
    if i ∈ ids then none else entries.find? fun e => id e == i := by
  rw [drop, List.find?_filter]
  split
  · next h =>
    refine List.find?_eq_none.mpr fun e _ => ?_
    simp only [Bool.not_eq_eq_eq_not, decide_eq_true_eq, not_and]
    rintro hfree heq
    rw [beq_iff_eq.mp heq] at hfree
    simp [h] at hfree
  · next h =>
    refine congrArg (List.find? · entries) (funext fun e => ?_)
    by_cases he : id e = i
    · simp [he, h]
    · simp [he]

theorem find?_put {e : α} : (put id entries e).find? (fun f => id f == i) =
    if id e = i then some e else entries.find? fun f => id f == i := by
  rw [put, List.find?_append, find?_drop]
  by_cases h : id e = i
  · simp [h]
  · simp [h, Ne.symm h]

/-- The last one of the new entries counts, and an old entry where there is none. -/
theorem find?_putAll : (putAll id entries new).find? (fun e => id e == i) =
    (new.reverse.find? fun e => id e == i).or (entries.find? fun e => id e == i) := by
  induction new generalizing entries with
  | nil => rfl
  | cons e rest ih =>
    have hput : putAll id entries (e :: rest) = putAll id (put id entries e) rest := rfl
    rw [hput, ih, find?_put, List.reverse_cons, List.find?_append, Option.or_assoc]
    by_cases h : id e = i <;> simp [h]

end Entries

/-! ### Changes of a list of entries -/

/-- What a patch does to one of the lists of a state. -/
inductive Change (α : Type) where
  /-- It leaves the list as it is. -/
  | keep
  /-- Other entries take its place. -/
  | replace (entries : List α)
  /-- Entries are put. -/
  | add (new : List α)
  /-- Entries are dropped. -/
  | remove (ids : List String)

namespace Change

variable {α : Type} (id : α → String)

/-- The entries after a change. -/
def apply (entries : List α) : Change α → List α
  | keep => entries
  | replace entries => entries
  | add new => putAll id entries new
  | remove ids => drop id ids entries

/-- What a change says about an identifier: nothing, or which entry has it afterwards, if any. -/
def answer? (i : String) : Change α → Option (Option α)
  | keep => none
  | replace entries => some (entries.find? fun e => id e == i)
  | add new => (new.reverse.find? fun e => id e == i).map some
  | remove ids => if i ∈ ids then some none else none

variable {id} {entries : List α} {i : String}

/-- **A change has its say** about an identifier, or else its entry is the one of before. -/
theorem find?_apply (c : Change α) : (c.apply id entries).find? (fun e => id e == i) =
    (c.answer? id i).getD (entries.find? fun e => id e == i) := by
  cases c with
  | keep => rfl
  | replace new => rfl
  | add new =>
    rw [apply, find?_putAll, answer?]
    cases new.reverse.find? fun e => id e == i <;> rfl
  | remove ids =>
    rw [apply, find?_drop, answer?]
    split <;> rfl

/-- **The last change that says something about an identifier decides** which entry has it. -/
theorem find?_foldl (changes : List (Change α)) :
    (changes.foldl (apply id) entries).find? (fun e => id e == i) =
      (changes.reverse.findSome? (answer? id i)).getD (entries.find? fun e => id e == i) := by
  induction changes generalizing entries with
  | nil => rfl
  | cons c rest ih =>
    rw [List.foldl_cons, ih, find?_apply, List.reverse_cons, List.findSome?_append]
    cases rest.reverse.findSome? (answer? id i) with
    | some said => rfl
    | none => cases hsaid : c.answer? id i <;> simp [hsaid]

/-- To make a change once more changes nothing. -/
theorem apply_apply (c : Change α) : c.apply id (c.apply id entries) = c.apply id entries := by
  cases c with
  | keep => rfl
  | replace new => rfl
  | add new =>
    have hlatest : drop id (new.map id) (latest id new) = [] :=
      drop_eq_nil fun e he => List.mem_map_of_mem (mem_of_mem_latest he)
    simp only [apply, putAll_eq, drop_append, drop_drop, hlatest, List.append_nil]
    refine congrArg (· ++ latest id new) ?_
    rw [drop_eq_filter, drop_eq_filter]
    simp
  | remove ids =>
    rw [apply, apply, drop_drop, drop_eq_filter, drop_eq_filter]
    simp

end Change

/-! ### Patches of a state -/

/-- What a patch does to the keys. -/
def Patch.onKeys : Patch → Change KeyEntry
  | replace state => .replace state.keys
  | addKeys keys => .add keys
  | removeKeys ids => .remove ids
  | addServices _ | removeServices _ => .keep

/-- What a patch does to the services. -/
def Patch.onServices : Patch → Change ServiceEntry
  | replace state => .replace state.services
  | addServices services => .add services
  | removeServices ids => .remove ids
  | addKeys _ | removeKeys _ => .keep

namespace State

/-- **A patch changes the keys and the services each by themselves.** -/
theorem apply_eq (s : State) (p : Patch) :
    s.apply p =
      ⟨p.onKeys.apply KeyEntry.id s.keys, p.onServices.apply ServiceEntry.id s.services⟩ := by
  cases p <;> rfl

theorem applyAll_eq (s : State) (patches : List Patch) :
    s.applyAll patches =
      ⟨(patches.map Patch.onKeys).foldl (Change.apply KeyEntry.id) s.keys,
        (patches.map Patch.onServices).foldl (Change.apply ServiceEntry.id) s.services⟩ := by
  induction patches generalizing s with
  | nil => rfl
  | cons p patches ih =>
    change (s.apply p).applyAll patches = _
    rw [ih, apply_eq]
    rfl

/-- No two keys and no two services have the same identifier. -/
def NoRepeats (s : State) : Prop :=
  (s.keys.map KeyEntry.id).Nodup ∧ (s.services.map ServiceEntry.id).Nodup

/-- **Identifiers stay different** as long as the states that are brought in do not repeat any. -/
theorem NoRepeats.applyAll {s : State} (h : s.NoRepeats) {patches : List Patch}
    (hpatches : ∀ t, Patch.replace t ∈ patches → t.NoRepeats) : (s.applyAll patches).NoRepeats := by
  have hall : ∀ t : State, t.NoRepeats → t.All (fun _ => True) fun _ => True :=
    fun t ht => ⟨⟨fun _ _ => trivial, ht.1⟩, ⟨fun _ _ => trivial, ht.2⟩⟩
  have hpatch : ∀ p ∈ patches, p.NoRepeats := by
    intro p hp
    cases p with
    | replace t => exact hall t (hpatches t hp)
    | removeKeys ids => trivial
    | removeServices ids => trivial
    | addKeys keys => exact fun _ _ => trivial
    | addServices services => exact fun _ _ => trivial
  have hafter := (hall s h).applyAll hpatch
  exact ⟨hafter.keys.nodup, hafter.services.nodup⟩

/-- **Patches act on a state as on two ordered maps.** Entries that are added take the place of
those with their identifiers, at the end and in order, the last of each identifier; those that are
removed are gone, and a new state is what it is. The entry of an identifier is the one that the last
patch says which touches it, and no identifier is repeated unless a state is brought in with it.
To apply a patch once more changes nothing, and patches of keys commute with those of services. -/
theorem orderedMap_apply (s : State) :
    (∀ keys, s.apply (.addKeys keys) =
      { s with
        keys := s.keys.filter (fun e => e.id ∉ keys.map KeyEntry.id) ++
          latest KeyEntry.id keys }) ∧
    (∀ ids, s.apply (.removeKeys ids) = { s with keys := s.keys.filter fun e => e.id ∉ ids }) ∧
    (∀ services, s.apply (.addServices services) =
      { s with
        services := s.services.filter (fun e => e.id ∉ services.map ServiceEntry.id) ++
          latest ServiceEntry.id services }) ∧
    (∀ ids, s.apply (.removeServices ids) =
      { s with services := s.services.filter fun e => e.id ∉ ids }) ∧
    (∀ t, s.apply (.replace t) = t) ∧
    (∀ patches, s.NoRepeats → (∀ t, Patch.replace t ∈ patches → t.NoRepeats) →
      (s.applyAll patches).NoRepeats) ∧
    (∀ patches i,
      (s.applyAll patches).keys.find? (fun e => e.id == i) =
        (patches.reverse.findSome? fun p => p.onKeys.answer? KeyEntry.id i).getD
          (s.keys.find? fun e => e.id == i) ∧
      (s.applyAll patches).services.find? (fun e => e.id == i) =
        (patches.reverse.findSome? fun p => p.onServices.answer? ServiceEntry.id i).getD
          (s.services.find? fun e => e.id == i)) ∧
    (∀ p, (s.apply p).apply p = s.apply p) ∧
    ∀ p q, p.onServices = .keep → q.onKeys = .keep →
      (s.apply p).apply q = (s.apply q).apply p := by
  refine ⟨fun keys => ?_, fun ids => ?_, fun services => ?_, fun ids => ?_, fun t => rfl,
    fun patches h hpatches => h.applyAll hpatches, fun patches i => ⟨?_, ?_⟩, fun p => ?_,
    fun p q hp hq => ?_⟩
  · rw [State.apply, putAll_eq, drop_eq_filter]
  · rw [State.apply, drop_eq_filter]
  · rw [State.apply, putAll_eq, drop_eq_filter]
  · rw [State.apply, drop_eq_filter]
  · rw [applyAll_eq, Change.find?_foldl, ← List.map_reverse, List.findSome?_map]
    rfl
  · rw [applyAll_eq, Change.find?_foldl, ← List.map_reverse, List.findSome?_map]
    rfl
  · simp only [apply_eq, Change.apply_apply]
  · simp only [apply_eq, hp, hq, Change.apply]

/-- A key of some type, for a sample. -/
def sampleKey (id type : String) : KeyEntry :=
  ⟨id, type, .okp { crv := "Ed25519", x := "" }, []⟩

/-- A state with two keys and a service. -/
def patchedState : State where
  keys := [sampleKey "key-1" "Multikey", sampleKey "key-2" "Multikey"]
  services := [⟨"hub", "Hub", .text "https://hub.example"⟩]

/-- Patches that take the place of a key twice, remove the other one, and remove a service that is
not there. -/
def samplePatches : List Patch :=
  [.addKeys [sampleKey "key-1" "Multikey", sampleKey "key-3" "Multikey",
    sampleKey "key-1" "JsonWebKey2020"], .removeKeys ["key-2"], .removeServices ["files"]]

theorem orderedMap_apply_sample :
    (patchedState.applyAll samplePatches).NoRepeats ∧
      (patchedState.applyAll samplePatches).keys.find? (fun e => e.id == "key-1") =
        some (sampleKey "key-1" "JsonWebKey2020") ∧
      (patchedState.applyAll samplePatches).keys.find? (fun e => e.id == "key-2") = none ∧
      (patchedState.applyAll samplePatches).services.find? (fun e => e.id == "hub") =
        some ⟨"hub", "Hub", .text "https://hub.example"⟩ := by
  obtain ⟨-, -, -, -, -, hrepeats, hentry, -, -⟩ := orderedMap_apply patchedState
  have hstart : patchedState.NoRepeats := ⟨by decide, by decide⟩
  have hreplace : ∀ t, Patch.replace t ∈ samplePatches → t.NoRepeats := by
    intro t ht
    simp [samplePatches] at ht
  refine ⟨hrepeats _ hstart hreplace, ?_, ?_, ?_⟩
  · rw [(hentry _ _).1]
    rfl
  · rw [(hentry _ _).1]
    rfl
  · rw [(hentry _ _).2]
    rfl

end State

end DidMethods.Sidetree
