import DidMethods.Proofs.CanonicalJson
import DidMethods.Proofs.JwkJson
import DidMethods.Proofs.KeyNames
import DidMethods.Proofs.KeyPair

/-!
# The canonical form of a key

A key has one canonical form, which is obtained in two ways: its defining members are written down
by hand and in order (`DidMethods.Jwk.canonicalText`), or the key is freed of all other members and
its JSON form put in canonical order (`DidMethods.Jwk.commitment`). Both ways give the same octets,
since the two values are the same up to the order of members
(`DidMethods.Jwk.reordered_definingMembers`).

No two canonical keys have the same form, whatever characters their members contain: canonical
octets tell the value in order, and from this value the key is read again
(`DidMethods.Jwk.canonicalText_eq_iff`).

All names of a key are made of its canonical form (`DidMethods.Jwk.SameNames`). So they do not
depend on private and descriptive members, and where a key is read from JSON they depend on nothing
but the members that define it, wherever these stand and whatever other members there are
(`DidMethods.Jwk.one_canonical_form`).
-/

namespace DidMethods

namespace Json

/-! ### Members that count -/

/-- Members of these names are the same ones, whatever their order and whatever members of other
names stand between them. -/
def SameMembers (names : List String) (a b : List Member) : Prop :=
  (a.filter fun m => m.1 ∈ names).Perm (b.filter fun m => m.1 ∈ names)

section Same

variable {names fewer : List String} {a b : List Member} {name : String}

theorem named_filter_mem (h : name ∈ names) (members : List Member) :
    named name (members.filter fun m => m.1 ∈ names) = named name members := by
  rw [named, List.filter_filter, named]
  refine List.filter_congr fun m _ => ?_
  by_cases hm : m.1 = name
  · simp [hm, h]
  · simp [hm]

theorem length_named_le_of_unique (h : uniqueNames names a = true) (hname : name ∈ names) :
    (named name a).length ≤ 1 :=
  of_decide_eq_true (List.all_eq_true.mp h name hname)

theorem SameMembers.named_perm (h : SameMembers names a b) (hname : name ∈ names) :
    (named name a).Perm (named name b) := by
  have hperm := h.filter fun m => m.1 == name
  rwa [← named, ← named, named_filter_mem hname, named_filter_mem hname] at hperm

/-- Where there are no two members of a name, the same is found under it. -/
theorem SameMembers.lookup_eq (h : SameMembers names a b) (hunique : uniqueNames names a = true)
    (hname : name ∈ names) : a.lookup name = b.lookup name := by
  have hnamed := named_eq_of_perm (h.named_perm hname) (length_named_le_of_unique hunique hname)
  rw [lookup_eq_named, lookup_eq_named, hnamed]

theorem SameMembers.unique (h : SameMembers names a b) (hunique : uniqueNames names a = true) :
    uniqueNames names b = true := by
  refine List.all_eq_true.mpr fun name hname => decide_eq_true ?_
  have hlength := (h.named_perm hname).length_eq
  exact hlength ▸ length_named_le_of_unique hunique hname

theorem uniqueNames_mono (hsub : fewer ⊆ names) (h : uniqueNames names a = true) :
    uniqueNames fewer a = true :=
  List.all_eq_true.mpr fun name hname => List.all_eq_true.mp h name (hsub hname)

theorem required?_congr {α : Type} {read : Json → Option α} (h : a.lookup name = b.lookup name) :
    required? a name read = required? b name read := by
  rw [required?, h, required?]

theorem optional?_congr {α : Type} {read : Json → Option α} (h : a.lookup name = b.lookup name) :
    optional? a name read = optional? b name read := by
  rw [optional?, h, optional?]

end Same

end Json

namespace Jwk

open Json (Reordered SameMembers required? string?)

/-! ### Two ways to the canonical form -/

/-- **The two ways lead to one value**, up to the order of members. -/
theorem reordered_definingMembers (k : Jwk) : Reordered k.canonical.toJson k.definingMembers := by
  cases k with
  | ec k => exact .single (.here (by decide : "kty" ≠ "crv") [] _)
  | okp k => exact .single (.here (by decide : "kty" ≠ "crv") [] _)
  | oct k => exact .single (.here (by decide : "kty" ≠ "k") [] _)
  | rsa k =>
    -- the exponent passes the modulus first, and then the type
    refine Relation.ReflTransGen.tail (.single
      (.here (m := ("n", _)) (n := ("e", _)) (by decide : "n" ≠ "e") [("kty", _)] [])) ?_
    exact .here (m := ("kty", _)) (n := ("e", _)) (by decide : "kty" ≠ "e") [] _

theorem ofString_canonicalText (k : Jwk) :
    Bytes.ofString k.canonicalText = k.canonical.toJson.canonicalBytes :=
  k.reordered_definingMembers.canonicalBytes_eq.symm

/-! ### One form for one key -/

/-- **The canonical form tells the key**, whatever characters its members contain. -/
theorem canonicalText_eq_iff {j k : Jwk} :
    j.canonicalText = k.canonicalText ↔ j.canonical = k.canonical := by
  constructor
  · intro h
    have hbytes : j.canonical.toJson.canonicalBytes = k.canonical.toJson.canonicalBytes := by
      rw [← ofString_canonicalText, h, ofString_canonicalText]
    have hsorted := Json.sorted_eq_of_canonicalBytes j.canonical.hasNumber_toJson
      k.canonical.hasNumber_toJson hbytes
    -- the key is read from the value in order
    have hread := j.canonical.ofTaggedJson?_toJson
    rw [hsorted, k.canonical.ofTaggedJson?_toJson] at hread
    exact (Option.some.inj hread).symm
  · exact fun h => (sameNames_of_canonical h).canonicalText

/-- The canonical key is its type, and the members that define a key of this type. -/
theorem canonical_eq_iff {j k : Jwk} :
    j.canonical = k.canonical ↔ j.kty = k.kty ∧ j.definingTexts = k.definingTexts := by
  cases j <;> cases k <;> simp [canonical, kty, definingTexts]

theorem definingMembers_eq_iff {j k : Jwk} :
    j.definingMembers = k.definingMembers ↔ j.canonical = k.canonical := by
  cases j <;> cases k <;> simp [canonical, definingMembers, and_comm]

/-- Where keys do not collide, their thumbprints tell whether they are the same. -/
theorem thumbprint_eq_iff {j k : Jwk} (h : ¬ j.Collide k) :
    k.thumbprint = j.thumbprint ↔ k.canonical = j.canonical := by
  constructor
  · intro hthumbprint
    by_contra hne
    exact h ⟨Ne.symm hne, hthumbprint.symm⟩
  · exact fun hcanonical => (sameNames_of_canonical hcanonical).thumbprint

/-! ### Keys that are read -/

/-- The names of the members that define a key of its type. -/
def definingNames (k : Jwk) : List String :=
  "kty" :: k.definingTexts.map (·.1)

/-- The readers of a key: a type is told by its name, or also by its place among the types. -/
def readers : List (Json → Option Jwk) :=
  [ofJson?, ofTaggedJson?]

section Read

variable {a b : List Json.Member} {j k : Jwk}

theorem definingNames_subset (k : Jwk) : k.definingNames ⊆ k.memberNames :=
  List.cons_subset_cons _ (List.subset_append_left _ _)

/-- Keys of one type are defined by members of the same names. -/
theorem definingNames_eq (h : j.kty = k.kty) : j.definingNames = k.definingNames := by
  cases j <;> cases k <;> simp_all [kty, definingNames, definingTexts]

/-- What a reader reads is told by the type, and by the members that the type lets it look at. -/
theorem exists_tag {read : Json → Option Jwk} (hread : read ∈ readers) :
    ∃ tag : Json → Option String, ∀ (a : List Json.Member) (k : Jwk),
      read (.object a) = some k ↔ required? a "kty" tag = some k.kty ∧ k.Shows a := by
  have hkey : ∀ (tag : Json → Option String) (a : List Json.Member) (k : Jwk),
      ((a.lookup "kty").bind tag).bind (ofMembers? · (.object a)) = some k ↔
        required? a "kty" tag = some k.kty ∧ k.Shows a := by
    intro tag a k
    rw [Option.bind_eq_some_iff, required?]
    constructor
    · rintro ⟨kty, hkty, hmembers⟩
      obtain ⟨rfl, hshows⟩ := ofMembers?_eq_some.mp hmembers
      exact ⟨hkty, hshows⟩
    · rintro ⟨hkty, hshows⟩
      exact ⟨k.kty, hkty, ofMembers?_eq_some.mpr ⟨rfl, hshows⟩⟩
  rw [readers, List.mem_cons, List.mem_singleton] at hread
  rcases hread with rfl | rfl
  · exact ⟨string?, hkey string?⟩
  · exact ⟨Json.tag? types, hkey (Json.tag? types)⟩

/-- A key is shown by its members, in whatever order and among whatever others. -/
theorem Shows.of_same (h : SameMembers k.memberNames a b) (ha : k.Shows a) : k.Shows b := by
  refine ⟨h.unique ha.unique, fun m hm => ?_, fun m hm => ?_⟩
  · have hname : m.1 ∈ k.memberNames :=
      List.mem_cons_of_mem _ (List.mem_append_left _ (List.mem_map_of_mem hm))
    rw [← Json.required?_congr (h.lookup_eq ha.unique hname)]
    exact ha.defining m hm
  · have hname : m.1 ∈ k.memberNames :=
      List.mem_cons_of_mem _ (List.mem_append_right _ (List.mem_map_of_mem hm))
    rw [← Json.optional?_congr (h.lookup_eq ha.unique hname)]
    exact ha.further m hm

/-- The defining members of a key that is shown are the ones found. -/
theorem Shows.map_definingTexts (ha : k.Shows a) :
    k.definingTexts.map (fun m => (m.1, some m.2)) =
      (k.definingTexts.map (·.1)).map fun name => (name, required? a name string?) := by
  rw [List.map_map]
  exact List.map_congr_left fun m hm => congrArg (Prod.mk m.1) (ha.defining m hm).symm

/-- **Members that define one key do not define another**, whatever stands beside them. -/
theorem Shows.canonical_eq (ha : k.Shows a) (hb : j.Shows b) (hkty : j.kty = k.kty)
    (h : SameMembers k.definingNames a b) : j.canonical = k.canonical := by
  have hunique := Json.uniqueNames_mono k.definingNames_subset ha.unique
  have hnames : j.definingTexts.map (·.1) = k.definingTexts.map (·.1) :=
    (List.cons.inj (definingNames_eq hkty)).2
  have htexts : j.definingTexts.map (fun m => (m.1, some m.2)) =
      k.definingTexts.map fun m => (m.1, some m.2) := by
    rw [hb.map_definingTexts, ha.map_definingTexts, hnames]
    refine List.map_congr_left fun name hname => congrArg (Prod.mk name) ?_
    exact (Json.required?_congr (h.lookup_eq hunique (List.mem_cons_of_mem _ hname))).symm
  have hinjective : Function.Injective fun m : String × String => (m.1, some m.2) := by
    rintro ⟨s, t⟩ ⟨s', t'⟩ hpair
    simpa using hpair
  exact canonical_eq_iff.mpr ⟨hkty, List.map_injective_iff.mpr hinjective htexts⟩

/-- **Reading does not depend on the order of members, nor on members that no key has.** -/
theorem read_of_same {read : Json → Option Jwk} (hread : read ∈ readers)
    (ha : read (.object a) = some k) (h : SameMembers k.memberNames a b) :
    read (.object b) = some k := by
  obtain ⟨tag, htag⟩ := exists_tag hread
  obtain ⟨hkty, hshows⟩ := (htag a k).mp ha
  rw [htag b k, ← Json.required?_congr (h.lookup_eq hshows.unique List.mem_cons_self)]
  exact ⟨hkty, hshows.of_same h⟩

/-- **Keys that are read from the same defining members have the same names.** -/
theorem sameNames_of_read {read : Json → Option Jwk} (hread : read ∈ readers)
    (ha : read (.object a) = some k) (hb : read (.object b) = some j)
    (h : SameMembers k.definingNames a b) : SameNames j k := by
  obtain ⟨tag, htag⟩ := exists_tag hread
  obtain ⟨hka, hashows⟩ := (htag a k).mp ha
  obtain ⟨hjb, hbshows⟩ := (htag b j).mp hb
  have hunique := Json.uniqueNames_mono k.definingNames_subset hashows.unique
  rw [← Json.required?_congr (h.lookup_eq hunique List.mem_cons_self), hka] at hjb
  exact sameNames_of_canonical (hashows.canonical_eq hbshows (Option.some.inj hjb).symm h)

end Read

/-- **A key has one canonical form, and no other key has it.** The text of the defining members is
the canonical JSON of the key that has no others; canonical keys stay as they are; keys have the
same text exactly if they have the same canonical key, that is, the same type and the same defining
members. So all that is made of the text is the same for keys with one canonical key, as are a key
and its public part, and a key under whatever descriptive members. Where a key is read from JSON,
the order of members does not matter, and a member that no key has may be there; any other key that
is read from the same defining members has the same names. -/
theorem one_canonical_form :
    (∀ k : Jwk, Bytes.ofString k.canonicalText = k.canonical.toJson.canonicalBytes ∧
      k.canonical.canonical = k.canonical ∧ SameNames k.toPublic k ∧
        ∀ params, SameNames (k.withParams params) k) ∧
    (∀ j k : Jwk, (j.canonicalText = k.canonicalText ↔ j.canonical = k.canonical) ∧
      (j.canonical = k.canonical ↔ j.definingMembers = k.definingMembers) ∧
        (j.canonical = k.canonical → SameNames j k)) ∧
    ∀ read ∈ readers, ∀ (a b : List Json.Member) (k : Jwk), read (.object a) = some k →
      (SameMembers k.memberNames a b → read (.object b) = some k) ∧
        ∀ j, read (.object b) = some j → SameMembers k.definingNames a b → SameNames j k := by
  refine ⟨fun k => ⟨k.ofString_canonicalText, k.canonical_canonical, ?_, fun params => ?_⟩,
    fun j k => ⟨canonicalText_eq_iff, definingMembers_eq_iff.symm, sameNames_of_canonical⟩,
    fun read hread a b k ha => ⟨read_of_same hread ha, fun j hb h => ?_⟩⟩
  · exact sameNames_of_canonical k.canonical_toPublic
  · exact sameNames_of_canonical (canonical_withParams params k)
  · exact sameNames_of_read hread ha hb h

/-- The members of a key whose coordinate has to be escaped. -/
def sampleInput : List Json.Member :=
  [("kty", .string "OKP"), ("crv", .string "Ed25519"), ("x", .string "\"é\n")]

/-- The same members in another order, and one that no key has. -/
def sampleReversed : List Json.Member :=
  ("note", .null) :: sampleInput.reverse

/-- The same members, a private and a descriptive one. -/
def samplePrivate : List Json.Member :=
  ("d", .string "AQ") :: ("kid", .string "key-1") :: sampleInput

/-- The key of the first two. -/
def sampleKey : Jwk :=
  okp { crv := "Ed25519", x := "\"é\n" }

/-- The key of the third. -/
def samplePrivateKey : Jwk :=
  okp { crv := "Ed25519", x := "\"é\n", d := some "AQ", params := { kid := some "key-1" } }

theorem one_canonical_form_sample :
    (ofJson? (.object sampleInput) = some sampleKey ∧
      SameMembers sampleKey.memberNames sampleInput sampleReversed ∧
        ofJson? (.object sampleReversed) = some sampleKey) ∧
    (ofJson? (.object samplePrivate) = some samplePrivateKey ∧
      SameMembers sampleKey.definingNames sampleInput samplePrivate ∧
        SameNames samplePrivateKey sampleKey) := by
  have hread : ofJson? (.object sampleInput) = some sampleKey := by decide
  have hreversed : SameMembers sampleKey.memberNames sampleInput sampleReversed :=
    (List.reverse_perm sampleInput).symm
  have hprivate : ofJson? (.object samplePrivate) = some samplePrivateKey := by decide
  have hdefining : SameMembers sampleKey.definingNames sampleInput samplePrivate :=
    List.Perm.refl sampleInput
  obtain ⟨horder, -⟩ := one_canonical_form.2.2 ofJson? List.mem_cons_self _ sampleReversed _ hread
  obtain ⟨-, hnames⟩ := one_canonical_form.2.2 ofJson? List.mem_cons_self _ samplePrivate _ hread
  exact ⟨⟨hread, hreversed, horder hreversed⟩, hprivate, hdefining, hnames _ hprivate hdefining⟩

end Jwk

end DidMethods
