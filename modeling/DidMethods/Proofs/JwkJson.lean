import DidMethods.Key.Jwk
import DidMethods.Proofs.JsonRecord

/-!
# Reading back a written key

A key of any type is written as the same kind of members: its type, the texts that define it
(`DidMethods.Jwk.definingTexts`), and texts that it may have besides
(`DidMethods.Jwk.furtherTexts`). A key is read from an object exactly if the object shows it, that
is, has these texts under their names, and no name of them twice
(`DidMethods.Jwk.ofMembers?_eq_some`). The object as it was written does
(`DidMethods.Jwk.ofJson?_asWritten`), and so does the one that is read from the canonical text
(`DidMethods.Jwk.ofTaggedJson?_toJson`).
-/

namespace DidMethods

open Json

namespace Jwk

/-! ### The members of a key -/

/-- The descriptive members, by name. -/
def Params.texts (p : Params) : List (String × Option String) :=
  [("kid", p.kid), ("alg", p.alg), ("use", p.use)]

/-- The members that define a key of its type, by name. -/
def definingTexts : Jwk → List (String × String)
  | ec k => [("crv", k.crv), ("x", k.x), ("y", k.y)]
  | okp k => [("crv", k.crv), ("x", k.x)]
  | oct k => [("k", k.k)]
  | rsa k => [("n", k.n), ("e", k.e)]

/-- The members that a key of its type may have besides, by name. -/
def furtherTexts : Jwk → List (String × Option String)
  | ec k => ("d", k.d) :: k.params.texts
  | okp k => ("d", k.d) :: k.params.texts
  | oct k => k.params.texts
  | rsa k => [("d", k.d), ("p", k.p), ("q", k.q), ("dp", k.dp), ("dq", k.dq), ("qi", k.qi)] ++
      k.params.texts

/-- The names of all members that a key of its type may have. -/
def memberNames (k : Jwk) : List String :=
  "kty" :: (k.definingTexts.map (·.1) ++ k.furtherTexts.map (·.1))

/-- The members of a written key, those included that are not there. -/
def writtenMembers (k : Jwk) : List (String × Option Json) :=
  ("kty", some (.string k.kty)) ::
    (k.definingTexts.map (fun m => (m.1, some (.string m.2))) ++
      k.furtherTexts.map fun m => (m.1, m.2.map .string))

theorem toJson_eq (k : Jwk) : k.toJson = compact k.writtenMembers := by
  cases k <;> rfl

theorem nodup_memberNames (k : Jwk) : k.memberNames.Nodup := by
  cases k with
  | ec _ => exact (by decide : ["kty", "crv", "x", "y", "d", "kid", "alg", "use"].Nodup)
  | okp _ => exact (by decide : ["kty", "crv", "x", "d", "kid", "alg", "use"].Nodup)
  | oct _ => exact (by decide : ["kty", "k", "kid", "alg", "use"].Nodup)
  | rsa _ =>
    exact (by decide :
      ["kty", "n", "e", "d", "p", "q", "dp", "dq", "qi", "kid", "alg", "use"].Nodup)

theorem nodup_writtenMembers (k : Jwk) : (k.writtenMembers.map (·.1)).Nodup := by
  rw [writtenMembers, List.map_cons, List.map_append, List.map_map, List.map_map]
  exact k.nodup_memberNames

theorem mem_writtenMembers {k : Jwk} {m : String × Option Json} :
    m ∈ k.writtenMembers ↔ m = ("kty", some (.string k.kty)) ∨
      (∃ t ∈ k.definingTexts, (t.1, some (.string t.2)) = m) ∨
        ∃ t ∈ k.furtherTexts, (t.1, t.2.map .string) = m := by
  rw [writtenMembers, List.mem_cons, List.mem_append, List.mem_map, List.mem_map]

/-- All members of a key are texts. -/
theorem exists_text_of_mem_writtenMembers {k : Jwk} {m : String × Option Json}
    (hm : m ∈ k.writtenMembers) {v : Json} (hv : v ∈ m.2) : ∃ s, v = .string s := by
  rcases mem_writtenMembers.mp hm with rfl | ⟨t, -, rfl⟩ | ⟨t, -, rfl⟩
  · exact ⟨_, (Option.some.inj hv).symm⟩
  · exact ⟨_, (Option.some.inj hv).symm⟩
  · obtain ⟨s, -, rfl⟩ := Option.map_eq_some_iff.mp hv
    exact ⟨s, rfl⟩

/-! ### Reading the members -/

/-- The members of an object show a key. -/
@[mk_iff]
structure Shows (found : List Member) (k : Jwk) : Prop where
  /-- No member that a key of this type may have is there twice. -/
  unique : uniqueNames k.memberNames found = true
  /-- The members that define the key are there. -/
  defining : ∀ m ∈ k.definingTexts, required? found m.1 string? = some m.2
  /-- The other members are there if the key has them. -/
  further : ∀ m ∈ k.furtherTexts, optional? found m.1 string? = some m.2

section Object

variable {found : List Member} {j k : Jwk} {kty : String}

theorem Params.ofMembers?_eq_some {p : Params} :
    Params.ofMembers? found = some p ↔ ∀ m ∈ p.texts, optional? found m.1 string? = some m.2 := by
  obtain ⟨kid, alg, use⟩ := p
  simp [Params.ofMembers?, Params.texts, Option.bind_eq_some_iff]

theorem ecOfJson?_eq_some :
    ecOfJson? (object found) = some j ↔ ∃ k, ec k = j ∧ (ec k).Shows found := by
  simp only [ecOfJson?, Option.bind_eq_bind, Option.bind_eq_some_iff, flatRecord?_eq_some,
    Params.ofMembers?_eq_some, shows_iff, definingTexts, furtherTexts, List.forall_mem_cons,
    List.not_mem_nil, false_implies, implies_true, and_true]
  constructor
  · rintro ⟨_, ⟨hunique, rfl⟩, crv, hcrv, x, hx, y, hy, d, hd, params, hparams, hj⟩
    exact ⟨⟨crv, x, y, d, params⟩, Option.some.inj hj, hunique, ⟨hcrv, hx, hy⟩, hd, hparams⟩
  · rintro ⟨k, rfl, hunique, ⟨hcrv, hx, hy⟩, hd, hparams⟩
    exact ⟨_, ⟨hunique, rfl⟩, _, hcrv, _, hx, _, hy, _, hd, _, hparams, rfl⟩

theorem okpOfJson?_eq_some :
    okpOfJson? (object found) = some j ↔ ∃ k, okp k = j ∧ (okp k).Shows found := by
  simp only [okpOfJson?, Option.bind_eq_bind, Option.bind_eq_some_iff, flatRecord?_eq_some,
    Params.ofMembers?_eq_some, shows_iff, definingTexts, furtherTexts, List.forall_mem_cons,
    List.not_mem_nil, false_implies, implies_true, and_true]
  constructor
  · rintro ⟨_, ⟨hunique, rfl⟩, crv, hcrv, x, hx, d, hd, params, hparams, hj⟩
    exact ⟨⟨crv, x, d, params⟩, Option.some.inj hj, hunique, ⟨hcrv, hx⟩, hd, hparams⟩
  · rintro ⟨k, rfl, hunique, ⟨hcrv, hx⟩, hd, hparams⟩
    exact ⟨_, ⟨hunique, rfl⟩, _, hcrv, _, hx, _, hd, _, hparams, rfl⟩

theorem octOfJson?_eq_some :
    octOfJson? (object found) = some j ↔ ∃ k, oct k = j ∧ (oct k).Shows found := by
  simp only [octOfJson?, Option.bind_eq_bind, Option.bind_eq_some_iff, flatRecord?_eq_some,
    Params.ofMembers?_eq_some, shows_iff, definingTexts, furtherTexts, List.forall_mem_cons,
    List.not_mem_nil, false_implies, implies_true, and_true]
  constructor
  · rintro ⟨_, ⟨hunique, rfl⟩, key, hkey, params, hparams, hj⟩
    exact ⟨⟨key, params⟩, Option.some.inj hj, hunique, hkey, hparams⟩
  · rintro ⟨k, rfl, hunique, hkey, hparams⟩
    exact ⟨_, ⟨hunique, rfl⟩, _, hkey, _, hparams, rfl⟩

theorem rsaOfJson?_eq_some :
    rsaOfJson? (object found) = some j ↔ ∃ k, rsa k = j ∧ (rsa k).Shows found := by
  simp only [rsaOfJson?, Option.bind_eq_bind, Option.bind_eq_some_iff, flatRecord?_eq_some,
    Params.ofMembers?_eq_some, shows_iff, definingTexts, furtherTexts, List.cons_append,
    List.nil_append, List.forall_mem_cons, List.not_mem_nil, false_implies, implies_true, and_true]
  constructor
  · rintro ⟨_, ⟨hunique, rfl⟩, n, hn, e, he, d, hd, p, hp, q, hq, dp, hdp, dq, hdq, qi, hqi, params,
      hparams, hj⟩
    exact ⟨⟨n, e, d, p, q, dp, dq, qi, params⟩, Option.some.inj hj, hunique, ⟨hn, he⟩,
      hd, hp, hq, hdp, hdq, hqi, hparams⟩
  · rintro ⟨k, rfl, hunique, ⟨hn, he⟩, hd, hp, hq, hdp, hdq, hqi, hparams⟩
    exact ⟨_, ⟨hunique, rfl⟩, _, hn, _, he, _, hd, _, hp, _, hq, _, hdp, _, hdq, _, hqi, _, hparams,
      rfl⟩

/-- **A key of a type is read from an object exactly if the object shows it.** -/
theorem ofMembers?_eq_some :
    ofMembers? kty (object found) = some k ↔ k.kty = kty ∧ k.Shows found := by
  constructor
  · intro h
    unfold ofMembers? at h
    split at h
    · obtain ⟨e, rfl, hshows⟩ := ecOfJson?_eq_some.mp h
      exact ⟨rfl, hshows⟩
    · obtain ⟨e, rfl, hshows⟩ := okpOfJson?_eq_some.mp h
      exact ⟨rfl, hshows⟩
    · obtain ⟨e, rfl, hshows⟩ := octOfJson?_eq_some.mp h
      exact ⟨rfl, hshows⟩
    · obtain ⟨e, rfl, hshows⟩ := rsaOfJson?_eq_some.mp h
      exact ⟨rfl, hshows⟩
    · cases h
  · rintro ⟨rfl, hshows⟩
    cases k with
    | ec k => exact ecOfJson?_eq_some.mpr ⟨k, rfl, hshows⟩
    | okp k => exact okpOfJson?_eq_some.mpr ⟨k, rfl, hshows⟩
    | oct k => exact octOfJson?_eq_some.mpr ⟨k, rfl, hshows⟩
    | rsa k => exact rsaOfJson?_eq_some.mpr ⟨k, rfl, hshows⟩

/-- A key is read by its type from any object in which its members are found. -/
theorem ofMembers?_object (h : (found.map (·.1)).Nodup) (k : Jwk)
    (hfound : ∀ name, found.lookup name = k.toJson.get? name) :
    found.lookup "kty" = some (.string k.kty) ∧ ofMembers? k.kty (object found) = some k := by
  have hget : ∀ m ∈ k.writtenMembers, found.lookup m.1 = m.2 := by
    intro m hm
    rw [hfound, get?_of_eq_compact k.toJson_eq k.nodup_writtenMembers,
      (lookup_eq_some k.nodup_writtenMembers).mpr hm]
    rfl
  refine ⟨hget _ List.mem_cons_self, ofMembers?_eq_some.mpr ⟨rfl, uniqueNames_of_nodup h _, ?_, ?_⟩⟩
  · intro t ht
    exact requiredString?_of_lookup (hget _ (mem_writtenMembers.mpr (.inr (.inl ⟨t, ht, rfl⟩))))
  · intro t ht
    exact optionalString?_of_lookup (hget _ (mem_writtenMembers.mpr (.inr (.inr ⟨t, ht, rfl⟩))))

end Object

/-! ### Reading a key -/

theorem ofMembers?_asWritten (k : Jwk) :
    k.toJson.get? "kty" = some (.string k.kty) ∧ ofMembers? k.kty k.toJson = some k := by
  rw [k.toJson_eq, compact_eq]
  exact ofMembers?_object (nodup_present k.nodup_writtenMembers) k fun _ => by rw [k.toJson_eq]; rfl

/-- **A key is read back as it was written.** -/
theorem ofJson?_asWritten (k : Jwk) : ofJson? k.toJson = some k := by
  obtain ⟨hkty, hread⟩ := k.ofMembers?_asWritten
  rw [ofJson?, hkty]
  exact hread

theorem ofTaggedJson?_asWritten (k : Jwk) : ofTaggedJson? k.toJson = some k := by
  obtain ⟨hkty, hread⟩ := k.ofMembers?_asWritten
  rw [ofTaggedJson?, hkty]
  exact hread

/-- **A key is read back from its canonical text**, also where it is looked at twice. -/
theorem ofTaggedJson?_toJson (k : Jwk) : ofTaggedJson? k.toJson.sorted = some k := by
  have hnodup := nodup_present k.nodup_writtenMembers
  have hfound : ∀ name,
      (sortedObject (present k.writtenMembers)).lookup name = k.toJson.get? name := by
    intro name
    rw [k.toJson_eq, compact_eq, get?, lookup_sortedObject hnodup]
    -- a text has no members to be put in order
    cases hv : (present k.writtenMembers).lookup name with
    | none => rfl
    | some v =>
      have hmem := mem_present.mp ((lookup_eq_some hnodup).mp hv)
      obtain ⟨s, rfl⟩ := exists_text_of_mem_writtenMembers hmem rfl
      rfl
  obtain ⟨hkty, hread⟩ := ofMembers?_object (nodup_sortedObject hnodup) k hfound
  rw [k.toJson_eq, compact_eq, sorted_object, ofTaggedJson?, get?, hkty]
  exact hread

/-! ### Numbers and depth -/

theorem hasNumber_toJson (k : Jwk) : k.toJson.hasNumber = false := by
  rw [k.toJson_eq]
  refine hasNumber_compact fun m hm v hv => ?_
  obtain ⟨s, rfl⟩ := exists_text_of_mem_writtenMembers hm hv
  rfl

theorem depth_toJson (k : Jwk) : k.toJson.depth ≤ 1 := by
  rw [k.toJson_eq]
  refine depth_compact fun m hm v hv => ?_
  obtain ⟨s, rfl⟩ := exists_text_of_mem_writtenMembers hm hv
  exact Nat.le_refl 0

end Jwk

end DidMethods
