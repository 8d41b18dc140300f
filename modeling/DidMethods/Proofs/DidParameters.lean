import DidMethods.Proofs.Dereference

/-!
# The last value of a name counts

The query of a DID URL is a text that anything can be written in: pieces without a name, pieces
without a value, more equals signs than one, a name several times. What a piece says is settled by
its first equals sign (`DidMethods.Did.queryPair_eq_iff`), and what the query says of a name by the
last piece that has it (`DidMethods.Did.lookup_queryMap`). Of the parameters before the path the
last one of a name counts as well (`DidMethods.Did.lookup_paramMap`).

A service is selected in this way: neither the other pieces of the query nor the fragment matter for
what a DID URL with a service in its query addresses.
-/

namespace DidMethods

/-! ### The last value of a name -/

section LastValue

variable {α β γ : Type} {k : α} {v : β}

/-- The last one of some pairs that has this name has this value. -/
def IsLastValue (pairs : List (α × β)) (k : α) (v : β) : Prop :=
  ∃ before after, pairs = before ++ (k, v) :: after ∧ ∀ p ∈ after, p.1 ≠ k

/-- The last value is the first one from behind. -/
theorem lookup_reverse_eq_some [DecidableEq α] {pairs : List (α × β)} :
    pairs.reverse.lookup k = some v ↔ IsLastValue pairs k v := by
  rw [List.lookup_eq_some_iff]
  constructor
  · rintro ⟨after, before, hpairs, hafter⟩
    refine ⟨before.reverse, after.reverse, ?_, fun p hp => ?_⟩
    · rw [← pairs.reverse_reverse, hpairs]
      simp
    · exact (bne_iff_ne.mp (hafter p (List.mem_reverse.mp hp))).symm
  · rintro ⟨before, after, rfl, hafter⟩
    refine ⟨after.reverse, before.reverse, by simp, fun p hp => ?_⟩
    exact bne_iff_ne.mpr (hafter p (List.mem_reverse.mp hp)).symm

/-- Where there is a value, there is a last one. -/
theorem exists_isLastValue [DecidableEq α] {pairs : List (α × β)} (h : (k, v) ∈ pairs) :
    ∃ w, IsLastValue pairs k w := by
  simp only [← lookup_reverse_eq_some]
  refine Option.ne_none_iff_exists'.mp fun hnone => ?_
  have hne := List.lookup_eq_none_iff.mp hnone _ (List.mem_reverse.mpr h)
  exact bne_iff_ne.mp hne rfl

/-- The last value among what is left of some items and what becomes of them. -/
theorem isLastValue_map_filter {items : List γ} {p : γ → Bool} {f : γ → α × β} :
    IsLastValue ((items.filter p).map f) k v ↔
      ∃ before item after, items = before ++ item :: after ∧ p item = true ∧ f item = (k, v) ∧
        ∀ other ∈ after, p other = true → (f other).1 ≠ k := by
  constructor
  · rintro ⟨before, after, hitems, hafter⟩
    obtain ⟨first, second, hfilter, -, hsecond⟩ := List.map_eq_append_iff.mp hitems
    obtain ⟨item, more, rfl, hitem, rfl⟩ := List.map_eq_cons_iff.mp hsecond
    obtain ⟨front, back, rfl, -, hback⟩ := List.filter_eq_append_iff.mp hfilter
    obtain ⟨dropped, rest, rfl, -, hp, rfl⟩ := List.filter_eq_cons_iff.mp hback
    refine ⟨front ++ dropped, item, rest, by simp, hp, hitem, fun other hother hkept => ?_⟩
    exact hafter _ (List.mem_map_of_mem (List.mem_filter.mpr ⟨hother, hkept⟩))
  · rintro ⟨before, item, after, rfl, hp, hitem, hafter⟩
    refine ⟨(before.filter p).map f, (after.filter p).map f, by simp [hp, hitem], fun q hq => ?_⟩
    obtain ⟨other, hother, rfl⟩ := List.mem_map.mp hq
    obtain ⟨hmem, hkept⟩ := List.mem_filter.mp hother
    exact hafter other hmem hkept

end LastValue

namespace Did

variable {k v : String}

/-- Of the values of a name the last one is kept. -/
theorem lookup_lastValues (pairs : List (String × String)) (k : String) :
    (lastValues pairs).lookup k = pairs.reverse.lookup k := by
  induction pairs with
  | nil => rfl
  | cons p rest ih =>
    have hany : (rest.any fun q => q.1 == p.1) = true ↔ rest.reverse.lookup p.1 ≠ none := by
      simp [List.lookup_eq_none_iff, @eq_comm _ p.1]
    rw [lastValues, List.reverse_cons, List.lookup_append, List.lookup_cons, List.lookup_nil]
    by_cases hk : k = p.1
    · subst hk
      cases hrest : rest.reverse.lookup p.1 with
      | none =>
        rw [if_neg fun h => hany.mp h hrest, List.lookup_cons, beq_self_eq_true]
        rfl
      | some v => rw [if_pos (hany.mpr (by simp [hrest])), ih, hrest, Option.some_or]
    · rw [beq_false_of_ne hk, Option.or_none]
      split
      · exact ih
      · rw [List.lookup_cons, beq_false_of_ne hk]
        exact ih

theorem mem_of_mem_lastValues {pairs : List (String × String)} {p : String × String}
    (h : p ∈ lastValues pairs) : p ∈ pairs := by
  induction pairs with
  | nil => exact h
  | cons q rest ih =>
    rw [lastValues] at h
    split at h
    · exact List.mem_cons_of_mem q (ih h)
    · rcases List.mem_cons.mp h with rfl | h
      · exact List.mem_cons_self
      · exact List.mem_cons_of_mem q (ih h)

/-- Each name has one value. -/
theorem nodup_lastValues (pairs : List (String × String)) :
    ((lastValues pairs).map Prod.fst).Nodup := by
  induction pairs with
  | nil => exact List.nodup_nil
  | cons p rest ih =>
    rw [lastValues]
    split
    · exact ih
    · next hnone =>
      refine List.nodup_cons.mpr ⟨fun hmem => hnone ?_, ih⟩
      obtain ⟨q, hq, hname⟩ := List.mem_map.mp hmem
      exact List.any_eq_true.mpr ⟨q, mem_of_mem_lastValues hq, beq_iff_eq.mpr hname⟩

/-! ### Queries -/

/-- What a piece of a query says: a name, and a value for it. -/
inductive IsPair : List Char → String → String → Prop
  /-- The name ends at the first equals sign. -/
  | value {name : List Char} (rest : List Char) : '=' ∉ name →
      IsPair (name ++ '=' :: rest) (String.ofList name) (String.ofList rest)
  /-- Without an equals sign, the whole piece is a name, and the value is empty. -/
  | flag {name : List Char} : '=' ∉ name → IsPair name (String.ofList name) ""

theorem queryPair_eq_iff {piece : List Char} : queryPair piece = (k, v) ↔ IsPair piece k v := by
  constructor
  · intro h
    rw [queryPair] at h
    split at h
    · next name rest hcut =>
      obtain ⟨rfl, hname⟩ := Text.cutFirst_eq_some_iff.mp hcut
      obtain ⟨rfl, rfl⟩ := Prod.mk.inj h
      exact .value rest hname
    · next hcut =>
      obtain ⟨rfl, rfl⟩ := Prod.mk.inj h
      exact .flag (Text.cutFirst_eq_none_iff.mp hcut)
  · rintro (⟨rest, hname⟩ | hname)
    · rw [queryPair, Text.cutFirst_append hname]
    · rw [queryPair, Text.cutFirst_eq_none_iff.mpr hname]

/-- A piece of a query, which is not empty, has this name. -/
def HasPiece (query : List Char) (k : String) : Prop :=
  ∃ pieces, Text.IsCut '&' query pieces ∧ ∃ piece ∈ pieces, piece ≠ [] ∧ ∃ v, IsPair piece k v

/-- The last piece of a query that is not empty and has this name has this value. -/
def IsLastPiece (query : List Char) (k v : String) : Prop :=
  ∃ before piece after, Text.IsCut '&' query (before ++ piece :: after) ∧ piece ≠ [] ∧
    IsPair piece k v ∧ ∀ other ∈ after, other ≠ [] → ∀ w, ¬ IsPair other k w

theorem isLastPiece_iff {query : List Char} :
    IsLastPiece query k v ↔
      IsLastValue (((Text.splitAll '&' query).filter (!·.isEmpty)).map queryPair) k v := by
  have hname : ∀ piece : List Char, (queryPair piece).1 ≠ k ↔ ∀ w, ¬ IsPair piece k w := by
    intro piece
    simp only [← queryPair_eq_iff, Prod.ext_iff, not_and]
    exact ⟨fun h w hk => absurd hk h, fun h hk => h _ hk rfl⟩
  simp only [isLastValue_map_filter, Text.splitAll_eq_iff, queryPair_eq_iff, hname, IsLastPiece,
    Bool.not_eq_true', List.isEmpty_eq_false_iff]

/-- Of the pieces that have a name there is a last one. -/
theorem hasPiece_iff {query : List Char} : HasPiece query k ↔ ∃ v, IsLastPiece query k v := by
  constructor
  · rintro ⟨pieces, hcut, piece, hpiece, hne, v, hpair⟩
    obtain rfl := Text.splitAll_eq_iff.mpr hcut
    simp only [isLastPiece_iff]
    have hkept : piece ∈ (Text.splitAll '&' query).filter (!·.isEmpty) :=
      List.mem_filter.mpr ⟨hpiece, by simpa using hne⟩
    refine exists_isLastValue (v := v) ?_
    rw [← queryPair_eq_iff.mpr hpair]
    exact List.mem_map_of_mem hkept
  · rintro ⟨v, before, piece, after, hcut, hne, hpair, -⟩
    have hpiece : piece ∈ before ++ piece :: after :=
      List.mem_append_right before List.mem_cons_self
    exact ⟨_, hcut, piece, hpiece, hne, v, hpair⟩

variable {d : Did} {p : Parts}

/-- **The map of a query has the value of the last piece** of each name. -/
theorem lookup_queryMap :
    (ofParts p).queryMap.lookup k = some v ↔ ∃ query ∈ p.query, IsLastPiece query k v := by
  have hquery : (ofParts p).query = p.query.map String.ofList := rfl
  rw [queryMap, lookup_lastValues, lookup_reverse_eq_some, queryPairs, hquery]
  cases p.query with
  | none => simp [IsLastValue]
  | some query =>
    simp only [isLastPiece_iff, Option.map_some, String.toList_ofList, Option.mem_some_iff,
      exists_eq_left']

/-! ### Parameters -/

theorem params_ofParts (p : Parts) :
    (ofParts p).params.getD [] =
      p.params.map fun nv => (String.ofList nv.1, String.ofList nv.2) := by
  rw [ofParts]
  cases p.params <;> rfl

/-- **The map of the parameters has the last value** of each name. -/
theorem lookup_paramMap :
    (ofParts p).paramMap.lookup k = some v ↔ IsLastValue p.params k.toList v.toList := by
  have hlist : ∀ {name : List Char} {s : String}, String.ofList name = s ↔ name = s.toList := by
    intro name s
    rw [← String.toList_inj, String.toList_ofList]
  rw [paramMap, lookup_lastValues, lookup_reverse_eq_some, params_ofParts, ← p.params.filter_true,
    isLastValue_map_filter]
  simp only [IsLastValue, List.filter_true, Prod.mk.injEq, ne_eq, hlist, true_and, forall_const]
  constructor
  · rintro ⟨before, ⟨name, value⟩, after, hparams, ⟨rfl, rfl⟩, hafter⟩
    exact ⟨before, after, hparams, hafter⟩
  · rintro ⟨before, after, hparams, hafter⟩
    exact ⟨before, _, after, hparams, ⟨rfl, rfl⟩, hafter⟩

/-! ### What a DID URL selects -/

/-- **The last value of a name counts**, in the query of a DID URL and in its parameters, and a
service is selected by the last service that the query names, whatever else there is in the query or
behind it. -/
theorem maps_keep_last {u : String} (h : parse? u = some d) :
    ∃ p : Parts, p.Grammatical ∧ p.render = u.toList ∧
      (∀ k v, d.queryMap.lookup k = some v ↔ ∃ query ∈ p.query, IsLastPiece query k v) ∧
      (d.queryMap.map Prod.fst).Nodup ∧
      (∀ k v, d.paramMap.lookup k = some v ↔ IsLastValue p.params k.toList v.toList) ∧
      (d.paramMap.map Prod.fst).Nodup ∧
      ∀ query ∈ p.query, HasPiece query "service" →
        ∃ id, IsLastPiece query "service" id ∧
          ∀ (ω κ : Type) [ResultCache κ] (r : Resolver ω) (s : ω × κ),
            r.dereference u s =
              ((r.resolveOrFail d.uri s).1 >>= fun result =>
                  result.documentOf d.uri >>= fun document =>
                    orFail .notFound s!"service {id} not found in document"
                      ((document.service? id).map .service),
                (r.resolveOrFail d.uri s).2) := by
  obtain ⟨p, hscan, rfl⟩ := Option.map_eq_some_iff.mp h
  obtain ⟨hp, hrender⟩ := grammatical_of_scan? hscan
  refine ⟨p, hp, hrender, fun k v => lookup_queryMap, nodup_lastValues _,
    fun k v => lookup_paramMap, nodup_lastValues _, fun query hmem hservice => ?_⟩
  obtain ⟨id, hlast⟩ := hasPiece_iff.mp hservice
  have hlookup := lookup_queryMap.mpr ⟨query, hmem, hlast⟩
  refine ⟨id, hlast, fun ω κ _ r s => ?_⟩
  rw [Resolver.dereference_of_parse? h]
  simp only [Document.resource_of_service hlookup]

/-- A query in which there are empty pieces, a piece without a name and one without a value, and a
name that comes up three times. -/
def repeatedQuery : List Char := "service=old&&=e&service=files=1&flag&service=files".toList

/-- A DID URL with this query, and with a parameter that is there twice. -/
def repeatedUrl : Parts where
  method := "example".toList
  id := "a".toList
  params := [("x".toList, "1".toList), ("y".toList, "2".toList), ("x".toList, "3".toList)]
  path := none
  query := some repeatedQuery
  fragment := some "key#1".toList

theorem isLastPiece_repeatedQuery : IsLastPiece repeatedQuery "service" "files" :=
  ⟨["service=old".toList, [], "=e".toList, "service=files=1".toList, "flag".toList],
    "service=files".toList, [], ⟨by decide, by decide, by decide⟩, by decide,
    queryPair_eq_iff.mp (by decide), by simp⟩

theorem maps_keep_last_repeated :
    (ofParts repeatedUrl).queryMap.lookup "service" = some "files" ∧
      (ofParts repeatedUrl).paramMap.lookup "x" = some "3" ∧
      (Resolver.sampleResolver.dereference (ofParts repeatedUrl).url
        ((), ({} : MemoryCache))).1 = .ok (.service Resolver.sampleService) := by
  have hurl : repeatedUrl.render = (ofParts repeatedUrl).url.toList := String.toList_ofList.symm
  have hscan : scan? repeatedUrl.render = some repeatedUrl := by decide
  obtain ⟨hgrammatical, -⟩ := grammatical_of_scan? hscan
  obtain ⟨p, hp, hrender, hquery, -, hparams, -, hselect⟩ :=
    maps_keep_last (parse?_of_render hgrammatical hurl)
  -- the parts are the ones that the URL was made of
  obtain rfl : repeatedUrl = p :=
    Parts.render_injective hgrammatical hp (hurl.trans hrender.symm)
  have hservice := (hquery "service" "files").mpr ⟨_, rfl, isLastPiece_repeatedQuery⟩
  have hx : IsLastValue repeatedUrl.params "x".toList "3".toList :=
    ⟨[("x".toList, "1".toList), ("y".toList, "2".toList)], [], by decide, by simp⟩
  obtain ⟨id, hid, hdereference⟩ :=
    hselect repeatedQuery rfl (hasPiece_iff.mpr ⟨"files", isLastPiece_repeatedQuery⟩)
  obtain rfl : "files" = id := by
    rw [(hquery "service" id).mpr ⟨_, rfl, hid⟩] at hservice
    exact (Option.some.inj hservice).symm
  refine ⟨hservice, (hparams "x" "3").mpr hx, ?_⟩
  rw [hdereference]
  decide +kernel

end Did

end DidMethods
