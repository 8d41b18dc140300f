import DidMethods.Proofs.DidSyntax
import DidMethods.Proofs.JsonText
import Mathlib.Data.List.Basic
import Mathlib.Data.Prod.Basic

/-!
# The grammar of DID URLs, without a scanner

What a DID URL is can be said without saying how one is found: it is what some parts are rendered
as, each of which is made of its own characters (`DidMethods.Did.Parts.Grammatical`). The scanner
finds exactly these (`DidMethods.Did.scan?_eq_some_iff`): what it takes off a text can be put back,
and what was rendered is taken off again, since the character after a part is never one of its own.
So a text is a DID URL in one way at most, and a DID is known by its parts
(`DidMethods.Did.parse?_iff_grammatical`).
-/

namespace DidMethods.Did

/-! ### The grammar -/

/-- A segment of an identifier: characters that stand for themselves, and escapes. -/
inductive IsSegment : List Char → Prop
  /-- A segment may be empty. -/
  | nil : IsSegment []
  /-- A character that stands for itself. -/
  | char {c : Char} {s : List Char} : isIdChar c = true → IsSegment s → IsSegment (c :: s)
  /-- A percent sign and two hexadecimal digits. -/
  | escape {a b : Char} {s : List Char} : Hex.isDigit a = true → Hex.isDigit b = true →
      IsSegment s → IsSegment ('%' :: a :: b :: s)

/-- An identifier: segments between colons, of which the last is not empty. -/
inductive IsIdentifier : List Char → Prop
  /-- The last segment. -/
  | last {s : List Char} : IsSegment s → s ≠ [] → IsIdentifier s
  /-- A segment before others. -/
  | segment {s id : List Char} : IsSegment s → IsIdentifier id → IsIdentifier (s ++ ':' :: id)

/-- A parameter: a name, which is not empty, and a value. -/
structure IsParam (nv : List Char × List Char) : Prop where
  /-- There is a name. -/
  nonempty : nv.1 ≠ []
  /-- The characters of the name. -/
  name : ∀ c ∈ nv.1, isParamChar c = true
  /-- The characters of the value. -/
  value : ∀ c ∈ nv.2, isParamChar c = true

/-- A path: from a slash on, up to where a query or a fragment would begin. -/
structure IsPath (s : List Char) : Prop where
  /-- The slash. -/
  slash : s.head? = some '/'
  /-- No fragment begins in it. -/
  sharp : '#' ∉ s
  /-- No query begins in it. -/
  mark : '?' ∉ s

/-- Parts that a DID URL can be made of. -/
structure Parts.Grammatical (p : Parts) : Prop where
  /-- There is a method. -/
  nonempty : p.method ≠ []
  /-- The characters of the method. -/
  method : ∀ c ∈ p.method, isMethodChar c = true
  /-- The identifier. -/
  id : IsIdentifier p.id
  /-- The parameters. -/
  params : ∀ nv ∈ p.params, IsParam nv
  /-- The path. -/
  path : ∀ s ∈ p.path, IsPath s
  /-- A query ends before a fragment. -/
  query : ∀ s ∈ p.query, '#' ∉ s
  /-- A fragment is a single line. -/
  fragment : ∀ s ∈ p.fragment, '\n' ∉ s

/-! ### Identifiers -/

theorem IsSegment.colon_notMem {s : List Char} (h : IsSegment s) : ':' ∉ s := by
  have hchar : ∀ c, isIdChar c = true ∨ Hex.isDigit c = true → ':' ≠ c := by
    rintro c hc rfl
    rcases hc with hc | hc <;> exact absurd hc (by decide)
  induction h with
  | nil => exact List.not_mem_nil
  | char hc _ ih => exact List.not_mem_cons_of_ne_of_not_mem (hchar _ (.inl hc)) ih
  | escape ha hb _ ih =>
    simp only [List.mem_cons, not_or]
    exact ⟨by decide, hchar _ (.inr ha), hchar _ (.inr hb), ih⟩

theorem IsIdentifier.ne_nil {id : List Char} (h : IsIdentifier id) : id ≠ [] := by
  cases h with
  | last _ hne => exact hne
  | segment => simp

theorem isId_cons (c : Char) {id : List Char} (hne : id ≠ []) : isId (c :: id) = isId id := by
  obtain ⟨d, id, rfl⟩ := List.exists_cons_of_ne_nil hne
  rw [isId, isId, List.getLast?_cons_cons]

theorem isId_append_right (s : List Char) {id : List Char} (hne : id ≠ []) :
    isId (s ++ id) = isId id := by
  induction s with
  | nil => rfl
  | cons c s ih => rw [List.cons_append, isId_cons c (by simp [hne]), ih]

/-- An identifier does not end with a colon. -/
theorem IsIdentifier.isId {id : List Char} (h : IsIdentifier id) : Did.isId id = true := by
  induction h with
  | last hs hne => exact isId_append [] hne hs.colon_notMem
  | segment _ hid ih =>
    rw [isId_append_right _ (List.cons_ne_nil _ _), isId_cons _ hid.ne_nil, ih]

/-- A segment is taken off as a whole. -/
theorem IsSegment.spanId_append {s : List Char} (h : IsSegment s) (rest : List Char) :
    spanId (s ++ rest) = (s ++ (spanId rest).1, (spanId rest).2) := by
  induction h with
  | nil => rfl
  | char hc _ ih => rw [List.cons_append, spanId_cons (by rw [hc]; rfl), ih]; rfl
  | escape ha hb _ ih =>
    rw [List.cons_append, List.cons_append, List.cons_append,
      spanId_percent (by rw [ha, hb]; rfl), ih]
    rfl

/-- An identifier is taken off as a whole. -/
theorem IsIdentifier.spanId_append {id : List Char} (h : IsIdentifier id) (rest : List Char) :
    spanId (id ++ rest) = (id ++ (spanId rest).1, (spanId rest).2) := by
  induction h with
  | last hs _ => exact hs.spanId_append rest
  | segment hs _ ih =>
    rw [List.append_assoc, hs.spanId_append, List.cons_append, spanId_cons (by decide), ih,
      List.append_assoc]
    rfl

theorem IsIdentifier.char {c : Char} {id : List Char} (hc : isIdChar c = true)
    (h : IsIdentifier id) : IsIdentifier (c :: id) := by
  cases h with
  | last hs _ => exact .last (hs.char hc) (List.cons_ne_nil _ _)
  | segment hs hid => exact .segment (hs.char hc) hid

theorem IsIdentifier.escape {a b : Char} {id : List Char} (ha : Hex.isDigit a = true)
    (hb : Hex.isDigit b = true) (h : IsIdentifier id) : IsIdentifier ('%' :: a :: b :: id) := by
  cases h with
  | last hs _ => exact .last (hs.escape ha hb) (List.cons_ne_nil _ _)
  | segment hs hid => exact .segment (hs.escape ha hb) hid

/-- What is taken off is an identifier, unless it is empty or ends with a colon. -/
theorem isIdentifier_spanId (s : List Char) (h : isId (spanId s).1 = true) :
    IsIdentifier (spanId s).1 := by
  fun_induction spanId s with
  | case1 a b rest hdigits id more heq ih =>
    obtain ⟨ha, hb⟩ := Bool.and_eq_true_iff.mp hdigits
    rw [heq] at ih
    change isId ('%' :: a :: b :: id) = true at h
    change IsIdentifier ('%' :: a :: b :: id)
    by_cases hne : id = []
    · subst hne
      exact .last (.escape ha hb .nil) (List.cons_ne_nil _ _)
    · rw [isId_cons _ (List.cons_ne_nil _ _), isId_cons _ (List.cons_ne_nil _ _),
        isId_cons _ hne] at h
      exact (ih h).escape ha hb
  | case2 => cases h
  | case3 c rest _ hc id more heq ih =>
    rw [heq] at ih
    change isId (c :: id) = true at h
    change IsIdentifier (c :: id)
    by_cases hne : id = []
    · -- a colon cannot be the last character
      subst hne
      have hcolon : (c == ':') = false := by simpa [isId] using h
      rw [hcolon, Bool.or_false] at hc
      exact .last (.char hc .nil) (List.cons_ne_nil _ _)
    · rw [isId_cons _ hne] at h
      rcases Bool.or_eq_true_iff.mp hc with hchar | hcolon
      · exact (ih h).char hchar
      · rw [beq_iff_eq.mp hcolon]
        exact .segment .nil (ih h)
  | case4 => cases h
  | case5 => cases h

/-! ### Where a part ends -/

variable {p : Char → Bool} {s rest : List Char}

/-- What is taken off by its characters ends where other characters begin. -/
theorem takeWhile_append_of_head? (hs : ∀ c ∈ s, p c = true)
    (hrest : ∀ c ∈ rest.head?, p c = false) : (s ++ rest).takeWhile p = s := by
  rw [List.takeWhile_append_of_pos hs]
  cases rest with
  | nil => rw [List.takeWhile_nil, List.append_nil]
  | cons c rest =>
    rw [List.takeWhile_cons_of_neg (by simp [hrest c rfl]), List.append_nil]

theorem dropWhile_append_of_head? (hs : ∀ c ∈ s, p c = true)
    (hrest : ∀ c ∈ rest.head?, p c = false) : (s ++ rest).dropWhile p = rest := by
  rw [List.dropWhile_append_of_pos hs]
  cases rest with
  | nil => rfl
  | cons c rest => exact List.dropWhile_cons_of_neg (by simp [hrest c rfl])

theorem forall_mem_takeWhile (p : Char → Bool) (s : List Char) :
    ∀ c ∈ s.takeWhile p, p c = true :=
  List.all_eq_true.mp List.all_takeWhile

/-! ### Parameters -/

/-- The characters that open a part of a DID URL behind its identifier, in their order. -/
def openers : List Char := [';', '/', '?', '#']

theorem spanId_of_opener (h : ∀ c ∈ s.head?, c ∈ openers) : spanId s = ([], s) := by
  cases s with
  | nil => rfl
  | cons c s =>
    have hall : openers.all (fun c => !(isIdChar c || c == ':') && c != '%') = true := by decide
    obtain ⟨hchar, hpercent⟩ := Bool.and_eq_true_iff.mp (List.all_eq_true.mp hall c (h c rfl))
    rw [Bool.not_eq_true'] at hchar
    rw [spanId, hchar, if_neg Bool.false_ne_true]
    rintro a b more rfl
    exact absurd hpercent (by decide)

theorem isParamChar_of_opener (h : ∀ c ∈ s.head?, c ∈ openers) :
    ∀ c ∈ s.head?, isParamChar c = false := by
  have hall : openers.all (fun c => !isParamChar c) = true := by decide
  intro c hc
  simpa using List.all_eq_true.mp hall c (h c hc)

theorem renderParams_cons (nv : List Char × List Char) (params : List (List Char × List Char)) :
    Parts.renderParams (nv :: params) =
      ';' :: (nv.1 ++ '=' :: (nv.2 ++ Parts.renderParams params)) := by
  simp [Parts.renderParams]

/-- Parameters can be put back. -/
theorem of_spanParams {fuel : Nat} {params : List (List Char × List Char)} {s rest : List Char}
    (h : spanParams fuel s = some (params, rest)) :
    s = Parts.renderParams params ++ rest ∧ ∀ nv ∈ params, IsParam nv := by
  fun_induction spanParams fuel s generalizing params with
  | case1 => cases h
  | case2 fuel text name more heq hname value =>
    rename_i ih
    obtain ⟨⟨more', left⟩, hspan, hresult⟩ := Option.map_eq_some_iff.mp h
    simp only [Prod.mk.injEq] at hresult
    obtain ⟨rfl, rfl⟩ := hresult
    obtain ⟨hmore, hparams⟩ := ih hspan
    have htext : text = name ++ '=' :: (value ++ (Parts.renderParams more' ++ left)) := by
      rw [← hmore, List.takeWhile_append_dropWhile, ← heq, List.takeWhile_append_dropWhile]
    refine ⟨?_, List.forall_mem_cons.mpr ⟨⟨?_, ?_, ?_⟩, hparams⟩⟩
    · rw [htext, renderParams_cons]
      simp
    · simpa using hname
    · exact forall_mem_takeWhile _ _
    · exact forall_mem_takeWhile _ _
  | case3 => cases h
  | case4 =>
    obtain ⟨rfl, rfl⟩ := Prod.mk.inj (Option.some.inj h)
    exact ⟨rfl, fun _ h => absurd h List.not_mem_nil⟩

theorem head?_renderParams_append (params : List (List Char × List Char))
    (hrest : ∀ c ∈ rest.head?, c ∈ openers) :
    ∀ c ∈ (Parts.renderParams params ++ rest).head?, c ∈ openers := by
  cases params with
  | nil => exact hrest
  | cons nv params =>
    intro c hc
    obtain rfl := Option.mem_some.mp hc
    exact List.mem_cons_self

/-- Parameters are taken off as a whole. -/
theorem spanParams_append {params : List (List Char × List Char)} {fuel : Nat}
    (hparams : ∀ nv ∈ params, IsParam nv) (hfuel : params.length ≤ fuel)
    (hrest : ∀ c ∈ rest.head?, c ∈ openers.tail) :
    spanParams fuel (Parts.renderParams params ++ rest) = some (params, rest) := by
  have hopen : ∀ c ∈ rest.head?, c ∈ openers := fun c hc => List.mem_of_mem_tail (hrest c hc)
  induction params generalizing fuel with
  | nil =>
    rw [spanParams]
    · rfl
    · -- what follows does not open another parameter
      rintro fuel rest' - hcons
      have hcons : rest = ';' :: rest' := hcons
      subst hcons
      exact absurd (hrest ';' rfl) (by decide)
  | cons nv params ih =>
    obtain ⟨hnv, hparams⟩ := List.forall_mem_cons.mp hparams
    obtain ⟨fuel, rfl⟩ := Nat.exists_eq_succ_of_ne_zero (Nat.ne_of_gt (Nat.lt_of_lt_of_le
      (Nat.succ_pos _) hfuel))
    have htext : Parts.renderParams (nv :: params) ++ rest =
        ';' :: (nv.1 ++ '=' :: (nv.2 ++ (Parts.renderParams params ++ rest))) := by
      simp [renderParams_cons]
    have hname : ∀ c ∈ ('=' :: (nv.2 ++ (Parts.renderParams params ++ rest))).head?,
        isParamChar c = false := by
      intro c hc
      obtain rfl := Option.mem_some.mp hc
      rfl
    have hvalue := isParamChar_of_opener (head?_renderParams_append params hopen)
    rw [htext, spanParams, takeWhile_append_of_head? hnv.name hname,
      dropWhile_append_of_head? hnv.name hname]
    simp only [List.isEmpty_iff]
    rw [if_neg hnv.nonempty, takeWhile_append_of_head? hnv.value hvalue,
      dropWhile_append_of_head? hnv.value hvalue,
      ih hparams (Nat.le_of_succ_le_succ hfuel), Option.map_some]

/-! ### Path, query and fragment -/

theorem of_spanPath {path : Option (List Char)} (h : spanPath s = (path, rest)) :
    s = path.getD [] ++ rest ∧ ∀ t ∈ path, IsPath t := by
  rw [spanPath.eq_def] at h
  split at h
  · next more =>
    obtain ⟨rfl, rfl⟩ := Prod.mk.inj h
    refine ⟨by simp, ?_⟩
    intro t ht
    obtain rfl := Option.mem_some.mp ht
    have hin := forall_mem_takeWhile (fun c => c != '#' && c != '?') more
    refine ⟨rfl, fun hmem => ?_, fun hmem => ?_⟩
    · rcases List.mem_cons.mp hmem with heq | hmem
      · exact absurd heq (by decide)
      · exact absurd (hin _ hmem) (by decide)
    · rcases List.mem_cons.mp hmem with heq | hmem
      · exact absurd heq (by decide)
      · exact absurd (hin _ hmem) (by decide)
  · obtain ⟨rfl, rfl⟩ := Prod.mk.inj h
    exact ⟨rfl, nofun⟩

theorem spanPath_append {path : Option (List Char)} (hpath : ∀ t ∈ path, IsPath t)
    (hrest : ∀ c ∈ rest.head?, c ∈ openers.drop 2) :
    spanPath (path.getD [] ++ rest) = (path, rest) := by
  cases path with
  | none =>
    rw [Option.getD_none, List.nil_append, spanPath]
    rintro more rfl
    exact absurd (hrest '/' rfl) (by decide)
  | some t =>
    obtain ⟨hslash, hsharp, hmark⟩ := hpath t rfl
    obtain ⟨t, rfl⟩ : ∃ u, t = '/' :: u := by
      cases t with
      | nil => cases hslash
      | cons c t => exact ⟨t, by rw [Option.some.inj hslash]⟩
    have hin : ∀ c ∈ t, (c != '#' && c != '?') = true := by
      intro c hc
      have hcs : c ≠ '#' := fun h => hsharp (h ▸ List.mem_cons_of_mem _ hc)
      have hcm : c ≠ '?' := fun h => hmark (h ▸ List.mem_cons_of_mem _ hc)
      simp [hcs, hcm]
    have hout : ∀ c ∈ rest.head?, (c != '#' && c != '?') = false := by
      have hall : ∀ c ∈ openers.drop 2, (c != '#' && c != '?') = false := by simp [openers]
      exact fun c hc => hall c (hrest c hc)
    rw [Option.getD_some, List.cons_append, spanPath, takeWhile_append_of_head? hin hout,
      dropWhile_append_of_head? hin hout]

theorem of_spanQuery {query : Option (List Char)} (h : spanQuery s = (query, rest)) :
    s = Parts.renderAfter '?' query ++ rest ∧ ∀ t ∈ query, '#' ∉ t := by
  rw [spanQuery.eq_def] at h
  split at h
  · next more =>
    obtain ⟨rfl, rfl⟩ := Prod.mk.inj h
    refine ⟨by simp [Parts.renderAfter], ?_⟩
    intro t ht hmem
    obtain rfl := Option.mem_some.mp ht
    exact absurd (forall_mem_takeWhile _ more _ hmem) (by decide)
  · obtain ⟨rfl, rfl⟩ := Prod.mk.inj h
    exact ⟨rfl, nofun⟩

theorem spanQuery_append {query : Option (List Char)} (hquery : ∀ t ∈ query, '#' ∉ t)
    (hrest : ∀ c ∈ rest.head?, c ∈ openers.drop 3) :
    spanQuery (Parts.renderAfter '?' query ++ rest) = (query, rest) := by
  cases query with
  | none =>
    rw [Parts.renderAfter, List.nil_append, spanQuery]
    rintro more rfl
    exact absurd (hrest '?' rfl) (by decide)
  | some t =>
    have hin : ∀ c ∈ t, (c != '#') = true := by
      intro c hc
      have hne : c ≠ '#' := fun h => hquery t rfl (h ▸ hc)
      simp [hne]
    have hout : ∀ c ∈ rest.head?, (c != '#') = false := by
      have hall : ∀ c ∈ openers.drop 3, (c != '#') = false := by simp [openers]
      exact fun c hc => hall c (hrest c hc)
    rw [Parts.renderAfter, List.cons_append, spanQuery, takeWhile_append_of_head? hin hout,
      dropWhile_append_of_head? hin hout]

theorem wholeFragment?_eq_some_iff {fragment : Option (List Char)} :
    wholeFragment? s = some fragment ↔
      s = Parts.renderAfter '#' fragment ∧ ∀ t ∈ fragment, '\n' ∉ t := by
  constructor
  · intro h
    rw [wholeFragment?.eq_def] at h
    split at h
    · obtain rfl := Option.some.inj h
      exact ⟨rfl, nofun⟩
    · next t =>
      split at h
      · cases h
      · next hline =>
        obtain rfl := Option.some.inj h
        refine ⟨rfl, fun u hu hmem => ?_⟩
        obtain rfl := Option.mem_some.mp hu
        exact hline (by simpa using hmem)
    · cases h
  · rintro ⟨rfl, hline⟩
    cases fragment with
    | none => rfl
    | some t =>
      rw [Parts.renderAfter, wholeFragment?, if_neg]
      simpa using hline t rfl

/-! ### Texts and their parts -/

namespace Parts

/-- The fragment, and with it the query, and with that the path: what follows the parameters. -/
theorem head?_renderTail {p : Parts} (h : p.Grammatical) :
    (∀ c ∈ (renderAfter '#' p.fragment).head?, c ∈ openers.drop 3) ∧
    (∀ c ∈ (renderAfter '?' p.query ++ renderAfter '#' p.fragment).head?, c ∈ openers.drop 2) ∧
    ∀ c ∈ (p.path.getD [] ++ (renderAfter '?' p.query ++ renderAfter '#' p.fragment)).head?,
      c ∈ openers.drop 1 := by
  have hfragment : ∀ c ∈ (renderAfter '#' p.fragment).head?, c ∈ openers.drop 3 := by
    cases p.fragment with
    | none => exact nofun
    | some t => exact fun c hc => Option.mem_some.mp hc ▸ by decide
  have hquery : ∀ c ∈ (renderAfter '?' p.query ++ renderAfter '#' p.fragment).head?,
      c ∈ openers.drop 2 := by
    cases p.query with
    | none => exact fun c hc => List.mem_of_mem_tail (hfragment c hc)
    | some t => exact fun c hc => Option.mem_some.mp hc ▸ by decide
  refine ⟨hfragment, hquery, ?_⟩
  have hpath := h.path
  cases hp : p.path with
  | none => exact fun c hc => List.mem_of_mem_tail (hquery c hc)
  | some t =>
    have hslash := (hpath t hp).slash
    rw [Option.getD_some, List.head?_append, hslash]
    exact fun c hc => Option.mem_some.mp hc ▸ by decide

theorem render_eq (p : Parts) :
    p.render = 'd' :: 'i' :: 'd' :: ':' :: (p.method ++ ':' :: (p.id ++ (renderParams p.params ++
      (p.path.getD [] ++ (renderAfter '?' p.query ++ renderAfter '#' p.fragment))))) := by
  simp [render, renderBare]

end Parts

/-- There are no more parameters than characters. -/
theorem length_le_length_renderParams (params : List (List Char × List Char)) :
    params.length ≤ (Parts.renderParams params).length := by
  induction params with
  | nil => exact Nat.le_refl 0
  | cons nv params ih =>
    simp only [renderParams_cons, List.length_cons, List.length_append]
    omega

/-- **What is rendered is taken apart again.** -/
theorem scan?_render {p : Parts} (h : p.Grammatical) : scan? p.render = some p := by
  -- what follows a part begins with one of the later openers, which the part does not have
  obtain ⟨hfragment, hquery, hpath⟩ := Parts.head?_renderTail h
  have hparams := head?_renderParams_append p.params fun c hc => List.mem_of_mem_tail (hpath c hc)
  have hmethod : p.method.isEmpty = false := List.isEmpty_eq_false_iff.mpr h.nonempty
  have hfuel : p.params.length ≤ (Parts.renderParams p.params ++ (p.path.getD [] ++
      (Parts.renderAfter '?' p.query ++ Parts.renderAfter '#' p.fragment))).length := by
    rw [List.length_append]
    exact Nat.le_add_right_of_le (length_le_length_renderParams p.params)
  have hline := wholeFragment?_eq_some_iff.mpr ⟨rfl, h.fragment⟩
  rw [Parts.render_eq, scan?, scanAfterScheme?, takeWhile_append_colon h.method,
    dropWhile_append_colon h.method]
  simp only [h.id.spanId_append, spanId_of_opener hparams, List.append_nil, hmethod, h.id.isId,
    Bool.not_true, Bool.or_false, Bool.false_eq_true, if_false,
    spanParams_append h.params hfuel hpath, Option.bind_eq_bind, Option.bind_some,
    spanPath_append h.path hquery, spanQuery_append h.query hfragment, hline]
  rfl

/-- **What is taken apart is put together again.** -/
theorem grammatical_of_scan? {s : List Char} {p : Parts} (h : scan? s = some p) :
    p.Grammatical ∧ p.render = s := by
  rw [scan?.eq_def] at h
  split at h
  · next text =>
    rw [scanAfterScheme?] at h
    split at h
    · next rest hcolon =>
      rcases hid : spanId rest with ⟨id, afterId⟩
      simp only [hid] at h
      split at h
      · cases h
      · next hparts =>
        obtain ⟨hmethod, hid'⟩ : text.takeWhile isMethodChar ≠ [] ∧ isId id = true := by
          simpa using hparts
        obtain ⟨⟨params, afterParams⟩, hspan, h⟩ := Option.bind_eq_some_iff.mp h
        rcases hspanPath : spanPath afterParams with ⟨path, afterPath⟩
        rcases hspanQuery : spanQuery afterPath with ⟨query, afterQuery⟩
        simp only [hspanPath, hspanQuery] at h
        obtain ⟨fragment, hwhole, h⟩ := Option.bind_eq_some_iff.mp h
        obtain rfl := Option.some.inj h
        -- each part and what is left are what was there before
        have hidentifier := isIdentifier_spanId rest (by rw [hid]; exact hid')
        have hsplit := append_spanId rest
        rw [hid] at hidentifier hsplit
        obtain ⟨rfl, hparams⟩ := of_spanParams hspan
        obtain ⟨rfl, hpath⟩ := of_spanPath hspanPath
        obtain ⟨rfl, hquery⟩ := of_spanQuery hspanQuery
        obtain ⟨rfl, hfragment⟩ := wholeFragment?_eq_some_iff.mp hwhole
        refine ⟨⟨hmethod, forall_mem_takeWhile _ _, hidentifier, hparams, hpath, hquery,
          hfragment⟩, ?_⟩
        rw [Parts.render_eq]
        dsimp only at hsplit ⊢
        rw [hsplit, ← hcolon, List.takeWhile_append_dropWhile]
    · cases h
  · cases h

/-- **The scanner finds the grammar**: a text has some parts exactly if it is what they are rendered
as. -/
theorem scan?_eq_some_iff {s : List Char} {p : Parts} :
    scan? s = some p ↔ p.Grammatical ∧ p.render = s := by
  refine ⟨grammatical_of_scan?, ?_⟩
  rintro ⟨h, rfl⟩
  exact scan?_render h

/-- **A text has parts in one way at most.** -/
theorem Parts.render_injective {p q : Parts} (hp : p.Grammatical) (hq : q.Grammatical)
    (h : p.render = q.render) : p = q := by
  have hscan := scan?_render hp
  rw [h, scan?_render hq] at hscan
  exact (Option.some.inj hscan).symm

/-! ### DIDs and their parts -/

/-- A DID has the parts that it is known by. -/
structure Shows (d : Did) (p : Parts) : Prop where
  /-- The method. -/
  method : d.method.toList = p.method
  /-- The identifier. -/
  id : d.id.toList = p.id
  /-- The bare DID. -/
  uri : d.uri = s!"did:{d.method}:{d.id}"
  /-- The parameters in order, which are absent where there are none. -/
  params : d.params.map (List.map fun nv => (nv.1.toList, nv.2.toList)) =
    if p.params = [] then none else some p.params
  /-- The path. -/
  path : d.path.map String.toList = p.path
  /-- The query. -/
  query : d.query.map String.toList = p.query
  /-- The fragment. -/
  fragment : d.fragment.map String.toList = p.fragment

theorem shows_ofParts (p : Parts) : (ofParts p).Shows p where
  method := String.toList_ofList
  id := String.toList_ofList
  uri := by
    rw [← String.toList_inj]
    simp [ofParts, Parts.renderBare, toString]
  params := by
    by_cases h : p.params = [] <;> simp [ofParts, h, Function.comp_def]
  path := by simp [ofParts, Function.comp_def]
  query := by simp [ofParts, Function.comp_def]
  fragment := by simp [ofParts, Function.comp_def]

/-- A DID is known by its parts and its text. -/
theorem Shows.unique {d e : Did} {p : Parts} (hd : d.Shows p) (he : e.Shows p)
    (hurl : d.url = e.url) : d = e := by
  have hlist : Function.Injective String.toList := fun _ _ => String.toList_inj.mp
  have hpair : Function.Injective fun nv : String × String => (nv.1.toList, nv.2.toList) :=
    Function.Injective.prodMap hlist hlist
  have hmethod := hlist (hd.method.trans he.method.symm)
  have hid := hlist (hd.id.trans he.id.symm)
  have huri : d.uri = e.uri := by rw [hd.uri, he.uri, hmethod, hid]
  have hparams := Option.map_injective (List.map_injective_iff.mpr hpair)
    (hd.params.trans he.params.symm)
  have hpath := Option.map_injective hlist (hd.path.trans he.path.symm)
  have hquery := Option.map_injective hlist (hd.query.trans he.query.symm)
  have hfragment := Option.map_injective hlist (hd.fragment.trans he.fragment.symm)
  cases d
  cases e
  simp_all

/-- The parts of a DID put together are its text. -/
theorem toText_ofParts (p : Parts) : (ofParts p).toText = String.ofList p.render := by
  have hparams : ((ofParts p).params.getD []).flatMap
      (fun nv => ';' :: (nv.1.toList ++ '=' :: nv.2.toList)) = Parts.renderParams p.params := by
    rw [ofParts, Parts.renderParams]
    cases p.params <;> simp [List.flatMap_map]
  have hpath : ((ofParts p).path.getD "").toList = p.path.getD [] := by
    rw [ofParts]
    cases p.path <;> simp
  have hquery : (((ofParts p).query.map ("?" ++ ·)).getD "").toList =
      Parts.renderAfter '?' p.query := by
    rw [ofParts]
    cases p.query <;> simp [Parts.renderAfter]
  have hfragment : (((ofParts p).fragment.map ("#" ++ ·)).getD "").toList =
      Parts.renderAfter '#' p.fragment := by
    rw [ofParts]
    cases p.fragment <;> simp [Parts.renderAfter]
  have hmethod : (ofParts p).method.toList = p.method := String.toList_ofList
  have hid : (ofParts p).id.toList = p.id := String.toList_ofList
  rw [← String.toList_inj, String.toList_ofList, Parts.render_eq, toText]
  simp [String.toList_append, hpath, hquery, hfragment, hmethod, hid, ← hparams, toString,
    List.flatMap_map]

theorem ofJson?_toJson {s : String} {d : Did} (h : parse? s = some d) (htext : d.toText = s) :
    ofJson? d.toJson = some d := by
  rw [toJson, htext]
  exact h

/-! ### Bare DIDs -/

theorem parse?_of_render {p : Parts} {s : String} (hp : p.Grammatical) (hs : p.render = s.toList) :
    parse? s = some (ofParts p) := by
  rw [parse?, ← hs, scan?_render hp, Option.map_some]

theorem url_of_parse? {s : String} {d : Did} (h : parse? s = some d) : d.url = s := by
  obtain ⟨p, hscan, rfl⟩ := Option.map_eq_some_iff.mp h
  rw [ofParts, (grammatical_of_scan? hscan).2, String.ofList_toList]

/-- What is left of a DID URL without all that follows the identifier. -/
def bare (d : Did) : Did :=
  { d with url := d.uri, params := none, path := none, query := none, fragment := none }

/-- **The bare DID of a DID URL is one**, and it is read as what is left of the URL. -/
theorem parse?_uri {url : String} {d : Did} (h : parse? url = some d) :
    parse? d.uri = some d.bare := by
  obtain ⟨p, hscan, rfl⟩ := Option.map_eq_some_iff.mp h
  obtain ⟨hp, -⟩ := grammatical_of_scan? hscan
  have hbare : (bareParts p.method p.id).Grammatical :=
    { hp with params := by simp [bareParts]
              path := by simp [bareParts]
              query := by simp [bareParts]
              fragment := by simp [bareParts] }
  have hrender : (bareParts p.method p.id).render = p.renderBare := by
    simp [Parts.render, Parts.renderBare, bareParts, Parts.renderParams, Parts.renderAfter]
  have huri : (ofParts p).uri.toList = p.renderBare := String.toList_ofList
  rw [parse?_of_render hbare (hrender.trans huri.symm), bare, ofParts, hrender]
  rfl

/-- The method and the identifier of a DID URL are those of its bare DID. -/
theorem eq_of_uri_eq {s t : String} {d e : Did} (hs : parse? s = some d) (ht : parse? t = some e)
    (huri : e.uri = d.uri) : e.method = d.method ∧ e.id = d.id := by
  have hbare : e.bare = d.bare := by
    rw [← Option.some_inj, ← parse?_uri ht, ← parse?_uri hs, huri]
  exact ⟨(congrArg method hbare :), (congrArg id hbare :)⟩

/-! ### DID URLs and their parts -/

/-- **A DID URL is a text made of the parts of the grammar.** The parts are the only ones that the
text is made of, and the DID shows these. Put together they are the text again, and reading the JSON
form gives the DID back, as a value and as a text. -/
theorem parse?_iff_grammatical (s : String) :
    (∀ d, parse? s = some d ↔
      ∃ p : Parts, p.Grammatical ∧ p.render = s.toList ∧ d.Shows p ∧ d.url = s) ∧
    (∀ p q : Parts, p.Grammatical → q.Grammatical → p.render = s.toList → q.render = s.toList →
      p = q) ∧
    ∀ d, parse? s = some d → d.toText = s ∧ ofJson? d.toJson = some d ∧
      Json.ofText? d.toJson.print .whole Json.maxDepth = some d.toJson := by
  have hurl : ∀ p : Parts, p.render = s.toList → (ofParts p).url = s := by
    intro p hp
    rw [ofParts, hp, String.ofList_toList]
  refine ⟨fun d => ⟨fun h => ?_, ?_⟩, fun p q hp hq hps hqs => ?_, fun d h => ?_⟩
  · obtain ⟨p, hscan, rfl⟩ := Option.map_eq_some_iff.mp h
    obtain ⟨hp, hrender⟩ := grammatical_of_scan? hscan
    exact ⟨p, hp, hrender, shows_ofParts p, hurl p hrender⟩
  · rintro ⟨p, hp, hrender, hshows, hd⟩
    rw [parse?, scan?_eq_some_iff.mpr ⟨hp, hrender⟩, Option.map_some]
    exact congrArg some ((shows_ofParts p).unique hshows ((hurl p hrender).trans hd.symm))
  · exact Parts.render_injective hp hq (hps.trans hqs.symm)
  · obtain ⟨p, hscan, rfl⟩ := Option.map_eq_some_iff.mp h
    have htext : (ofParts p).toText = s := by
      rw [toText_ofParts, (grammatical_of_scan? hscan).2, String.ofList_toList]
    exact ⟨htext, ofJson?_toJson h htext,
      Json.ofText?_write rfl rfl .whole (Nat.zero_le Json.maxDepth)⟩

/-- A DID URL with every part: an empty segment and an escape in the identifier, a parameter without
a value, and opening characters in parts that come after theirs. -/
def sampleUrl : String := "did:example:a%3Ab::c;service=files;ref=/path;to?x=1?y=/&z#key-1?/#"

theorem parse?_sampleUrl :
    ∃ d, parse? sampleUrl = some d ∧
      (∃ p : Parts, p.Grammatical ∧ p.render = sampleUrl.toList ∧ d.Shows p ∧ d.url = sampleUrl) ∧
      d.toText = sampleUrl ∧ ofJson? d.toJson = some d := by
  have hparses : (parse? sampleUrl).isSome = true := by decide +kernel
  obtain ⟨d, hd⟩ := Option.isSome_iff_exists.mp hparses
  obtain ⟨hgrammar, -, htext⟩ := parse?_iff_grammatical sampleUrl
  exact ⟨d, hd, (hgrammar d).mp hd, (htext d hd).1, (htext d hd).2.1⟩

end DidMethods.Did
