import DidMethods.Did.Basic
import DidMethods.Document.Service
import DidMethods.Proofs.Base64Url

/-!
# Identifiers that are made of parts

An identifier is put together from segments and colons, and has to be found again as a whole: a text
in which the scanner meets nothing that ends an identifier is one
(`DidMethods.Did.parse?_bare`), and what comes after the last colon is cut off again
(`DidMethods.Text.cutLast_append`). The segments before may hold percent signs, as long as each of
them has its digits; whether it has them does not depend on what comes after the next colon
(`DidMethods.Did.spanId_colon`).

There is one way to cut a text at a separator, whether at the first
(`DidMethods.Text.cutFirst_eq_some_iff`) or at all of them (`DidMethods.Text.splitAll_eq_iff`).
-/

namespace DidMethods

/-! ### Cutting at a separator -/

namespace Text

variable {sep : Char}

theorem cutLast_of_not_mem {s : List Char} (h : sep ∉ s) : cutLast sep s = none := by
  induction s with
  | nil => rfl
  | cons c s ih =>
    have hs : sep ∉ s := fun hmem => h (List.mem_cons_of_mem c hmem)
    rw [cutLast, ih hs]
    refine if_neg fun hc => h ?_
    rw [hc]
    exact List.mem_cons_self

/-- The last separator is the one behind which there is none. -/
theorem cutLast_append (a : List Char) {b : List Char} (h : sep ∉ b) :
    cutLast sep (a ++ sep :: b) = some (a, b) := by
  induction a with
  | nil =>
    rw [List.nil_append, cutLast, cutLast_of_not_mem h]
    exact if_pos rfl
  | cons c a ih => rw [List.cons_append, cutLast, ih]

theorem afterLast_of_not_mem {s : List Char} (h : sep ∉ s) : afterLast sep s = s := by
  rw [afterLast, cutLast_of_not_mem h]

/-- Whatever stands before a separator is cut off. -/
theorem afterLast_append_sep (a b : List Char) :
    afterLast sep (a ++ sep :: b) = afterLast sep b := by
  have hcut : (cutLast sep (a ++ sep :: b)).map Prod.snd = some (afterLast sep b) := by
    induction a with
    | nil =>
      rw [List.nil_append, cutLast, afterLast]
      cases cutLast sep b with
      | none => rw [if_pos rfl, Option.map_some]
      | some p => rw [Option.map_some]
    | cons c a ih =>
      obtain ⟨p, hp, hsnd⟩ := Option.map_eq_some_iff.mp ih
      rw [List.cons_append, cutLast, hp, Option.map_some, hsnd]
  obtain ⟨p, hp, hsnd⟩ := Option.map_eq_some_iff.mp hcut
  rw [afterLast, hp]
  exact hsnd

theorem afterLast_append (a : List Char) {b : List Char} (h : sep ∉ b) :
    afterLast sep (a ++ sep :: b) = b := by
  rw [afterLast_append_sep, afterLast_of_not_mem h]

/-- The first separator is the one before which there is none. -/
theorem cutFirst_append {a : List Char} (h : sep ∉ a) (b : List Char) :
    cutFirst sep (a ++ sep :: b) = some (a, b) := by
  induction a with
  | nil => exact if_pos rfl
  | cons c a ih =>
    have hc : c ≠ sep := fun heq => h (heq ▸ List.mem_cons_self)
    have ha : sep ∉ a := fun hmem => h (List.mem_cons_of_mem c hmem)
    rw [List.cons_append, cutFirst, if_neg hc, ih ha, Option.map_some]

theorem cutFirst_eq_none_iff {s : List Char} : cutFirst sep s = none ↔ sep ∉ s := by
  induction s with
  | nil => simp [cutFirst]
  | cons c s ih =>
    rw [cutFirst, List.mem_cons, not_or]
    by_cases hc : c = sep
    · simp [hc]
    · rw [if_neg hc, Option.map_eq_none_iff, ih]
      exact (and_iff_right (Ne.symm hc)).symm

theorem cutFirst_eq_some_iff {s a b : List Char} :
    cutFirst sep s = some (a, b) ↔ s = a ++ sep :: b ∧ sep ∉ a := by
  constructor
  · intro h
    induction s generalizing a with
    | nil => cases h
    | cons c s ih =>
      rw [cutFirst] at h
      split at h
      · next hc =>
        obtain ⟨rfl, rfl⟩ := Prod.mk.inj (Option.some.inj h)
        exact ⟨by rw [hc]; rfl, List.not_mem_nil⟩
      · next hc =>
        obtain ⟨⟨a', b'⟩, hcut, hparts⟩ := Option.map_eq_some_iff.mp h
        obtain ⟨rfl, rfl⟩ := Prod.mk.inj hparts
        obtain ⟨rfl, ha'⟩ := ih hcut
        exact ⟨rfl, List.not_mem_cons_of_ne_of_not_mem (Ne.symm hc) ha'⟩
  · rintro ⟨rfl, ha⟩
    exact cutFirst_append ha b

/-- A text cut at every separator: the pieces have none in them, and put together with separators
between them they are the text. -/
structure IsCut (sep : Char) (s : List Char) (pieces : List (List Char)) : Prop where
  /-- Even the empty text is one piece. -/
  nonempty : pieces ≠ []
  /-- There is no separator in a piece. -/
  whole : ∀ piece ∈ pieces, sep ∉ piece
  /-- Nothing is lost but the separators. -/
  join : [sep].intercalate pieces = s

theorem splitAll_eq_splitOn (sep : Char) (s : List Char) : splitAll sep s = s.splitOn sep := by
  induction s with
  | nil => exact (List.splitOn_nil sep).symm
  | cons c s ih =>
    rw [splitAll, List.splitOn_cons_eq_if_modifyHead, ← ih]
    by_cases hc : c = sep
    · simp only [hc, beq_self_eq_true, if_true]
    · simp only [hc, beq_false_of_ne, ne_eq, not_false_eq_true, if_false, Bool.false_eq_true]
      cases h : splitAll sep s with
      | nil => exact absurd (ih.symm.trans h) (List.splitOn_ne_nil sep s)
      | cons piece pieces => rfl

theorem sep_notMem_of_mem_splitAll {s piece : List Char} (h : piece ∈ splitAll sep s) :
    sep ∉ piece := by
  induction s generalizing piece with
  | nil =>
    rw [List.mem_singleton.mp h]
    exact List.not_mem_nil
  | cons c s ih =>
    rw [splitAll] at h
    split at h
    · rcases List.mem_cons.mp h with rfl | h
      · exact List.not_mem_nil
      · exact ih h
    · next hc =>
      split at h
      · rw [List.mem_singleton.mp h, List.mem_singleton]
        exact Ne.symm hc
      · next first more hmore =>
        rcases List.mem_cons.mp h with rfl | h
        · have hfirst := ih (hmore ▸ List.mem_cons_self)
          exact List.not_mem_cons_of_ne_of_not_mem (Ne.symm hc) hfirst
        · exact ih (hmore ▸ List.mem_cons_of_mem first h)

/-- **A text can be cut at every separator in one way**, and is. -/
theorem splitAll_eq_iff {s : List Char} {pieces : List (List Char)} :
    splitAll sep s = pieces ↔ IsCut sep s pieces := by
  constructor
  · rintro rfl
    refine ⟨?_, fun _ => sep_notMem_of_mem_splitAll, ?_⟩
    · rw [splitAll_eq_splitOn]
      exact List.splitOn_ne_nil sep s
    · rw [splitAll_eq_splitOn]
      exact List.intercalate_splitOn sep
  · rintro ⟨hne, hpieces, rfl⟩
    rw [splitAll_eq_splitOn]
    exact List.splitOn_intercalate sep hpieces hne

theorem splitAll_of_not_mem {s : List Char} (h : sep ∉ s) : splitAll sep s = [s] :=
  splitAll_eq_iff.mpr
    ⟨List.cons_ne_nil s [], by simpa using h, List.intercalate_singleton⟩

end Text

/-- What is put before a number sign does not count. -/
theorem localPart_append_sep (s id : String) : localPart (s ++ "#" ++ id) = localPart id := by
  have hlist : (s ++ "#" ++ id).toList = s.toList ++ '#' :: id.toList := by
    simp [String.toList_append]
  rw [localPart, hlist, Text.afterLast_append_sep, localPart]

theorem localPart_of_not_mem {s : String} (h : '#' ∉ s.toList) : localPart s = s := by
  rw [localPart, Text.afterLast_of_not_mem h, String.ofList_toList]

/-- What is put behind a number sign is the local part. -/
theorem localPart_append (s : String) {fragment : String} (h : '#' ∉ fragment.toList) :
    localPart (s ++ "#" ++ fragment) = fragment := by
  rw [localPart_append_sep, localPart_of_not_mem h]

namespace Did

/-! ### The span of an identifier -/

theorem isIdChar_of_isDigit {c : Char} (h : Base64Url.isDigit c = true) : isIdChar c = true :=
  Base64Url.of_isDigit (by decide +kernel) h

theorem ne_colon_of_isDigit {c : Char} (h : Base64Url.isDigit c = true) : c ≠ ':' := by
  rintro rfl
  exact absurd h (by decide)

theorem ne_percent {c : Char} (h : (isIdChar c || c == ':') = true) : c ≠ '%' := by
  rintro rfl
  exact absurd h (by decide)

theorem spanId_cons {c : Char} (h : (isIdChar c || c == ':') = true) (rest : List Char) :
    spanId (c :: rest) = (c :: (spanId rest).1, (spanId rest).2) := by
  have hne := ne_percent h
  rw [spanId]
  · rw [if_pos h]
  · rintro a b more rfl
    exact absurd rfl hne

theorem spanId_percent {a b : Char} (h : (Hex.isDigit a && Hex.isDigit b) = true)
    (rest : List Char) :
    spanId ('%' :: a :: b :: rest) =
      ('%' :: a :: b :: (spanId rest).1, (spanId rest).2) := by
  rw [spanId, if_pos h]

/-- An identifier of characters that stand for themselves, and colons. -/
theorem spanId_of_forall {s : List Char} (h : ∀ c ∈ s, (isIdChar c || c == ':') = true) :
    spanId s = (s, []) := by
  induction s with
  | nil => rfl
  | cons c s ih =>
    obtain ⟨hc, hs⟩ := List.forall_mem_cons.mp h
    rw [spanId_cons hc, ih hs]

/-- A text with a colon behind it that is an identifier up to its end begins with a character that
stands for itself, or with an escape that ends before the colon. -/
theorem exists_percent {c : Char} {s t : List Char} (hc : ¬ (isIdChar c || c == ':') = true)
    (h : (spanId (c :: (s ++ ':' :: t))).2 = []) :
    ∃ a b rest, c = '%' ∧ s = a :: b :: rest ∧ (Hex.isDigit a && Hex.isDigit b) = true := by
  have hcolon : Hex.isDigit ':' = false := by decide
  rw [spanId.eq_def] at h
  split at h
  · next a b more heq =>
    obtain ⟨rfl, hs⟩ := List.cons.inj heq
    cases hhex : Hex.isDigit a && Hex.isDigit b with
    | false => simp [hhex] at h
    | true =>
      obtain ⟨ha, hb⟩ := Bool.and_eq_true_iff.mp hhex
      rcases s with _ | ⟨a', _ | ⟨b', rest⟩⟩
      · -- the colon itself would have to be the first digit
        rw [← (List.cons.inj hs).1, hcolon] at ha
        cases ha
      · -- or else the second one
        rw [← (List.cons.inj (List.cons.inj hs).2).1, hcolon] at hb
        cases hb
      · obtain ⟨rfl, hs'⟩ := List.cons.inj hs
        obtain ⟨rfl, -⟩ := List.cons.inj hs'
        exact ⟨a', b', rest, rfl, rfl, hhex⟩
  · next heq =>
    obtain ⟨rfl, rfl⟩ := List.cons.inj heq
    simp [hc] at h
  · next heq => cases heq

/-- What is an identifier with one text behind a colon is one with another text there. -/
theorem spanId_colon {t u : List Char} (hu : ∀ c ∈ u, (isIdChar c || c == ':') = true)
    (s : List Char) (h : (spanId (s ++ ':' :: t)).2 = []) :
    spanId (s ++ ':' :: u) = (s ++ ':' :: u, []) := by
  match s with
  | [] => exact spanId_of_forall (List.forall_mem_cons.mpr ⟨by decide, hu⟩)
  | c :: s =>
    by_cases hc : (isIdChar c || c == ':') = true
    · rw [List.cons_append, spanId_cons hc] at h ⊢
      rw [spanId_colon hu s h]
    · obtain ⟨a, b, rest, rfl, rfl, hhex⟩ := exists_percent hc h
      rw [List.cons_append, List.cons_append, List.cons_append, spanId_percent hhex] at h ⊢
      rw [spanId_colon hu rest h]

/-- A text that does not end with a colon can end an identifier. -/
theorem isId_append (s : List Char) {t : List Char} (ht : t ≠ []) (hcolon : ':' ∉ t) :
    isId (s ++ t) = true := by
  rw [isId, List.getLast?_append, List.getLast?_eq_some_getLast ht]
  have hlast : t.getLast ht ≠ ':' := fun heq => hcolon (heq ▸ List.getLast_mem ht)
  simpa using hlast

/-! ### Bare DIDs -/

theorem takeWhile_append_colon {method : List Char} (h : ∀ c ∈ method, isMethodChar c = true)
    (rest : List Char) : (method ++ ':' :: rest).takeWhile isMethodChar = method := by
  rw [List.takeWhile_append_of_pos h, List.takeWhile_cons_of_neg (by decide), List.append_nil]

theorem dropWhile_append_colon {method : List Char} (h : ∀ c ∈ method, isMethodChar c = true)
    (rest : List Char) : (method ++ ':' :: rest).dropWhile isMethodChar = ':' :: rest := by
  rw [List.dropWhile_append_of_pos h, List.dropWhile_cons_of_neg (by decide)]

/-- The parts of a bare DID. -/
def bareParts (method id : List Char) : Parts where
  method := method
  id := id
  params := []
  path := none
  query := none
  fragment := none

/-- **A text that consists of a method and an identifier is a bare DID.** -/
theorem parse?_bare {s : String} {method id : List Char}
    (hs : s.toList = 'd' :: 'i' :: 'd' :: ':' :: (method ++ ':' :: id))
    (hmethod : ∀ c ∈ method, isMethodChar c = true) (hne : method ≠ [])
    (hspan : spanId id = (id, [])) (hid : isId id = true) :
    ∃ d, parse? s = some d ∧ d.uri = s ∧ d.method = String.ofList method ∧
      d.id = String.ofList id ∧ d.isBare = true := by
  have hempty : method.isEmpty = false := List.isEmpty_eq_false_iff.mpr hne
  have hscan : scan? s.toList = some (bareParts method id) := by
    rw [hs, scan?, scanAfterScheme?, takeWhile_append_colon hmethod,
      dropWhile_append_colon hmethod]
    simp only [hspan, hempty, hid]
    rfl
  have huri : String.ofList (bareParts method id).renderBare = s :=
    (congrArg String.ofList hs.symm).trans String.ofList_toList
  refine ⟨ofParts (bareParts method id), ?_, huri, rfl, rfl, rfl⟩
  rw [parse?, hscan, Option.map_some]

/-- The identifier of a DID was scanned off its text. -/
theorem spanId_of_parse? {s : String} {d : Did} {method rest : List Char}
    (hs : s.toList = 'd' :: 'i' :: 'd' :: ':' :: (method ++ ':' :: rest))
    (hmethod : ∀ c ∈ method, isMethodChar c = true) (h : parse? s = some d) :
    d.id = String.ofList (spanId rest).1 := by
  obtain ⟨parts, hscan, rfl⟩ := Option.map_eq_some_iff.mp h
  rw [hs, scan?, scanAfterScheme?, takeWhile_append_colon hmethod,
    dropWhile_append_colon hmethod] at hscan
  simp only at hscan
  split at hscan
  · cases hscan
  · obtain ⟨⟨params, more⟩, -, hscan⟩ := Option.bind_eq_some_iff.mp hscan
    obtain ⟨fragment, -, hscan⟩ := Option.bind_eq_some_iff.mp hscan
    rw [← Option.some.inj hscan]
    rfl

theorem append_spanId (s : List Char) : (spanId s).1 ++ (spanId s).2 = s := by
  fun_induction spanId s <;> simp_all

/-- Where the whole of a text was scanned off, nothing is left. -/
theorem spanId_snd_eq_nil {s : List Char} (h : (spanId s).1 = s) : (spanId s).2 = [] := by
  have happend := append_spanId s
  rw [h] at happend
  exact List.append_right_eq_self.mp happend

end Did

end DidMethods
