import DidMethods.Proofs.JsonText

/-!
# Octets read as JSON

Whoever is handed octets as JSON need not be handed a text. The octets are taken apart into
characters and octets of no character, and nothing of them is lost on the way
(`DidMethods.Utf8.flatMap_octets_parts`); they are a text exactly if no octet is left over
(`DidMethods.Utf8.toString?_eq`).

In quotation marks this decides about the value and about nothing else. Whatever octets stand
there, they are one token, which has the text that they write for its value, and no value if they
write none (`DidMethods.Json.Lexer.runBy_quoted`). So the reader gets past any octets where it looks
at nothing, and nowhere else past octets that are no text (`DidMethods.Json.ofBytes?_quoted`).
-/

namespace DidMethods

theorem Bytes.eq_ofString_of_toString? {b : Bytes} {s : String} (h : toString? b = some s) :
    b = ofString s := by
  rw [toString?, String.fromUTF8?] at h
  split at h
  · cases h
    rfl
  · cases h

namespace Utf8

/-! ### Taking octets apart -/

/-- The octets of a part. -/
def Part.octets : Part → Bytes
  | .char c => String.utf8EncodeChar c
  | .stray x => [x]

/-- The character that a part is. -/
def Part.char? : Part → Option Char
  | .char c => some c
  | .stray _ => none

theorem exists_of_frontChar? {b : Bytes} {c : Char} (h : frontChar? b = some c) :
    ∃ rest, b = String.utf8EncodeChar c ++ rest := by
  obtain ⟨after, hafter⟩ := ByteArray.exists_of_utf8DecodeChar?_eq_some h
  have hfront : b.take 4 = String.utf8EncodeChar c ++ after.data.toList := by
    have hdata := congrArg (·.data.toList) hafter
    simpa using hdata
  exact ⟨after.data.toList ++ b.drop 4, by
    rw [← List.append_assoc, ← hfront, List.take_append_drop]⟩

theorem parts_stray {x : UInt8} {b : Bytes} (h : frontChar? (x :: b) = none) :
    parts (x :: b) = .stray x :: parts b := by
  rw [parts, partsFrom, h]
  rfl

/-- Octets are none, or a character and further octets, or one octet of no character and further
octets. -/
theorem parts_ind {motive : Bytes → Prop} (nil : motive [])
    (char : ∀ c b, motive b → motive (String.utf8EncodeChar c ++ b))
    (stray : ∀ x b, frontChar? (x :: b) = none → motive b → motive (x :: b)) (b : Bytes) :
    motive b := by
  induction hlength : b.length using Nat.strongRecOn generalizing b with
  | ind n ih =>
    cases b with
    | nil => exact nil
    | cons x b =>
      cases hfront : frontChar? (x :: b) with
      | none => exact stray x b hfront (ih b.length (by simp [← hlength]) b rfl)
      | some c =>
        obtain ⟨rest, hrest⟩ := exists_of_frontChar? hfront
        have hshorter : rest.length < n := by
          rw [← hlength, hrest, List.length_append, String.length_utf8EncodeChar]
          exact Nat.lt_add_of_pos_left c.utf8Size_pos
        rw [hrest]
        exact char c rest (ih rest.length hshorter rest rfl)

/-- **Nothing is lost**: the parts of some octets make up the octets again. -/
theorem flatMap_octets_parts (b : Bytes) : (parts b).flatMap Part.octets = b := by
  induction b using parts_ind with
  | nil => rfl
  | char c b ih => rw [parts_encode_append, List.flatMap_cons, ih, Part.octets]
  | stray x b hfront ih =>
    rw [parts_stray hfront, List.flatMap_cons, ih, Part.octets, List.singleton_append]

theorem mapM_char?_eq_some {ps : List Part} {l : List Char} :
    ps.mapM Part.char? = some l ↔ ps = l.map .char := by
  induction ps generalizing l with
  | nil => simp [eq_comm]
  | cons p ps ih =>
    cases p with
    | stray x => cases l <;> simp [Part.char?]
    | char c =>
      cases l with
      | nil => simp [Part.char?, Option.bind_eq_some_iff]
      | cons d l =>
        have htail : ps.mapM Part.char? = some l ↔ ps = l.map .char := ih
        rw [List.map_cons, List.cons.injEq, ← htail, List.mapM_cons]
        cases ps.mapM Part.char? <;> simp [Part.char?]

/-- **Octets are a text if they are made of characters only**, and the characters are those of the
text. -/
theorem toString?_eq (b : Bytes) :
    Bytes.toString? b = ((parts b).mapM Part.char?).map String.ofList := by
  cases hchars : (parts b).mapM Part.char? with
  | some l =>
    have hparts := mapM_char?_eq_some.mp hchars
    have hoctets : b = Bytes.ofString (String.ofList l) := by
      rw [← flatMap_octets_parts b, hparts, List.flatMap_map, Bytes.ofString_ofList]
      rfl
    rw [hoctets, Bytes.toString?_ofString, Option.map_some]
  | none =>
    cases htext : Bytes.toString? b with
    | none => rfl
    | some s =>
      have hparts : parts b = s.toList.map .char := by
        rw [Bytes.eq_ofString_of_toString? htext, parts_ofString]
      rw [mapM_char?_eq_some.mpr hparts] at hchars
      cases hchars

/-! ### Characters of ASCII -/

/-- A character of ASCII is one octet. -/
theorem exists_encode_of_lt {c : Char} (hc : c.toNat < 128) :
    ∃ x : UInt8, String.utf8EncodeChar c = [x] ∧ x.toNat = c.toNat := by
  have hvalue : c.toNat = c.val.toNat := rfl
  refine ⟨UInt8.ofNat c.val.toNat, if_pos (by omega), ?_⟩
  rw [UInt8.toNat_ofNat', Nat.mod_eq_of_lt (by omega), hvalue]

/-- An octet below 128 in the octets of a character is the whole of them. -/
theorem encode_of_mem {c : Char} {x : UInt8} (hx : x ∈ String.utf8EncodeChar c)
    (hlt : x.toNat < 128) : String.utf8EncodeChar c = [x] := by
  have hlow : c.val.toNat ≤ 127 := by
    -- all octets of a longer encoding have their highest bit set
    refine Decidable.byContradiction fun hhigh => ?_
    simp only [String.utf8EncodeChar, if_neg hhigh] at hx
    repeat' split at hx
    all_goals
      simp only [List.mem_cons, List.not_mem_nil, or_false] at hx
      rcases hx with rfl | rfl | rfl | rfl
    all_goals
      simp only [UInt8.toNat_ofNat'] at hlt
      omega
  obtain ⟨y, hy, -⟩ := exists_encode_of_lt (c := c) (Nat.lt_succ_of_le hlow)
  rw [hy] at hx ⊢
  rw [List.mem_singleton.mp hx]

/-- An octet that is the start of no character does not become one by an ASCII character behind the
octets: this would have to be a part of the character. -/
theorem frontChar?_append_encode {d : Char} (hd : d.toNat < 128) {y : UInt8} {b : Bytes}
    (h : frontChar? (y :: b) = none) (rest : Bytes) :
    frontChar? (y :: (b ++ (String.utf8EncodeChar d ++ rest))) = none := by
  refine Option.eq_none_iff_forall_ne_some.mpr fun c hc => ?_
  obtain ⟨after, hafter⟩ := exists_of_frontChar? hc
  rw [← List.cons_append] at hafter
  rcases List.append_eq_append_iff.mp hafter with ⟨more, hmore, hover⟩ | ⟨more, hmore, -⟩
  · cases more with
    | nil =>
      rw [List.append_nil] at hmore
      rw [← hmore, ← List.append_nil (String.utf8EncodeChar c), frontChar?_encode] at h
      cases h
    | cons z more =>
      obtain ⟨x, hx, hvalue⟩ := exists_encode_of_lt hd
      rw [hx, List.singleton_append, List.cons_append] at hover
      obtain rfl := (List.cons.inj hover).1
      have hmem : x ∈ String.utf8EncodeChar c := by simp [hmore]
      have hone := encode_of_mem hmem (hvalue ▸ hd)
      rw [hmore] at hone
      simp at hone
  · rw [hmore, frontChar?_encode] at h
    cases h

/-- **Octets are taken apart on either side of a character of ASCII by themselves.** -/
theorem parts_append_encode {d : Char} (hd : d.toNat < 128) (b rest : Bytes) :
    parts (b ++ (String.utf8EncodeChar d ++ rest)) = parts b ++ .char d :: parts rest := by
  induction b using parts_ind with
  | nil => exact parts_encode_append d rest
  | char c b ih =>
    rw [List.append_assoc, parts_encode_append, ih, parts_encode_append, List.cons_append]
  | stray y b hfront ih =>
    rw [List.cons_append, parts_stray (frontChar?_append_encode hd hfront rest), ih,
      parts_stray hfront, List.cons_append]

end Utf8

namespace Json

/-! ### Octets in quotation marks -/

namespace Lexer

/-- An octet that stands for itself between quotation marks, or for a part of something. -/
def isOrdinary (x : UInt8) : Bool :=
  0x20 ≤ x.toNat && x != 0x22 && x != 0x5c

/-- What there is among octets, as a piece of a text. -/
def pieceOfPart : Utf8.Part → Piece
  | .char c => .char c
  | .stray x => .stray x

theorem assemble_pieceOfPart (ps : List Utf8.Part) :
    assemble (ps.map pieceOfPart) = ps.mapM Utf8.Part.char? := by
  induction ps with
  | nil => rfl
  | cons p ps ih =>
    cases p with
    | stray x => rfl
    | char c =>
      rw [List.map_cons, pieceOfPart, assemble, ih, List.mapM_cons]
      cases ps.mapM Utf8.Part.char? <;> rfl

theorem stepPart_text {p : Utf8.Part} (hp : ∀ x ∈ p.octets, isOrdinary x = true)
    (done : List Piece) : (text done).stepPart p = some (text (pieceOfPart p :: done), []) := by
  cases p with
  | stray x => rfl
  | char c =>
    refine step_text_plain done ?_ ?_ fun hcontrol => ?_
    · rintro rfl
      exact absurd (hp 0x22 (by decide)) (by decide)
    · rintro rfl
      exact absurd (hp 0x5c (by decide)) (by decide)
    · obtain ⟨x, hx, hvalue⟩ := Utf8.exists_encode_of_lt (Nat.lt_trans hcontrol (by decide))
      have hordinary := hp x (by rw [Utf8.Part.octets, hx]; exact List.mem_singleton_self x)
      simp only [isOrdinary, Bool.and_eq_true, decide_eq_true_eq] at hordinary
      omega

/-- All parts of a text are taken to its pieces. -/
theorem runBy_text {ps : List Utf8.Part} (hps : ∀ p ∈ ps, ∀ x ∈ p.octets, isOrdinary x = true)
    (done : List Piece) (rest : List Utf8.Part) :
    (text done).runBy stepPart (ps ++ rest) =
      (text ((ps.map pieceOfPart).reverse ++ done)).runBy stepPart rest := by
  induction ps generalizing done with
  | nil => rfl
  | cons p ps ih =>
    obtain ⟨hp, hps⟩ := List.forall_mem_cons.mp hps
    rw [List.cons_append, runBy_cons_silent (stepPart_text hp done), ih hps, List.map_cons,
      List.reverse_cons, List.append_assoc, List.singleton_append]

/-- **Octets in quotation marks are one token**, whatever they are, as long as there are no further
quotation marks, no escapes and no controls among them. The token has the text that they write for
its value, and no value if they write none. -/
theorem runBy_quoted {b : Bytes} (hb : ∀ x ∈ b, isOrdinary x = true) (rest : Bytes) :
    between.runBy stepPart (Utf8.parts (0x22 :: (b ++ 0x22 :: rest))) =
      (between.runBy stepPart (Utf8.parts rest)).map ([.text (Bytes.toString? b)] ++ ·) := by
  have hquote : '"'.toNat < 128 := by decide
  have hparts : Utf8.parts (0x22 :: (b ++ 0x22 :: rest)) =
      .char '"' :: (Utf8.parts b ++ .char '"' :: Utf8.parts rest) := by
    have hopen := Utf8.parts_encode_append '"' (b ++ 0x22 :: rest)
    exact hopen.trans (congrArg _ (Utf8.parts_append_encode hquote b rest))
  have hopen : between.stepPart (.char '"') = some (text [], []) := rfl
  have hclose (done : List Piece) : (text done).stepPart (.char '"') =
      some (between, [.text ((assemble done.reverse).map String.ofList)]) := rfl
  have hordinary : ∀ p ∈ Utf8.parts b, ∀ x ∈ p.octets, isOrdinary x = true := by
    intro p hp x hx
    refine hb x ?_
    rw [← Utf8.flatMap_octets_parts b]
    exact List.mem_flatMap.mpr ⟨p, hp, hx⟩
  rw [hparts, runBy_cons_silent hopen, runBy_text hordinary, runBy_cons (hclose _),
    List.append_nil, List.reverse_reverse, assemble_pieceOfPart, ← Utf8.toString?_eq]

end Lexer

/-! ### What is not looked at -/

/-- A text is taken by its value, and where nothing is looked at also without one. -/
theorem Reader.run_text (limit : Nat) (root : Shape) (stack : List Frame) (o : Option String)
    (rest : List Token) :
    run limit root (.value stack) (.text o :: rest) =
      (unlessNothing (shapeHere root stack) "" o).bind
        fun s => run limit root (give (.string s) stack) rest := by
  rw [run, step, begin]
  cases unlessNothing (shapeHere root stack) "" o <;> rfl

/-- **Octets that are no text are read where nothing is looked at, and nowhere else.** -/
theorem ofBytes?_quoted {b : Bytes} (hb : ∀ x ∈ b, Lexer.isOrdinary x = true) (shape : Shape)
    (limit : Nat) :
    ofBytes? (0x22 :: (b ++ [0x22])) shape limit =
      (Reader.unlessNothing shape "" (Bytes.toString? b)).map .string := by
  have hend : Lexer.between.runBy Lexer.stepPart (Utf8.parts []) = some [] := rfl
  rw [ofBytes?, octetTokens?, Lexer.runBy_quoted hb, hend]
  change Reader.run limit shape (.value []) [.text (Bytes.toString? b)] = _
  rw [Reader.run_text, Reader.shapeHere]
  cases Reader.unlessNothing shape "" (Bytes.toString? b) <;> rfl

end Json

end DidMethods
