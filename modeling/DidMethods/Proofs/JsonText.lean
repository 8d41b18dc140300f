import DidMethods.Json.Canonical
import DidMethods.Json.Reader

/-!
# Reading back written JSON

Between a value and its text stand its tokens (`DidMethods.Json.tokens`). The lexer finds them in
the text (`DidMethods.Json.run_write`), and the reader makes the value of them again, whatever part
of it is looked at, if containers do not nest too deep (`DidMethods.Json.ofText?_write`). How deep
they may nest is all that can go wrong: a reader that reads the text of a value reads this value
(`DidMethods.Json.eq_of_ofText?_write`).

All of this is said of values without numbers: a number is written as the double that is nearest to
it, from which an integer cannot be told.
-/

namespace DidMethods

/-! ### Octets of a text -/

namespace Bytes

/-- The octets of a text are the octets of this text. -/
@[simp] theorem toString?_ofString (s : String) : toString? (ofString s) = some s := by
  have harray : (⟨(ofString s).toArray⟩ : ByteArray) = s.toByteArray := by
    simp [ofString, String.toUTF8]
  rw [toString?, harray, String.fromUTF8?, dif_pos s.isValidUTF8]
  rfl

theorem ofString_injective {s t : String} (h : ofString s = ofString t) : s = t := by
  have hs := toString?_ofString s
  rw [h, toString?_ofString] at hs
  exact (Option.some.inj hs).symm

end Bytes

namespace Json

/-! ### Tokens of a value -/

mutual

/-- How deep containers nest in the value. -/
def depth : Json → Nat
  | .array items => depthItems items + 1
  | .object members => depthMembers members + 1
  | _ => 0

/-- How deep containers nest in the items. -/
def depthItems : List Json → Nat
  | [] => 0
  | v :: rest => max v.depth (depthItems rest)

/-- How deep containers nest in the values of the members. -/
def depthMembers : List Member → Nat
  | [] => 0
  | (_, v) :: rest => max v.depth (depthMembers rest)

end

mutual

/-- The tokens of the text of a value. -/
def tokens : Json → List Token
  | .string s => [.text (some s)]
  | .array [] => [.openArray, .closeArray]
  | .array (v :: rest) => .openArray :: v.tokens ++ tokensItems rest
  | .object [] => [.openObject, .closeObject]
  | .object ((k, v) :: rest) =>
    .openObject :: .text (some k) :: .colon :: v.tokens ++ tokensMembers rest
  | v => [.scalar (some v)]

/-- The tokens of the further items of a list, and of its end. -/
def tokensItems : List Json → List Token
  | [] => [.closeArray]
  | v :: rest => .comma :: v.tokens ++ tokensItems rest

/-- The tokens of the further members of an object, and of its end. -/
def tokensMembers : List Member → List Token
  | [] => [.closeObject]
  | (k, v) :: rest => .comma :: .text (some k) :: .colon :: v.tokens ++ tokensMembers rest

end

/-! ### The lexer on a text in quotes -/

namespace Lexer

section RunBy

variable {α : Type} {take : Lexer → α → Option (Lexer × List Token)} {s t : Lexer} {a : α}

/-- The tokens that a step gives come before the ones of the rest. -/
theorem runBy_cons {emitted : List Token} (h : take s a = some (t, emitted)) (rest : List α) :
    s.runBy take (a :: rest) = (t.runBy take rest).map (emitted ++ ·) := by
  simp only [runBy, h, Option.bind_eq_bind, Option.bind_some]
  cases t.runBy take rest <;> rfl

/-- A step that gives no token. -/
theorem runBy_cons_silent (h : take s a = some (t, [])) (rest : List α) :
    s.runBy take (a :: rest) = t.runBy take rest := by
  rw [runBy_cons h]
  cases t.runBy take rest <;> rfl

end RunBy

theorem run_cons {s t : Lexer} {c : Char} {emitted : List Token} (h : s.step c = some (t, emitted))
    (rest : List Char) : s.run (c :: rest) = (t.run rest).map (emitted ++ ·) :=
  runBy_cons h rest

theorem run_cons_silent {s t : Lexer} {c : Char} (h : s.step c = some (t, [])) (rest : List Char) :
    s.run (c :: rest) = t.run rest :=
  runBy_cons_silent h rest

/-- Characters among octets are taken like the characters of a text. -/
theorem runBy_map_char (s : Lexer) (l : List Char) : s.runBy stepPart (l.map .char) = s.run l := by
  induction l generalizing s with
  | nil => rfl
  | cons c l ih =>
    simp only [List.map_cons, run, runBy, stepPart]
    exact congrArg _ (funext fun p => congrArg (Option.bind · _) (ih p.1))

theorem hexValue_digit {n : Nat} (h : n < 16) : Hex.value? (Hex.digit n) = some n := by
  have hall : ∀ n < 16, Hex.value? (Hex.digit n) = some n := by decide
  exact hall n h

/-- The piece of a text that a written character is read as. -/
def pieceOf (c : Char) : Piece :=
  if c.toNat < 0x20 ∧ c ∉ ['\n', '\r', '\t', '\x08', '\x0c'] then .unit c.toNat else .char c

theorem step_text_plain {c : Char} (done : List Piece) (hq : c ≠ '"') (hb : c ≠ '\\')
    (hc : ¬ c.toNat < 0x20) : (text done).step c = some (text (.char c :: done), []) := by
  rw [step, if_neg hq, if_neg hb, if_neg hc]

theorem step_text_backslash (done : List Piece) :
    (text done).step '\\' = some (escape done, []) := rfl

theorem step_escape_short {c d : Char} (done : List Piece) (hu : c ≠ 'u')
    (h : shortEscape? c = some d) : (escape done).step c = some (text (.char d :: done), []) := by
  rw [step, if_neg hu, h]
  rfl

theorem run_shortEscape {c d : Char} (done : List Piece) (hu : c ≠ 'u')
    (h : shortEscape? c = some d) (rest : List Char) :
    (text done).run ('\\' :: c :: rest) = (text (.char d :: done)).run rest := by
  rw [run_cons_silent (step_text_backslash done), run_cons_silent (step_escape_short done hu h)]

theorem step_unit_digit {n wanted value : Nat} (done : List Piece) (h : n < 16) :
    (unit done (wanted + 2) value).step (Hex.digit n) =
      some (unit done (wanted + 1) (16 * value + n), []) := by
  simp [step, hexValue_digit h]

theorem step_unit_last {n value : Nat} (done : List Piece) (h : n < 16) :
    (unit done 1 value).step (Hex.digit n) = some (text (.unit (16 * value + n) :: done), []) := by
  simp [step, hexValue_digit h]

theorem run_unitEscape {n : Nat} (done : List Piece) (h : n < 65536) (rest : List Char) :
    (text done).run (unitEscape n ++ rest) = (text (.unit n :: done)).run rest := by
  have hsum : 16 * (16 * (16 * (16 * 0 + n / 4096 % 16) + n / 256 % 16) + n / 16 % 16) + n % 16 =
      n := by omega
  have hu : (escape done).step 'u' = some (unit done 4 0, []) := rfl
  simp only [unitEscape, List.map_cons, List.map_nil, List.cons_append, List.nil_append]
  rw [run_cons_silent (step_text_backslash done), run_cons_silent hu,
    run_cons_silent (step_unit_digit done (Nat.mod_lt _ (by decide))),
    run_cons_silent (step_unit_digit done (Nat.mod_lt _ (by decide))),
    run_cons_silent (step_unit_digit done (Nat.mod_lt _ (by decide))),
    run_cons_silent (step_unit_last done (Nat.mod_lt _ (by decide))), hsum]

/-- A written character is read as one piece. -/
theorem run_writeChar (c : Char) (done : List Piece) (rest : List Char) :
    (text done).run (writeChar false c ++ rest) = (text (pieceOf c :: done)).run rest := by
  by_cases hmem : c ∈ ['"', '\\', '\n', '\r', '\t', '\x08', '\x0c']
  · -- the characters that have an escape of one letter
    simp only [List.mem_cons, List.not_mem_nil, or_false] at hmem
    rcases hmem with rfl | rfl | rfl | rfl | rfl | rfl | rfl <;>
      exact run_shortEscape done (by decide) rfl rest
  · simp only [List.mem_cons, List.not_mem_nil, or_false, not_or] at hmem
    obtain ⟨hq, hb, hn, hr, ht, h8, hc⟩ := hmem
    by_cases hctl : c.toNat < 0x20
    · -- any other control character is escaped by its number
      have hwrite : writeChar false c = unitEscape c.toNat := by
        simp [writeChar, hq, hb, hn, hr, ht, h8, hc, hctl]
      have hpiece : pieceOf c = .unit c.toNat := by
        simp [pieceOf, hn, hr, ht, h8, hc, hctl]
      rw [hwrite, hpiece, run_unitEscape done (by omega)]
    · have hwrite : writeChar false c = [c] := by
        simp [writeChar, hq, hb, hn, hr, ht, h8, hc, hctl]
      have hpiece : pieceOf c = .char c := if_neg fun h => hctl h.1
      rw [hwrite, hpiece]
      exact run_cons_silent (step_text_plain done hq hb hctl) rest

theorem run_writeChars (s : List Char) (done : List Piece) (rest : List Char) :
    (text done).run (s.flatMap (writeChar false) ++ rest) =
      (text ((s.map pieceOf).reverse ++ done)).run rest := by
  induction s generalizing done with
  | nil => rfl
  | cons c s ih =>
    rw [List.flatMap_cons, List.append_assoc, run_writeChar, ih]
    simp

theorem assemble_unit {n : Nat} (hlow : Utf16.isLow n = false) (hhigh : Utf16.isHigh n = false)
    (rest : List Piece) :
    assemble (.unit n :: rest) = (assemble rest).map (Char.ofNat n :: ·) := by
  rw [assemble.eq_def]
  simp [hlow, hhigh]

/-- The pieces of written characters make these characters. -/
theorem assemble_pieces (s : List Char) : assemble (s.map pieceOf) = some s := by
  induction s with
  | nil => rfl
  | cons c s ih =>
    rw [List.map_cons, pieceOf]
    split
    · next h =>
      -- a control character is neither half of a surrogate pair
      have hlow : Utf16.isLow c.toNat = false := by
        simp only [Utf16.isLow, Bool.and_eq_false_iff, decide_eq_false_iff_not]
        omega
      have hhigh : Utf16.isHigh c.toNat = false := by
        simp only [Utf16.isHigh, Bool.and_eq_false_iff, decide_eq_false_iff_not]
        omega
      rw [assemble_unit hlow hhigh, ih, Char.ofNat_toNat, Option.map_some]
    · simp [assemble, ih]

/-- **A written text is read as the token of this text.** -/
theorem run_writeString (s : String) (rest : List Char) :
    between.run (writeString false s ++ rest) =
      (between.run rest).map ([.text (some s)] ++ ·) := by
  have hopen : between.step '"' = some (text [], []) := rfl
  have hclose : (text ((s.toList.map pieceOf).reverse ++ [])).step '"' =
      some (between, [.text (some s)]) := by
    simp [step, assemble_pieces]
  rw [writeString, List.append_assoc, List.cons_append, run_cons_silent hopen, run_writeChars,
    List.singleton_append, run_cons hclose]

end Lexer

/-! ### The lexer on a value -/

namespace Lexer

/-- A character that is a token by itself. -/
theorem run_mark {c : Char} {t : Token} (h : between.step c = some (between, [t]))
    (rest : List Char) : between.run (c :: rest) = (between.run rest).map ([t] ++ ·) :=
  run_cons h rest

/-- A literal name to its end. -/
theorem run_name {s : List Char} (hs : s ≠ []) (v : Json) (rest : List Char) :
    (name s v).run (s ++ rest) = (between.run rest).map ([.scalar (some v)] ++ ·) := by
  induction s with
  | nil => exact absurd rfl hs
  | cons c s ih =>
    cases s with
    | nil =>
      have hlast : (name [c] v).step c = some (between, [.scalar (some v)]) := by simp [step]
      exact run_cons hlast rest
    | cons d s =>
      have hnext : (name (c :: d :: s) v).step c = some (name (d :: s) v, []) := by simp [step]
      rw [List.cons_append, run_cons_silent hnext, ih (List.cons_ne_nil d s)]

end Lexer

theorem map_append_map {α : Type} (a b : List α) (o : Option (List α)) :
    (o.map (b ++ ·)).map (a ++ ·) = o.map (a ++ b ++ ·) := by
  rw [Option.map_map]
  exact congrArg (Option.map · o) (funext fun s => (List.append_assoc a b s).symm)

section Write

open Lexer

variable {style : Style}

mutual

/-- **The lexer finds the tokens of a value in its text**, and goes on behind it. -/
theorem run_write (hascii : style.ascii = false) (v : Json) (hv : v.hasNumber = false)
    (rest : List Char) :
    between.run (v.write style ++ rest) = (between.run rest).map (v.tokens ++ ·) := by
  match v with
  | .null =>
    have hn : between.step 'n' = some (name ['u', 'l', 'l'] .null, []) := rfl
    exact (run_cons_silent hn _).trans (run_name (by decide) .null rest)
  | .bool true =>
    have ht : between.step 't' = some (name ['r', 'u', 'e'] (.bool true), []) := rfl
    exact (run_cons_silent ht _).trans (run_name (by decide) (.bool true) rest)
  | .bool false =>
    have hf : between.step 'f' = some (name ['a', 'l', 's', 'e'] (.bool false), []) := rfl
    exact (run_cons_silent hf _).trans (run_name (by decide) (.bool false) rest)
  | .number n => cases hv
  | .string s =>
    rw [write, hascii]
    exact run_writeString s rest
  | .array [] =>
    have hopen : between.step '[' = some (between, [.openArray]) := rfl
    have hclose : between.step ']' = some (between, [.closeArray]) := rfl
    change between.run ('[' :: ']' :: rest) = _
    rw [run_mark hopen, run_mark hclose, map_append_map]
    rfl
  | .array (w :: items) =>
    have hopen : between.step '[' = some (between, [.openArray]) := rfl
    obtain ⟨hw, hitems⟩ : w.hasNumber = false ∧ hasNumberItems items = false := by
      simpa [hasNumber, hasNumberItems] using hv
    simp only [write, List.cons_append, List.append_assoc]
    rw [run_mark hopen, run_write hascii w hw, run_writeItems hascii items hitems, map_append_map,
      map_append_map]
    rfl
  | .object [] =>
    have hopen : between.step '{' = some (between, [.openObject]) := rfl
    have hclose : between.step '}' = some (between, [.closeObject]) := rfl
    change between.run ('{' :: '}' :: rest) = _
    rw [run_mark hopen, run_mark hclose, map_append_map]
    rfl
  | .object ((k, w) :: members) =>
    have hopen : between.step '{' = some (between, [.openObject]) := rfl
    have hcolon : between.step ':' = some (between, [.colon]) := rfl
    obtain ⟨hw, hmembers⟩ : w.hasNumber = false ∧ hasNumberMembers members = false := by
      simpa [hasNumber, hasNumberMembers] using hv
    simp only [write, hascii, List.cons_append, List.append_assoc]
    rw [run_mark hopen, run_writeString, run_mark hcolon, run_write hascii w hw,
      run_writeMembers hascii members hmembers]
    simp only [map_append_map]
    rfl

theorem run_writeItems (hascii : style.ascii = false) (items : List Json)
    (hitems : hasNumberItems items = false) (rest : List Char) :
    between.run (writeItems style items ++ rest) =
      (between.run rest).map (tokensItems items ++ ·) := by
  match items with
  | [] =>
    have hclose : between.step ']' = some (between, [.closeArray]) := rfl
    exact run_mark hclose rest
  | w :: items =>
    have hcomma : between.step ',' = some (between, [.comma]) := rfl
    obtain ⟨hw, hitems⟩ : w.hasNumber = false ∧ hasNumberItems items = false := by
      simpa [hasNumberItems] using hitems
    simp only [writeItems, List.cons_append, List.append_assoc]
    rw [run_mark hcomma, run_write hascii w hw, run_writeItems hascii items hitems, map_append_map,
      map_append_map]
    rfl

theorem run_writeMembers (hascii : style.ascii = false) (members : List Member)
    (hmembers : hasNumberMembers members = false) (rest : List Char) :
    between.run (writeMembers style members ++ rest) =
      (between.run rest).map (tokensMembers members ++ ·) := by
  match members with
  | [] =>
    have hclose : between.step '}' = some (between, [.closeObject]) := rfl
    exact run_mark hclose rest
  | (k, w) :: members =>
    have hcomma : between.step ',' = some (between, [.comma]) := rfl
    have hcolon : between.step ':' = some (between, [.colon]) := rfl
    obtain ⟨hw, hmembers⟩ : w.hasNumber = false ∧ hasNumberMembers members = false := by
      simpa [hasNumberMembers] using hmembers
    simp only [writeMembers, hascii, List.cons_append, List.append_assoc]
    rw [run_mark hcomma, run_writeString, run_mark hcolon, run_write hascii w hw,
      run_writeMembers hascii members hmembers]
    simp only [map_append_map]
    rfl

end

/-- The tokens of the whole text of a value. -/
theorem tokens?_write (hascii : style.ascii = false) {v : Json} (hv : v.hasNumber = false) :
    tokens? (String.ofList (v.write style)) = some v.tokens := by
  have h := run_write hascii v hv []
  rw [List.append_nil] at h
  rw [tokens?, String.toList_ofList, h]
  exact congrArg some (List.append_nil _)

end Write

/-! ### The reader -/

namespace Reader

variable {limit : Nat} {root : Shape}

theorem run_cons {s t : State} {token : Token} (h : step limit root s token = some t)
    (rest : List Token) : run limit root s (token :: rest) = run limit root t rest := by
  cases s <;> simp [run, h]

theorem step_scalar (stack : List Frame) (v : Json) :
    step limit root (.value stack) (.scalar (some v)) = some (give v stack) := rfl

theorem step_text (stack : List Frame) (s : String) :
    step limit root (.value stack) (.text (some s)) = some (give (.string s) stack) := rfl

theorem step_openArray {stack : List Frame} (h : stack.length < limit) :
    step limit root (.value stack) .openArray =
      some (.firstItem (.array (shapeHere root stack) [] :: stack)) :=
  if_pos (Or.inr h)

theorem step_openObject {stack : List Frame} (h : stack.length < limit) :
    step limit root (.value stack) .openObject =
      some (.firstKey (shapeHere root stack) stack) :=
  if_pos (Or.inr h)

/-- Where a list may end, anything but its end begins an item. -/
theorem step_firstItem (stack : List Frame) {token : Token} (h : token ≠ .closeArray) :
    step limit root (.firstItem stack) token = step limit root (.value stack) token := by
  cases token with
  | closeArray => exact absurd rfl h
  | _ => rcases stack with _ | ⟨_ | _, _⟩ <;> rfl

/-- No value begins with the end of a list. -/
theorem exists_tokens_eq (v : Json) : ∃ t more, v.tokens = t :: more ∧ t ≠ Token.closeArray := by
  match v with
  | .null | .bool _ | .number _ | .string _ | .array [] | .array (_ :: _) | .object []
  | .object ((_, _) :: _) => exact ⟨_, _, rfl, nofun⟩

/-- The first item of a list is read as any value is. -/
theorem run_firstItem (v : Json) (stack : List Frame) (rest : List Token) :
    run limit root (.firstItem stack) (v.tokens ++ rest) =
      run limit root (.value stack) (v.tokens ++ rest) := by
  obtain ⟨t, more, htokens, ht⟩ := exists_tokens_eq v
  rw [htokens, List.cons_append, run, run, step_firstItem stack ht]

mutual

/-- **The reader makes the value of its tokens**, whatever it looks at, and goes on behind them. -/
theorem run_tokens (v : Json) (stack : List Frame) (h : stack.length + v.depth ≤ limit)
    (rest : List Token) :
    run limit root (.value stack) (v.tokens ++ rest) = run limit root (give v stack) rest := by
  match v with
  | .null | .bool _ | .number _ => exact run_cons (step_scalar stack _) rest
  | .string s => exact run_cons (step_text stack s) rest
  | .array [] =>
    have hlt : stack.length < limit := by
      simp only [depth] at h
      omega
    exact (run_cons (step_openArray hlt) _).trans (run_cons rfl rest)
  | .array (w :: items) =>
    simp only [depth, depthItems] at h
    simp only [tokens, List.cons_append, List.append_assoc]
    rw [run_cons (step_openArray (by omega)), run_firstItem,
      run_tokens w _ (by simp only [List.length_cons]; omega)]
    exact run_tokensItems items _ [w] stack (by omega) rest
  | .object [] =>
    have hlt : stack.length < limit := by
      simp only [depth] at h
      omega
    exact (run_cons (step_openObject hlt) _).trans (run_cons rfl rest)
  | .object ((k, w) :: members) =>
    simp only [depth, depthMembers] at h
    simp only [tokens, List.cons_append, List.append_assoc]
    rw [run_cons (step_openObject (by omega)), run_cons rfl, run_cons rfl,
      run_tokens w _ (by simp only [List.length_cons]; omega)]
    exact run_tokensMembers members _ [(k, w)] k stack (by omega) rest

theorem run_tokensItems (items : List Json) (shape : Shape) (done : List Json)
    (stack : List Frame) (h : stack.length + 1 + depthItems items ≤ limit) (rest : List Token) :
    run limit root (.more (.array shape done :: stack)) (tokensItems items ++ rest) =
      run limit root (give (.array (done.reverse ++ items)) stack) rest := by
  match items with
  | [] =>
    rw [List.append_nil]
    exact run_cons rfl rest
  | w :: items =>
    simp only [depthItems] at h
    simp only [tokensItems, List.cons_append, List.append_assoc]
    rw [run_cons rfl, run_tokens w _ (by simp only [List.length_cons]; omega)]
    refine (run_tokensItems items shape (w :: done) stack (by omega) rest).trans ?_
    rw [List.reverse_cons, List.append_assoc, List.singleton_append]

theorem run_tokensMembers (members : List Member) (shape : Shape) (done : List Member)
    (key : String) (stack : List Frame) (h : stack.length + 1 + depthMembers members ≤ limit)
    (rest : List Token) :
    run limit root (.more (.object shape done key :: stack)) (tokensMembers members ++ rest) =
      run limit root (give (.object (done.reverse ++ members)) stack) rest := by
  match members with
  | [] =>
    rw [List.append_nil]
    exact run_cons rfl rest
  | (k, w) :: members =>
    simp only [depthMembers] at h
    simp only [tokensMembers, List.cons_append, List.append_assoc]
    rw [run_cons rfl, run_cons rfl, run_cons rfl,
      run_tokens w _ (by simp only [List.length_cons]; omega)]
    refine (run_tokensMembers members shape ((k, w) :: done) k stack (by omega) rest).trans ?_
    rw [List.reverse_cons, List.append_assoc, List.singleton_append]

end

/-! ### The limit on nesting -/

theorem begin_mono {limit' : Nat} (hle : limit ≤ limit') {stack : List Frame} {token : Token}
    {s : State} (h : begin limit root stack token = some s) :
    begin limit' root stack token = some s := by
  have hweaken : ∀ {c : Prop}, c ∨ stack.length < limit → c ∨ stack.length < limit' :=
    Or.imp_right fun hlt => Nat.lt_of_lt_of_le hlt hle
  cases token with
  | openArray | openObject =>
    simp only [begin, Option.ite_none_right_eq_some] at h ⊢
    exact ⟨hweaken h.1, h.2⟩
  | _ => exact h

theorem step_mono {limit' : Nat} (hle : limit ≤ limit') {s t : State} {token : Token}
    (h : step limit root s token = some t) : step limit' root s token = some t := by
  -- only a step that begins a value looks at the limit
  unfold step at h ⊢
  split at h <;> first | exact h | exact begin_mono hle h

/-- A reader that allows for deeper nesting reads no less. -/
theorem run_mono {limit' : Nat} (hle : limit ≤ limit') {tokens : List Token} {s : State}
    {v : Json} (h : run limit root s tokens = some v) : run limit' root s tokens = some v := by
  induction tokens generalizing s with
  | nil =>
    cases s with
    | done w => exact h
    | _ => cases h
  | cons token tokens ih =>
    cases hstep : step limit root s token with
    | none => cases s <;> simp [run, hstep] at h
    | some t =>
      rw [run_cons hstep] at h
      rw [run_cons (step_mono hle hstep)]
      exact ih h

end Reader

/-- **The octets of a text are read as the text is**, whatever part of it is looked at. -/
theorem ofBytes?_ofString (s : String) (shape : Shape) (limit : Nat) :
    ofBytes? (Bytes.ofString s) shape limit = ofText? s shape limit := by
  rw [ofBytes?, octetTokens?, Utf8.parts_ofString, Lexer.runBy_map_char, ofText?, tokens?]

/-! ### The text of a value -/

section Text

variable {style : Style} (hascii : style.ascii = false) {v : Json} (hv : v.hasNumber = false)

include hascii hv

/-- **A written value is read as this value**, whatever part of it is looked at. -/
theorem ofText?_write (shape : Shape) {limit : Nat} (h : v.depth ≤ limit) :
    ofText? (String.ofList (v.write style)) shape limit = some v := by
  have hrun : Reader.run limit shape (.value []) (v.tokens ++ []) = some v :=
    Reader.run_tokens v [] (by simpa using h) []
  rw [List.append_nil] at hrun
  rw [ofText?, tokens?_write hascii hv]
  exact hrun

/-- **Nothing else is read from a written value.** -/
theorem eq_of_ofText?_write {shape : Shape} {limit : Nat} {w : Json}
    (h : ofText? (String.ofList (v.write style)) shape limit = some w) : w = v := by
  -- with a higher limit the same is read as before, and the value is
  have hdeep := ofText?_write hascii hv shape (Nat.le_max_right limit v.depth)
  rw [ofText?, tokens?_write hascii hv] at h hdeep
  have hmore := Reader.run_mono (Nat.le_max_left limit v.depth) h
  exact Option.some.inj (hmore.symm.trans hdeep)

end Text

theorem write_object_ne_nil (style : Style) (members : List Member) :
    (object members).write style ≠ [] := by
  cases members <;> exact nofun

/-- Values with the same text are the same value. -/
theorem write_injective {style : Style} (hascii : style.ascii = false) {v w : Json}
    (hv : v.hasNumber = false) (hw : w.hasNumber = false)
    (h : v.write style = w.write style) : v = w := by
  have hread := ofText?_write hascii hv .whole (Nat.le_refl v.depth)
  rw [h] at hread
  exact eq_of_ofText?_write hascii hw hread

end Json

end DidMethods
