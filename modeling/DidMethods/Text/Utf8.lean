import DidMethods.Text.Bytes

/-!
# Characters among octets

Octets that are handed in as text need not be well-formed UTF-8. `Utf8.parts` takes them as they
come: as the characters that are written in them, and as single octets where there is no character
(`Utf8.Part`). A reader that does not look at some part of a text can pass over octets there that
mean nothing, and still see every character around them. The parts of the octets of a text are the
characters of the text (`Utf8.parts_ofString`).
-/

namespace DidMethods.Utf8

/-- What octets are made of. -/
inductive Part where
  /-- A character. -/
  | char (c : Char)
  /-- An octet that belongs to no character. -/
  | stray (x : UInt8)
deriving DecidableEq, Repr

/-- The character at the front of some octets. No character takes more than four. -/
def frontChar? (b : Bytes) : Option Char :=
  ByteArray.utf8DecodeChar? ⟨(b.take 4).toArray⟩ 0

/-- The parts of some octets, of which the first `skip` have been seen to. -/
def partsFrom : (skip : Nat) → Bytes → List Part
  | _, [] => []
  | skip + 1, _ :: rest => partsFrom skip rest
  | 0, x :: rest =>
    match frontChar? (x :: rest) with
    | some c => .char c :: partsFrom (c.utf8Size - 1) rest
    | none => .stray x :: partsFrom 0 rest

/-- The parts of some octets. -/
def parts (b : Bytes) : List Part :=
  partsFrom 0 b

theorem frontChar?_encode (c : Char) (b : Bytes) :
    frontChar? (String.utf8EncodeChar c ++ b) = some c := by
  have hlength : (String.utf8EncodeChar c).length ≤ 4 := by
    rw [String.length_utf8EncodeChar]
    exact c.utf8Size_le_four
  have harray : (⟨((String.utf8EncodeChar c ++ b).take 4).toArray⟩ : ByteArray) =
      (String.utf8EncodeChar c).toByteArray ++
        (b.take (4 - (String.utf8EncodeChar c).length)).toByteArray := by
    rw [List.take_append, List.take_of_length_le hlength, ← List.toByteArray_append]
    exact ByteArray.ext (List.data_toByteArray).symm
  rw [frontChar?, harray, ByteArray.utf8DecodeChar?_utf8EncodeChar_append]

/-- What has been seen to is left out. -/
theorem partsFrom_append (seen b : Bytes) : partsFrom seen.length (seen ++ b) = parts b := by
  induction seen with
  | nil => rfl
  | cons x seen ih => exact ih

theorem parts_encode_append (c : Char) (b : Bytes) :
    parts (String.utf8EncodeChar c ++ b) = .char c :: parts b := by
  have hfront := frontChar?_encode c b
  have hlength := String.length_utf8EncodeChar c
  cases hencode : String.utf8EncodeChar c with
  | nil =>
    rw [hencode] at hlength
    exact absurd hlength (Nat.ne_of_lt c.utf8Size_pos)
  | cons x rest =>
    rw [hencode, List.cons_append] at hfront
    rw [hencode, List.length_cons] at hlength
    rw [List.cons_append, parts, partsFrom, hfront]
    simp only [← hlength, Nat.add_sub_cancel, partsFrom_append]

/-- **The octets of a text are made of its characters**, and of nothing else. -/
theorem parts_ofString (s : String) : parts (Bytes.ofString s) = s.toList.map .char := by
  have hoctets : Bytes.ofString s = s.toList.flatMap String.utf8EncodeChar := by
    rw [← Bytes.ofString_ofList, String.ofList_toList]
  rw [hoctets]
  induction s.toList with
  | nil => rfl
  | cons c rest ih => rw [List.flatMap_cons, parts_encode_append, ih, List.map_cons]

example : parts [0x61, 0xc3, 0xa9, 0xff] = [.char 'a', .char 'é', .stray 0xff] := by decide

end DidMethods.Utf8
