/-!
# Octet strings

An octet string is a list of `UInt8`. Text becomes octets by UTF-8 (`Bytes.ofString`), octets
become text when they are well-formed UTF-8 (`Bytes.toString?`), and a big-endian number is the
usual positional reading of octets (`Bytes.toNat`, `Bytes.ofNat`).
-/

namespace DidMethods

/-- An octet string. -/
abbrev Bytes := List UInt8

namespace Bytes

/-- The UTF-8 octets of a text. -/
def ofString (s : String) : Bytes :=
  s.toUTF8.data.toList

/-- The text whose UTF-8 octets these are, if they are well formed. -/
def toString? (b : Bytes) : Option String :=
  String.fromUTF8? ⟨b.toArray⟩

/-- The number that the octets write in base 256, most significant first. -/
def toNat (b : Bytes) : Nat :=
  b.foldl (fun n x => n * 256 + x.toNat) 0

/-- The last `len` base-256 digits of a number, most significant first. -/
def ofNat : (len n : Nat) → Bytes
  | 0, _ => []
  | len + 1, n => ofNat len (n / 256) ++ [UInt8.ofNat n]

/-- The number that the octets write in base 256, least significant first. -/
def toNatLittle (b : Bytes) : Nat :=
  b.foldr (fun x n => x.toNat + 256 * n) 0

/-- The first `len` base-256 digits of a number, least significant first. -/
def ofNatLittle : (len n : Nat) → Bytes
  | 0, _ => []
  | len + 1, n => UInt8.ofNat n :: ofNatLittle len (n / 256)

theorem ofString_ofList (l : List Char) :
    ofString (String.ofList l) = l.flatMap String.utf8EncodeChar := by
  rw [ofString, String.toUTF8, String.toByteArray_ofList, List.utf8Encode, List.data_toByteArray]

@[simp] theorem length_ofNat (len n : Nat) : (ofNat len n).length = len := by
  induction len generalizing n with
  | zero => rfl
  | succ len ih => simp [ofNat, ih]

@[simp] theorem length_ofNatLittle (len n : Nat) : (ofNatLittle len n).length = len := by
  induction len generalizing n with
  | zero => rfl
  | succ len ih => simp [ofNatLittle, ih]

end Bytes

end DidMethods
