import DidMethods.Fault
import DidMethods.Text.BitGroups

/-!
# URL-safe base64 without padding

The encoding of JSON Web Keys, hashes and long-form identifiers: groups of six bits over the
URL-safe alphabet, never padded. Reading accepts exactly what writing produces: padding characters,
a lone last character, and a last character with non-zero spare bits are all refused.
-/

namespace DidMethods.Base64Url

/-- The sixty-four characters, in the order of their values. -/
def alphabet : List Char :=
  "ABCDEFGHIJKLMNOPQRSTUVWXYZabcdefghijklmnopqrstuvwxyz0123456789-_".toList

/-- The character of a six-bit value. -/
def digit (n : Nat) : Char :=
  alphabet.getD n 'A'

/-- The six-bit value of a character. -/
def value? (c : Char) : Option Nat :=
  alphabet.idxOf? c

/-- A character of the alphabet. -/
def isDigit (c : Char) : Bool :=
  (value? c).isSome

/-- The text that writes the octets. -/
def encode (b : Bytes) : String :=
  String.ofList ((BitGroups.encode 6 b).map digit)

/-- The octets that a text writes. -/
def decode? (s : String) : Option Bytes := do
  let digits ← s.toList.mapM value?
  BitGroups.decode? 6 digits

/-- The octets that a text writes, or the failure that it writes none. -/
def decode (s : String) : Outcome Bytes :=
  match decode? s with
  | some bytes => .ok bytes
  | none => .error (.plain .invalidFormat)

end DidMethods.Base64Url
