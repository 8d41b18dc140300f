import DidMethods.Text.Bytes

/-!
# Hexadecimal

Octets as pairs of lower-case hexadecimal digits. Reading accepts both cases.
-/

namespace DidMethods.Hex

/-- The lower-case digit of a value below sixteen. -/
def digit (n : Nat) : Char :=
  if n < 10 then Char.ofNat (48 + n) else Char.ofNat (87 + n)

/-- The value of a hexadecimal digit of either case. -/
def value? (c : Char) : Option Nat :=
  if '0' ≤ c ∧ c ≤ '9' then some (c.toNat - 48)
  else if 'a' ≤ c ∧ c ≤ 'f' then some (c.toNat - 87)
  else if 'A' ≤ c ∧ c ≤ 'F' then some (c.toNat - 55)
  else none

/-- A hexadecimal digit of either case. -/
def isDigit (c : Char) : Bool :=
  (value? c).isSome

/-- Two digits for each octet. -/
def encode (b : Bytes) : String :=
  String.ofList (b.flatMap fun x => [digit (x.toNat / 16), digit (x.toNat % 16)])

/-- The octets of a list of digits, two digits to an octet. -/
def decodeChars? : List Char → Option Bytes
  | [] => some []
  | [_] => none
  | c :: d :: rest => do
    let hi ← value? c
    let lo ← value? d
    let more ← decodeChars? rest
    return UInt8.ofNat (16 * hi + lo) :: more

/-- The octets that a text of hexadecimal digits writes. -/
def decode? (s : String) : Option Bytes :=
  decodeChars? s.toList

/-- The digits of a number without leading zeros; zero is `0`. -/
def ofNat (n : Nat) : String :=
  String.ofList (Nat.toDigits 16 n)

end DidMethods.Hex
