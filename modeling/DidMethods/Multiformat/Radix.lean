import DidMethods.Text.Bytes

/-!
# Octets as digits of one large number

The encodings over an alphabet of any size read the octets as one number in base 256 and write it
in base `b`. Leading zero octets would be lost in the number, so each is written as one leading zero
digit, and reading turns each leading zero digit back into one octet.
-/

namespace DidMethods.Radix

/-- The number that the digits write in base `b`, most significant first. -/
def ofDigits (b : Nat) (digits : List Nat) : Nat :=
  digits.foldl (fun n d => n * b + d) 0

/-- The digits of a number in base `b`, most significant first, put in front of `acc`; zero has
none. -/
def digitsOnto (b n : Nat) (acc : List Nat) : List Nat :=
  if _h : n = 0 ∨ b < 2 then acc
  else digitsOnto b (n / b) (n % b :: acc)
termination_by n
decreasing_by exact Nat.div_lt_self (by omega) (by omega)

/-- The digits of a number in base `b`, most significant first; zero has none. -/
def toDigits (b n : Nat) : List Nat :=
  digitsOnto b n []

/-- The same number in another base, each leading zero digit kept as one. -/
def convert (source target : Nat) (digits : List Nat) : List Nat :=
  let zeros := digits.takeWhile (· == 0)
  zeros ++ toDigits target (ofDigits source digits)

/-- The octets as digits in base `b`. -/
def encode (b : Nat) (bytes : Bytes) : List Nat :=
  convert 256 b (bytes.map UInt8.toNat)

/-- The octets that digits in base `b` write. -/
def decode (b : Nat) (digits : List Nat) : Bytes :=
  (convert b 256 digits).map UInt8.ofNat

end DidMethods.Radix
