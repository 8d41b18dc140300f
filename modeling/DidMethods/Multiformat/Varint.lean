import DidMethods.Text.Bytes

/-!
# Variable-length numbers

A number below two to the sixty-fourth is written seven bits to an octet, least significant group
first; the high bit of an octet says that another one follows. `Varint.decode?` reads one number off
the front of some octets. It refuses a number that never ends, one of more than ten octets, and one
whose last octet adds nothing. A tenth octet counts with its lowest bit only.
-/

namespace DidMethods.Varint

/-- The most octets that a number takes. -/
def maxLength : Nat := 10

/-- The octets of a number, with room for `fuel` more of them. -/
def encodeUpTo : (fuel n : Nat) → Bytes
  | 0, _ => []
  | fuel + 1, n =>
    if n < 128 then [UInt8.ofNat n]
    else UInt8.ofNat (n % 128 + 128) :: encodeUpTo fuel (n / 128)

/-- The octets of a number below two to the sixty-fourth. -/
def encode (n : Nat) : Bytes :=
  encodeUpTo maxLength n

/-- Read on at the octet of index `i`, the octets before it having given `n`. -/
def decodeFrom? (i n : Nat) : Bytes → Option (Nat × Bytes)
  | [] => none
  | b :: rest =>
    let total := (n + b.toNat % 128 * Nat.pow 128 i) % Nat.pow 2 64
    if b.toNat < 128 then
      if b.toNat = 0 ∧ 0 < i then none else some (total, rest)
    else if i + 1 < maxLength then decodeFrom? (i + 1) total rest
    else none

/-- The number at the front of some octets, and what follows it. -/
def decode? (bytes : Bytes) : Option (Nat × Bytes) :=
  decodeFrom? 0 0 bytes

end DidMethods.Varint
