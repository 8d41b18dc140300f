import DidMethods.Curve.Modular
import DidMethods.Digest.Hmac

/-!
# The curve secp256k1

The curve `y² = x³ + 7` over a field of 256 bits (`Secp256k1`), its points as octets, and ECDSA
over it with SHA-256 (`Es256k`). Signing takes its nonce from the key and the digest, and always
gives the lower of the two values that `s` can have; verifying refuses the higher one.
-/

namespace DidMethods

namespace Secp256k1

/-- The size of the field. -/
def p : Nat := Nat.pow 2 256 - Nat.pow 2 32 - 977

/-- The order of the group. -/
def order : Nat := 0xFFFFFFFFFFFFFFFFFFFFFFFFFFFFFFFEBAAEDCE6AF48A03BBFD25E8CD0364141

/-- A point other than the neutral one, by its coordinates. -/
structure Point where
  /-- First coordinate. -/
  x : Nat
  /-- Second coordinate. -/
  y : Nat
deriving DecidableEq, Repr

/-- The base point. -/
def base : Point where
  x := 0x79BE667EF9DCBBAC55A06295CE870B07029BFCDB2DCE28D959F2815B16F81798
  y := 0x483ADA7726A3C4655DA4FBFC0E1108A8FD17B448A68554199C47D08FFB10D4B8

/-- The right-hand side of the curve equation. -/
def cubic (x : Nat) : Nat :=
  (x * x % p * x + 7) % p

/-- The coordinates are reduced and satisfy the curve equation. -/
def Point.onCurve (P : Point) : Bool :=
  P.x < p && P.y < p && P.y * P.y % p == cubic P.x

/-! ### The group -/

/-- A point by scaled coordinates, `x = X / Z` and `y = Y / Z`; the neutral point has `Z = 0`. -/
structure Scaled where
  /-- Scaled first coordinate. -/
  X : Nat
  /-- Scaled second coordinate. -/
  Y : Nat
  /-- The scale. -/
  Z : Nat

/-- The neutral point. -/
def Scaled.zero : Scaled := ⟨0, 1, 0⟩

/-- A point with scale one. -/
def Scaled.ofPoint (P : Point) : Scaled := ⟨P.x, P.y, 1⟩

/-- The point of scaled coordinates, unless it is the neutral one. -/
def Scaled.toPoint? (P : Scaled) : Option Point :=
  if P.Z % p = 0 then none
  else
    let i := Curve.inverse p P.Z
    some ⟨P.X * i % p, P.Y * i % p⟩

/-- The sum of two points; the same formula serves for every pair. -/
def Scaled.add (P Q : Scaled) : Scaled :=
  let b3 := 21
  let t0 := P.X * Q.X % p
  let t1 := P.Y * Q.Y % p
  let t2 := P.Z * Q.Z % p
  let t3 := Curve.sub p ((P.X + P.Y) * (Q.X + Q.Y) % p) ((t0 + t1) % p)
  let t4 := Curve.sub p ((P.Y + P.Z) * (Q.Y + Q.Z) % p) ((t1 + t2) % p)
  let t5 := Curve.sub p ((P.X + P.Z) * (Q.X + Q.Z) % p) ((t0 + t2) % p)
  let a := 3 * t0 % p
  let b := b3 * t2 % p
  let c := (t1 + b) % p
  let e := Curve.sub p t1 b
  let f := b3 * t5 % p
  ⟨Curve.sub p (t3 * e % p) (t4 * f % p), (e * c + f * a) % p, (c * t4 + a * t3) % p⟩

/-- A scalar multiple. -/
def Scaled.mul (scalar : Nat) (P : Scaled) : Scaled :=
  Curve.multiply Scaled.add Scaled.zero scalar P

/-! ### Points as octets -/

/-- The point with the given first coordinate and parity of the second, if there is one. -/
def lift? (x : Nat) (odd : Bool) : Option Point :=
  if p ≤ x then none
  else
    let root := Curve.power p (cubic x) ((p + 1) / 4)
    let y := if (root % 2 == 1) == odd then root else Curve.sub p 0 root
    if root * root % p = cubic x then some ⟨x, y⟩ else none

/-- The point that some octets write: both coordinates behind `4`, or the first one alone behind `2`
or `3`, which give the parity of the second, or behind `5`, where the second is even. -/
def decode? (bytes : Bytes) : Option Point :=
  match bytes with
  | [] => none
  | tag :: rest =>
    if tag = 4 then
      let P : Point := ⟨Bytes.toNat (rest.take 32), Bytes.toNat (rest.drop 32)⟩
      if rest.length = 64 ∧ P.onCurve then some P else none
    else if rest.length ≠ 32 then none
    else if tag = 2 ∨ tag = 5 then lift? (Bytes.toNat rest) false
    else if tag = 3 then lift? (Bytes.toNat rest) true
    else none

/-- The first coordinate behind the parity of the second. -/
def compress (P : Point) : Bytes :=
  (if P.y % 2 = 0 then 2 else 3) :: Bytes.ofNat 32 P.x

/-- The first coordinate as octets. -/
def Point.xBytes (P : Point) : Bytes :=
  Bytes.ofNat 32 P.x

/-- The second coordinate as octets. -/
def Point.yBytes (P : Point) : Bytes :=
  Bytes.ofNat 32 P.y

end Secp256k1

namespace Es256k

open Secp256k1

/-- A number that is neither zero nor as large as the order. -/
def inRange (n : Nat) : Bool :=
  0 < n && n < order

/-- A secret scalar: a number in range. -/
abbrev Secret := { n : Nat // inRange n = true }

/-- The secret scalar of some octets: twenty-four to thirty-two of them, the missing ones being
leading zeros. -/
def secret? (bytes : Bytes) : Option Secret :=
  let n := Bytes.toNat bytes
  if h : inRange n = true then
    if 24 ≤ bytes.length ∧ bytes.length ≤ 32 then some ⟨n, h⟩ else none
  else none

/-- The secret scalar that a random number gives. -/
def secretOf (n : Nat) : Secret :=
  ⟨1 + n % (order - 1), by
    have : n % (order - 1) < order - 1 := Nat.mod_lt n (by decide)
    simp only [inRange, Bool.and_eq_true, decide_eq_true_eq]
    omega⟩

/-- The public key of a secret scalar. -/
def publicKey (secret : Nat) : Point :=
  (Scaled.mul secret (Scaled.ofPoint base)).toPoint?.getD base

/-- The digest of a message as a scalar. -/
def hashScalar (message : Bytes) : Nat :=
  Bytes.toNat (sha256 message) % order

/-- The first nonce in range out of a keyed sequence of digests, in at most `fuel` attempts. If none
of them is in range, the nonce is 1, where an implementation without a bound goes on. -/
def nonceUpTo : (fuel : Nat) → (key value : Bytes) → Nat
  | 0, _, _ => 1
  | fuel + 1, key, value =>
    let value := hmacSha256 key value
    if inRange (Bytes.toNat value) then Bytes.toNat value
    else
      let key := hmacSha256 key (value ++ [0])
      nonceUpTo fuel key (hmacSha256 key value)

/-- The nonce of a secret and a digest, in at most 64 attempts. A digest misses the range about once
in `2 ^ 128`, and nothing is known of a secret and a digest for which all of them do. -/
def nonce (secret hash : Nat) : Nat :=
  let data := Bytes.ofNat 32 secret ++ Bytes.ofNat 32 hash
  let value := List.replicate 32 1
  let key := hmacSha256 (List.replicate 32 0) (value ++ 0 :: data)
  let value := hmacSha256 key value
  let key := hmacSha256 key (value ++ 1 :: data)
  nonceUpTo 64 key (hmacSha256 key value)

/-- The upper half of the scalars. -/
def isHigh (s : Nat) : Bool :=
  order / 2 < s

/-- The signature of a message under a secret scalar: `r` and `s`, thirty-two octets each. -/
def sign (secret : Nat) (message : Bytes) : Bytes :=
  let z := hashScalar message
  let k := nonce secret z
  let r := (publicKey k).x % order
  let s := Curve.inverse order k * (z + r * secret % order) % order
  let s := if isHigh s then order - s else s
  Bytes.ofNat 32 r ++ Bytes.ofNat 32 s

/-- The two scalars of a signature: sixty-four octets, neither scalar zero or too large. -/
def scalars? (signature : Bytes) : Option (Nat × Nat) :=
  let r := Bytes.toNat (signature.take 32)
  let s := Bytes.toNat (signature.drop 32)
  if signature.length = 64 ∧ inRange r ∧ inRange s then some (r, s) else none

/-- Check the two scalars of a signature against a public key. -/
def verify (key : Point) (message : Bytes) (signature : Nat × Nat) : Bool :=
  let (r, s) := signature
  if isHigh s then false
  else
    let i := Curve.inverse order s
    let z := hashScalar message
    let R := Scaled.add (Scaled.mul (z * i % order) (Scaled.ofPoint base))
      (Scaled.mul (r * i % order) (Scaled.ofPoint key))
    match R.toPoint? with
    | some R => R.x % order == r
    | none => false

end Es256k

end DidMethods
