import DidMethods.Curve.Modular
import DidMethods.Digest.Sha2

/-!
# The curve of Ed25519

The twisted Edwards curve `-x² + y² = 1 + d x² y²` over the field of `2 ^ 255 - 19` elements
(`Edwards25519`), its points as thirty-two octets, and the signatures over it (`Ed25519`).

Reading a point is liberal (`Edwards25519.decompress?`): the coordinate may be written with any
representative that fits, and a sign bit on a point whose `x` is zero is ignored. Verification is
the one without cofactor and compares the octets of `R`, so that only the scalar `S` has a range.
-/

namespace DidMethods

namespace Edwards25519

/-- The size of the field. -/
def p : Nat := Nat.pow 2 255 - 19

/-- The order of the base point. -/
def order : Nat := Nat.pow 2 252 + 27742317777372353535851937790883648493

/-- The constant of the curve equation. -/
def d : Nat := 37095705934669439343138083508754565189542113879843219016388785533085940283555

/-- A square root of minus one. -/
def rootOfMinusOne : Nat :=
  19681161376707505956807079304988542015446066515923890162744021073123829784752

/-- A point, with `x = X / Z`, `y = Y / Z` and `x y = T / Z`. -/
structure Point where
  /-- Scaled first coordinate. -/
  X : Nat
  /-- Scaled second coordinate. -/
  Y : Nat
  /-- The scale. -/
  Z : Nat
  /-- Scaled product of the coordinates. -/
  T : Nat
deriving DecidableEq, Repr

/-- The neutral point. -/
def zero : Point := ⟨0, 1, 1, 0⟩

/-- The base point. -/
def base : Point :=
  let x := 15112221349535400772501151409588531511454012693041857206046113283949847762202
  let y := 46316835694926478169428394003475163141307993866256225615783033603165251855960
  ⟨x, y, 1, x * y % p⟩

/-- The sum of two points; the same formula serves for every pair. -/
def add (P Q : Point) : Point :=
  let a := Curve.sub p P.Y P.X * Curve.sub p Q.Y Q.X % p
  let b := (P.Y + P.X) * (Q.Y + Q.X) % p
  let c := 2 * P.T * d % p * Q.T % p
  let z := 2 * P.Z * Q.Z % p
  let e := Curve.sub p b a
  let f := Curve.sub p z c
  let g := (z + c) % p
  let h := (b + a) % p
  ⟨e * f % p, g * h % p, f * g % p, e * h % p⟩

/-- The negative of a point. -/
def neg (P : Point) : Point :=
  ⟨Curve.sub p 0 P.X, P.Y, P.Z, Curve.sub p 0 P.T⟩

/-- A scalar multiple. -/
def mul (scalar : Nat) (P : Point) : Point :=
  Curve.multiply add zero scalar P

/-- The coordinates of a point. -/
def affine (P : Point) : Nat × Nat :=
  let i := Curve.inverse p P.Z
  (P.X * i % p, P.Y * i % p)

/-- A point as octets: the second coordinate, and the parity of the first in the top bit. -/
def compress (P : Point) : Bytes :=
  let (x, y) := affine P
  Bytes.ofNatLittle 32 (y + Nat.pow 2 255 * (x % 2))

/-- A square root of the fraction `u / v`, if there is one. -/
def rootOfFraction? (u v : Nat) : Option Nat :=
  let v3 := v * v % p * v % p
  let v7 := v3 * v3 % p * v % p
  let r := u * v3 % p * Curve.power p (u * v7 % p) ((p - 5) / 8) % p
  let check := v * (r * r % p) % p
  if check = u % p then some r
  else if check = Curve.sub p 0 (u % p) then some (r * rootOfMinusOne % p)
  else none

/-- The point that thirty-two octets write, if they write one. -/
def decompress? (bytes : Bytes) : Option Point :=
  if bytes.length ≠ 32 then none
  else
    let n := Bytes.toNatLittle bytes
    let y := n % Nat.pow 2 255 % p
    let odd := n / Nat.pow 2 255
    let yy := y * y % p
    (rootOfFraction? (Curve.sub p yy 1) ((d * yy + 1) % p)).map fun r =>
      let x := if r % 2 = odd then r else Curve.sub p 0 r
      ⟨x, y, 1, x * y % p⟩

/-- The first coordinate of the matching point on the Montgomery form of the curve. -/
def montgomery (P : Point) : Nat :=
  (P.Z + P.Y) * Curve.inverse p (Curve.sub p P.Z P.Y) % p

end Edwards25519

namespace Ed25519

open Edwards25519

/-- Clear the lowest three bits and the highest one, and set the second highest. -/
def clamp (n : Nat) : Nat :=
  Nat.pow 2 254 + n % Nat.pow 2 254 / 8 * 8

/-- The secret scalar of a seed. -/
def scalar (seed : Bytes) : Nat :=
  clamp (Bytes.toNatLittle ((sha512 seed).take 32))

/-- The public key of a seed, as octets. -/
def publicKey (seed : Bytes) : Bytes :=
  compress (mul (scalar seed % order) base)

/-- The digest of some octets as a scalar. -/
def hashScalar (bytes : Bytes) : Nat :=
  Bytes.toNatLittle (sha512 bytes) % order

/-- The signature of a message under a seed: `R` and `S`, thirty-two octets each. -/
def sign (seed message : Bytes) : Bytes :=
  let r := hashScalar ((sha512 seed).drop 32 ++ message)
  let R := compress (mul r base)
  let k := hashScalar (R ++ publicKey seed ++ message)
  R ++ Bytes.ofNatLittle 32 ((r + k * scalar seed) % order)

/-- What checking a signature can come to. -/
inductive Verdict where
  /-- The signature is of the message under the key. -/
  | valid
  /-- The scalar is not below the order of the base point. -/
  | scalarOutOfRange
  /-- The equation does not hold. -/
  | mismatch
deriving DecidableEq, Repr

/-- Check a signature of sixty-four octets against a public key, given as point and as octets. -/
def verify (key : Point) (keyBytes message signature : Bytes) : Verdict :=
  let R := signature.take 32
  let s := Bytes.toNatLittle (signature.drop 32)
  if order ≤ s then .scalarOutOfRange
  else
    let k := hashScalar (R ++ keyBytes ++ message)
    if compress (add (mul s base) (mul k (neg key))) = R then .valid else .mismatch

end Ed25519

end DidMethods
