import DidMethods.Curve.Edwards25519

/-!
# Key agreement over Curve25519

The public key of a secret is a multiple of the base point of the Montgomery curve, of which only
the first coordinate is kept. Every thirty-two octets are a public key.
-/

namespace DidMethods.X25519

open Edwards25519 (p)

/-- One step of the ladder: two points a fixed difference apart are doubled and added, given as
fractions of their first coordinates. -/
def step (x1 : Nat) (s : (Nat × Nat) × (Nat × Nat)) (bit : Bool) : (Nat × Nat) × (Nat × Nat) :=
  let ((x2, z2), (x3, z3)) := if bit then (s.2, s.1) else s
  let a := (x2 + z2) % p
  let b := Curve.sub p x2 z2
  let aa := a * a % p
  let bb := b * b % p
  let e := Curve.sub p aa bb
  let da := Curve.sub p x3 z3 * a % p
  let cb := (x3 + z3) % p * b % p
  let sum := (da + cb) % p
  let diff := Curve.sub p da cb
  let sumPoint := (sum * sum % p, x1 * (diff * diff % p) % p)
  let double := (aa * bb % p, e * ((aa + 121665 * e) % p) % p)
  if bit then (sumPoint, double) else (double, sumPoint)

/-- The first coordinate of a multiple of the point with the given one. -/
def mul (scalar u : Nat) : Nat :=
  let x1 := u % p
  let ((x, z), _) := (Curve.bitsOnto scalar []).foldl (step x1) ((1, 0), (x1, 1))
  x * Curve.inverse p z % p

/-- The public key of a secret of thirty-two octets. -/
def publicKey (secret : Bytes) : Bytes :=
  Bytes.ofNatLittle 32 (mul (Ed25519.clamp (Bytes.toNatLittle secret)) 9)

end DidMethods.X25519
