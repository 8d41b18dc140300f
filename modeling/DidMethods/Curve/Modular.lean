/-!
# Arithmetic modulo a prime

Powers and inverses modulo a number, and the walk over the bits of a scalar that turns doubling and
adding into multiplication (`Curve.multiply`).
-/

namespace DidMethods.Curve

/-- The power `acc * base ^ e` modulo `m`, by squaring. -/
def powerOnto (m acc base e : Nat) : Nat :=
  if _h : e = 0 then acc
  else
    let acc := if e % 2 = 1 then acc * base % m else acc
    powerOnto m acc (base * base % m) (e / 2)
termination_by e
decreasing_by omega

/-- The power `base ^ e` modulo `m`. -/
def power (m base e : Nat) : Nat :=
  powerOnto m (1 % m) (base % m) e

/-- The inverse modulo a prime; zero has zero for it. -/
def inverse (p x : Nat) : Nat :=
  power p x (p - 2)

/-- The difference modulo `p` of two numbers below `p`. -/
def sub (p x y : Nat) : Nat :=
  (x + p - y) % p

/-- The bits of a number, most significant first, put in front of `acc`. -/
def bitsOnto (n : Nat) (acc : List Bool) : List Bool :=
  if _h : n = 0 then acc else bitsOnto (n / 2) ((n % 2 == 1) :: acc)
termination_by n
decreasing_by omega

/-- A scalar multiple of a point: double for each bit of the scalar, and add where it is set. -/
def multiply {P : Type} (add : P → P → P) (zero : P) (scalar : Nat) (point : P) : P :=
  (bitsOnto scalar []).foldl
    (fun acc bit => let twice := add acc acc; if bit then add twice point else twice) zero

end DidMethods.Curve
