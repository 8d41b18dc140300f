import DidMethods.Decimal.Binary64

/-!
# The fewest digits that read back

Many decimals read back to the same double. The one to print has the fewest digits, and of those it
is the nearest to the double. `Binary64.readsBack` is the test: a decimal reads back when it lies
between the midpoints to the two neighbouring doubles, the midpoints included exactly when the
mantissa is even. `Binary64.shortest` tries one digit, then two, and so on; on each grid only the
two neighbours of the double can be nearest.
-/

namespace DidMethods

/-- The decimal `digits * 10 ^ scale`. -/
structure Decimal where
  /-- The digits as one number. -/
  digits : Nat
  /-- The power of ten they are scaled by. -/
  scale : Int
deriving DecidableEq, Repr

namespace Decimal

/-- Compare `digits * 10 ^ scale` with `n * 2 ^ q`. -/
def compareBinary (d : Decimal) (n : Nat) (q : Int) : Ordering :=
  compare (d.digits * Nat.pow 10 d.scale.toNat * Nat.pow 2 (-q).toNat)
    (n * Nat.pow 2 q.toNat * Nat.pow 10 (-d.scale).toNat)

/-- The same number without zeros at the end of its digits, in at most `fuel` steps. -/
def trimUpTo : (fuel : Nat) → Decimal → Decimal
  | 0, d => d
  | fuel + 1, d =>
    if d.digits ≠ 0 ∧ d.digits % 10 = 0 then trimUpTo fuel ⟨d.digits / 10, d.scale + 1⟩ else d

/-- The same number without zeros at the end of its digits. -/
def trim (d : Decimal) : Decimal :=
  trimUpTo (Nat.toDigits 10 d.digits).length d

end Decimal

namespace Binary64

/-- The decimal lies among the reals that round to the magnitude of this double. Below a power of
two the neighbouring double is only half as far away. -/
def readsBack (x : Binary64) (d : Decimal) : Bool :=
  let narrow := x.mantissa = Nat.pow 2 52 ∧ minExponent < x.exponent
  let low := if narrow then 4 * x.mantissa - 1 else 4 * x.mantissa - 2
  let high := 4 * x.mantissa + 2
  let even := x.mantissa % 2 == 0
  let a := d.compareBinary low (x.exponent - 2)
  let b := d.compareBinary high (x.exponent - 2)
  (a == .gt || (even && a == .eq)) && (b == .lt || (even && b == .eq))

/-- The power of ten of the leading digit of a positive magnitude. -/
def leadingPower (x : Binary64) : Int :=
  let num := x.mantissa * Nat.pow 2 x.exponent.toNat
  let den := Nat.pow 2 (-x.exponent).toNat
  if den ≤ num then Int.ofNat (Nat.toDigits 10 (num / den)).length - 1
  else -Int.ofNat (Nat.toDigits 10 ((den - 1) / num)).length

/-- The candidate with digits down to `10 ^ scale`, if one reads back. -/
def onGrid? (x : Binary64) (scale : Int) : Option Decimal :=
  let num := x.mantissa * Nat.pow 2 x.exponent.toNat * Nat.pow 10 (-scale).toNat
  let den := Nat.pow 2 (-x.exponent).toNat * Nat.pow 10 scale.toNat
  let below := num / den
  let nearest := roundDiv num den
  let other := if nearest = below then below + 1 else below
  if x.readsBack ⟨nearest, scale⟩ then some ⟨nearest, scale⟩
  else if x.readsBack ⟨other, scale⟩ then some ⟨other, scale⟩
  else none

/-- The magnitude itself as a decimal. -/
def exactDecimal (x : Binary64) : Decimal :=
  ⟨x.mantissa * Nat.pow 2 x.exponent.toNat * Nat.pow 5 (-x.exponent).toNat, min x.exponent 0⟩

/-- The nearest of the shortest decimals that read back to the magnitude; zero for zero. -/
def shortest (x : Binary64) : Decimal :=
  if x.mantissa = 0 then ⟨0, 0⟩
  else
    let top := x.leadingPower
    match (List.range 17).findSome? fun i => x.onGrid? (top - Int.ofNat i) with
    | some d => d.trim
    | none => x.exactDecimal.trim

end Binary64

end DidMethods
