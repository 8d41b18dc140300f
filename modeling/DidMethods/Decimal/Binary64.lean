/-!
# Double precision

A finite double is a sign and a magnitude `mantissa * 2 ^ exponent` (`Binary64`).
`Binary64.ofDecimal?` reads a decimal to the nearest double, a tie going to the even mantissa; there
is no nearest finite double once the magnitude reaches the overflow bound, and a magnitude too small
to tell from zero is zero.
-/

namespace DidMethods

/-- A finite double: `mantissa * 2 ^ exponent`, negated if `negative`. -/
structure Binary64 where
  /-- The sign, kept for zero as well. -/
  negative : Bool
  /-- The significand, below two to the fifty-third. -/
  mantissa : Nat
  /-- The power of two it is scaled by, at least `Binary64.minExponent`. -/
  exponent : Int
deriving DecidableEq, Repr

namespace Binary64

/-- The exponent of the smallest doubles. -/
def minExponent : Int := -1074

/-- The exponent of the largest doubles. -/
def maxExponent : Int := 971

/-- A fraction of naturals rounded to the nearest natural, a tie going to the even one. -/
def roundDiv (num den : Nat) : Nat :=
  let t := num / den
  let r := num % den
  if 2 * r < den then t
  else if den < 2 * r then t + 1
  else if t % 2 = 0 then t else t + 1

/-- The positive fraction `num / den` rounded to a mantissa and an exponent. -/
def roundFraction (num den : Nat) : Nat × Int :=
  let guess : Int := max (Int.ofNat num.log2 - Int.ofNat den.log2 - 53) minExponent
  let up (q : Int) : Nat := num * Nat.pow 2 (-q).toNat
  let down (q : Int) : Nat := den * Nat.pow 2 q.toNat
  let q := if Nat.pow 2 53 ≤ up guess / down guess then guess + 1 else guess
  let m := roundDiv (up q) (down q)
  if m = Nat.pow 2 53 then (Nat.pow 2 52, q + 1) else (m, q)

/-- The double nearest to `digits * 10 ^ scale`, if it is finite. The two bounds only keep the
powers of ten small: beyond them the answer is known from the size of the number alone. -/
def ofDecimal? (negative : Bool) (digits : Nat) (scale : Int) : Option Binary64 :=
  let size : Int := Int.ofNat (Nat.toDigits 10 digits).length + scale
  if digits = 0 ∨ size < -340 then some ⟨negative, 0, minExponent⟩
  else if 320 < size then none
  else
    let (m, q) := roundFraction (digits * Nat.pow 10 scale.toNat) (Nat.pow 10 (-scale).toNat)
    if maxExponent < q then none else some ⟨negative, m, q⟩

/-- The double nearest to an integer, if it is finite. -/
def ofInt? (n : Int) : Option Binary64 :=
  ofDecimal? (n < 0) n.natAbs 0

end Binary64

end DidMethods
