import DidMethods.Decimal.Shortest

/-!
# Written numbers

A `Layout` record holds the decisions that the written form of a double leaves open: which
magnitudes are written out in positions, what marks an integral value, and how an exponent looks.
-/

namespace DidMethods.Decimal

/-- The decisions of a written form. The *power* of a number is the power of ten of its leading
digit. -/
structure Layout where
  /-- The least power that is written in positions. -/
  plainFrom : Int
  /-- The first power that is no longer written in positions. -/
  plainBelow : Int
  /-- An integral value in positions ends in `.0`. -/
  pointZero : Bool
  /-- A positive exponent has its sign. -/
  exponentPlus : Bool
  /-- Zero has its sign. -/
  signedZero : Bool
deriving DecidableEq, Repr

/-- Some zeros. -/
def zeros (n : Nat) : List Char :=
  List.replicate n '0'

/-- The magnitude `digits * 10 ^ scale` in positions. -/
def positional (l : Layout) (digits : List Char) (scale : Int) : List Char :=
  let tail := if l.pointZero then ['.', '0'] else []
  if 0 ≤ scale then digits ++ zeros scale.toNat ++ tail
  else
    let after := (-scale).toNat
    if after < digits.length then
      digits.take (digits.length - after) ++ '.' :: digits.drop (digits.length - after)
    else ['0', '.'] ++ zeros (after - digits.length) ++ digits

/-- The magnitude with the given leading power, one digit before the point. -/
def scientific (l : Layout) (digits : List Char) (power : Int) : List Char :=
  let mantissa := match digits with
    | d :: e :: rest => d :: '.' :: e :: rest
    | short => short
  let sign := if power < 0 then ['-'] else if l.exponentPlus then ['+'] else []
  mantissa ++ 'e' :: sign ++ Nat.toDigits 10 power.natAbs

/-- The characters of a double in a written form. -/
def write (l : Layout) (x : Binary64) : List Char :=
  let d := x.shortest
  let digits := Nat.toDigits 10 d.digits
  let power := Int.ofNat digits.length - 1 + d.scale
  let sign := if x.negative && (x.mantissa != 0 || l.signedZero) then ['-'] else []
  if l.plainFrom ≤ power ∧ power < l.plainBelow then sign ++ positional l digits d.scale
  else sign ++ scientific l digits power

end DidMethods.Decimal
