import DidMethods.Text.Split

/-!
# Punycode

A label of a domain name that is not ASCII is written in ASCII: its ASCII characters, a hyphen, and
then one number for each of the other characters, in ascending order, that says where it goes. The
digits of a number have falling weights, so that it is plain where the number ends
(`Punycode.number?`), and how fast they fall is adapted to the numbers before
(`Punycode.adapt`). `Punycode.decode?` is the label that is written.
-/

namespace DidMethods.Punycode

/-- The value of a digit: letters of either case, then the decimal digits. -/
def digit? (c : Char) : Option Nat :=
  if 'a' ≤ c ∧ c ≤ 'z' then some (c.toNat - 97)
  else if 'A' ≤ c ∧ c ≤ 'Z' then some (c.toNat - 65)
  else if '0' ≤ c ∧ c ≤ '9' then some (c.toNat - 22)
  else none

/-- The threshold at a place: a digit below it ends its number. -/
def threshold (place bias : Nat) : Nat :=
  min 26 (max 1 (place - bias))

/-- Divide until what is left is small, and count. -/
def settle (delta rounds : Nat) : Nat × Nat :=
  if 455 < delta then settle (delta / 35) (rounds + 36) else (delta, rounds)
termination_by delta
decreasing_by exact Nat.div_lt_self (by omega) (by omega)

/-- The bias for the next number, when this one was `delta` and the label now has `size`
characters. -/
def adapt (delta size : Nat) (first : Bool) : Nat :=
  let delta := if first then delta / 700 else delta / 2
  let (delta, rounds) := settle (delta + delta / size) 0
  rounds + 36 * delta / (delta + 38)

/-- The number at the front of some digits, and what follows it. -/
def number? (bias place weight acc : Nat) : List Char → Option (Nat × List Char)
  | [] => none
  | c :: rest => do
    let d ← digit? c
    let t := threshold place bias
    let acc := acc + d * weight
    if d < t then return (acc, rest)
    number? bias (place + 36) (weight * (36 - t)) acc rest

/-- A label while its characters are put in: the label, the last character that was put in, where
the next one may go, and the bias. -/
structure Progress where
  /-- The label so far. -/
  label : List Char
  /-- The code point of the last character. -/
  last : Nat := 128
  /-- The place after the last character. -/
  place : Nat := 0
  /-- The bias for the next number. -/
  bias : Nat := 72

/-- Put in the character that a number says. -/
def Progress.insert? (p : Progress) (delta : Nat) : Option Progress :=
  let size := p.label.length + 1
  let position := p.place + delta
  let code := p.last + position / size
  if code.isValidChar then
    some {
      label := p.label.insertIdx (position % size) (Char.ofNat code)
      last := code
      place := position % size + 1
      bias := adapt delta size (p.place == 0) }
  else none

/-- Put in all characters that the numbers say; each number has a digit, which bounds their count.
-/
def Progress.run? (p : Progress) (digits : List Char) : (bound : Nat) → Option (List Char)
  | 0 => if digits.isEmpty then some p.label else none
  | bound + 1 =>
    if digits.isEmpty then some p.label
    else do
      let (delta, rest) ← number? p.bias 36 1 0 digits
      let p ← p.insert? delta
      p.run? rest bound

/-- The label that is written. -/
def decode? (s : List Char) : Option (List Char) :=
  let (basic, digits) := match Text.cutLast '-' s with
    | some ([], _) | none => ([], s)
    | some p => p
  if basic.all fun c => c.toNat < 128 then
    Progress.run? { label := basic } digits digits.length
  else none

end DidMethods.Punycode
