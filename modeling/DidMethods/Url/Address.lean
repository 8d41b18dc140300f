import DidMethods.Text.Hex
import DidMethods.Text.Split

/-!
# Internet addresses

The two kinds of addresses that may stand for a host. An address of four octets is one to four
numbers between dots, each in base ten, eight or sixteen; the last number fills all the octets that
the others leave (`Address.ofDotted?`). An address of eight groups is written in hexadecimal between
colons, where two colons stand for zeros left out and the last two groups may be four octets in
decimal (`Address.ofGroups?`).
-/

namespace DidMethods.Address

/-- The number that digits of a base write, zero for no digits. -/
def ofDigits? (base : Nat) (s : List Char) : Option Nat :=
  s.foldlM (fun n c =>
    match Hex.value? c with
    | some d => if d < base then some (n * base + d) else none
    | none => none) 0

/-! ### Four octets -/

/-- A number of an address: from `0x` in base sixteen, from `0` in base eight, else in base ten. -/
def number? : List Char → Option Nat
  | [] => none
  | ['0'] => some 0
  | '0' :: 'x' :: digits => ofDigits? 16 digits
  | '0' :: 'X' :: digits => ofDigits? 16 digits
  | '0' :: digits => ofDigits? 8 digits
  | digits => ofDigits? 10 digits

/-- The pieces between dots, without the empty one after a dot at the end. -/
def dotted (s : List Char) : List (List Char) :=
  let pieces := Text.splitAll '.' s
  if pieces.length > 1 ∧ pieces.getLast? = some [] then pieces.dropLast else pieces

/-- The last piece is a number or looks like one, so that the whole can only be an address. -/
def endsInNumber (s : List Char) : Bool :=
  match (dotted s).getLast? with
  | some last => (!last.isEmpty && last.all Char.isDigit) || (number? last).isSome
  | none => false

/-- The address of some numbers: each but the last is one octet. -/
def ofNumbers? (numbers : List Nat) : Option Nat :=
  let octets := numbers.dropLast
  match numbers.getLast? with
  | none => none
  | some last =>
    if numbers.length ≤ 4 ∧ octets.all (· < 256) ∧ last < Nat.pow 256 (4 - octets.length) then
      some (octets.foldl (fun n x => n * 256 + x) 0 * Nat.pow 256 (4 - octets.length) + last)
    else none

/-- The address that numbers between dots write. -/
def ofDotted? (s : List Char) : Option Nat := do
  let numbers ← (dotted s).mapM number?
  ofNumbers? numbers

/-! ### Eight groups -/

/-- An octet in base ten without leading zeros. -/
def octet? (s : List Char) : Option Nat :=
  if s.isEmpty || s.length > 3 || (s.length > 1 && s.head? == some '0') then none
  else (ofDigits? 10 s).filter (· < 256)

/-- The two groups that four octets make. -/
def quad? (s : List Char) : Option (List Nat) := do
  match ← (Text.splitAll '.' s).mapM octet? with
  | [a, b, c, d] => some [a * 256 + b, c * 256 + d]
  | _ => none

/-- A group of one to four hexadecimal digits. -/
def group? (s : List Char) : Option Nat :=
  if s.isEmpty || s.length > 4 then none else ofDigits? 16 s

/-- The groups that pieces between colons write; the last piece may be four octets. -/
def groups? : List (List Char) → Option (List Nat)
  | [] => some []
  | [last] => if last.contains '.' then quad? last else (group? last).map ([·])
  | piece :: rest => do
    let g ← group? piece
    let gs ← groups? rest
    return g :: gs

/-- The groups of a text without two colons in a row; there are none in the empty text. -/
def run? (s : List Char) : Option (List Nat) :=
  if s.isEmpty then some [] else groups? (Text.splitAll ':' s)

/-- What stands before and after the first two colons in a row. -/
def cutGap : List Char → Option (List Char × List Char)
  | ':' :: ':' :: rest => some ([], rest)
  | c :: rest => (cutGap rest).map fun p => (c :: p.1, p.2)
  | [] => none

/-- The eight groups of an address. -/
def ofGroups? (s : List Char) : Option (List Nat) :=
  match cutGap s with
  | none => (run? s).filter (·.length == 8)
  | some (front, back) => do
    if front.contains '.' then none
    let front ← run? front
    let back ← run? back
    let missing := 8 - (front.length + back.length)
    if missing = 0 then none
    return front ++ List.replicate missing 0 ++ back

end DidMethods.Address
