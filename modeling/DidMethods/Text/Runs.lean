import DidMethods.Text.Split

/-!
# Tables of characters

A table says in which runs of characters outside of ASCII a property holds. It is written as
decimal numbers with blanks between them: for each run the gap before it and its length. The first
gap begins at the first character after ASCII.
-/

namespace DidMethods.Text.Runs

/-- The words of a table. -/
def words (table : List String) : List (List Char) :=
  table.flatMap fun line => Text.splitAll ' ' line.toList

/-- The number that decimal digits write. -/
def number (digits : List Char) : Nat :=
  digits.foldl (fun n c => 10 * n + (c.toNat - 48)) 0

/-- The first character of each run and its length, the runs being `stride` characters wide for each
that counts. -/
def runs (stride : Nat) (start : Nat) : List (List Char) → List (Nat × Nat)
  | gap :: size :: rest =>
    let first := start + number gap
    let size := number size
    (first, size) :: runs stride (first + stride * (size - 1) + 1) rest
  | _ => []

/-- The first character and the length of each run, and the number that goes with it. -/
def valued (start : Nat) : List (List Char) → List (Nat × Nat × Nat)
  | gap :: size :: value :: rest =>
    let first := start + number gap
    let size := number size
    (first, size, number value) :: valued (first + size) rest
  | _ => []

/-- The runs of a table of adjacent characters. -/
def ranges (table : List String) : List (Nat × Nat) :=
  runs 1 128 (words table)

/-- A character is in one of some runs of adjacent characters. -/
def isIn (runs : List (Nat × Nat)) (c : Char) : Bool :=
  runs.any fun r => r.1 ≤ c.toNat && c.toNat < r.1 + r.2

end DidMethods.Text.Runs
