/-!
# Durations

A length of time in nanoseconds. It is shown in the largest unit that it fills, with as many decimal
places as it needs (`Duration.toText`).
-/

namespace DidMethods

/-- A length of time. -/
structure Duration where
  /-- The length in nanoseconds. -/
  nanoseconds : Nat
deriving DecidableEq, Repr

namespace Duration

instance : LE Duration where
  le a b := a.nanoseconds ≤ b.nanoseconds

instance (a b : Duration) : Decidable (a ≤ b) :=
  inferInstanceAs (Decidable (a.nanoseconds ≤ b.nanoseconds))

instance : Add Duration := ⟨fun a b => ⟨a.nanoseconds + b.nanoseconds⟩⟩

instance : Sub Duration := ⟨fun a b => ⟨a.nanoseconds - b.nanoseconds⟩⟩

/-- No time at all. -/
def zero : Duration := ⟨0⟩

/-- Some microseconds. -/
def ofMicroseconds (n : Nat) : Duration := ⟨1000 * n⟩

/-- Some seconds. -/
def ofSeconds (n : Nat) : Duration := ⟨1000000000 * n⟩

/-- What stands after the digits of the whole units, when there are some parts left over of which a
unit has ten to the power of `count`. -/
def places (count parts : Nat) : String :=
  let digits := (toString parts).toList
  let padded := List.replicate (count - digits.length) '0' ++ digits
  match (padded.reverse.dropWhile (· == '0')).reverse with
  | [] => ""
  | digits => "." ++ String.ofList digits

/-- The number of units, each of ten to the power of `count` nanoseconds. -/
def inUnits (d : Duration) (count : Nat) : String :=
  toString (d.nanoseconds / Nat.pow 10 count) ++ places count (d.nanoseconds % Nat.pow 10 count)

/-- The length in the largest unit that it fills. -/
def toText (d : Duration) : String :=
  if d.nanoseconds ≥ 1000000000 then d.inUnits 9 ++ "s"
  else if d.nanoseconds ≥ 1000000 then d.inUnits 6 ++ "ms"
  else if d.nanoseconds ≥ 1000 then d.inUnits 3 ++ "µs"
  else toString d.nanoseconds ++ "ns"

end Duration

end DidMethods
