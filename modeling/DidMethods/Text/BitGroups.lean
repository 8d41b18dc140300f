import DidMethods.Text.Bytes

/-!
# Octets in groups of bits

The encodings whose alphabet has two to the power `k` characters all work alike: the bits of the
octets, most significant first, are cut into groups of `k`, the last one filled up with zeros
(`BitGroups.encode`). Reading puts the bits together again and cuts them into octets
(`BitGroups.decode?`). What is left over must be shorter than a group and all zero, so that the
groups are the ones that writing gives.
-/

namespace DidMethods.BitGroups

/-- The `k` lowest bits of a number, most significant first. -/
def bitsOf : (k n : Nat) → List Bool
  | 0, _ => []
  | k + 1, n => n.testBit k :: bitsOf k n

/-- The number that the bits write, most significant first. -/
def value (bits : List Bool) : Nat :=
  bits.foldl (fun n b => 2 * n + b.toNat) 0

/-- The bits in groups of `k`, the last one filled up with zeros. -/
def groups (k : Nat) (bits : List Bool) : List (List Bool) :=
  if _h : bits = [] ∨ k = 0 then []
  else
    let g := bits.take k
    (g ++ List.replicate (k - g.length) false) :: groups k (bits.drop k)
termination_by bits.length
decreasing_by
  have : bits.length ≠ 0 := fun e => _h (.inl (List.eq_nil_of_length_eq_zero e))
  simp only [List.length_drop]
  omega

/-- The octets as numbers of `k` bits each. -/
def encode (k : Nat) (b : Bytes) : List Nat :=
  (groups k (b.flatMap fun x => bitsOf 8 x.toNat)).map value

/-- The octets that numbers of `k` bits each write. The bits after the last whole octet must be
fewer than `k` and all zero. -/
def decode? (k : Nat) (digits : List Nat) : Option Bytes :=
  let bits := digits.flatMap (bitsOf k)
  let whole := bits.length / 8 * 8
  let rest := bits.drop whole
  if rest.length < k ∧ rest.all (· == false) then
    some ((groups 8 (bits.take whole)).map fun g => UInt8.ofNat (value g))
  else none

@[simp] theorem length_bitsOf (k n : Nat) : (bitsOf k n).length = k := by
  induction k with
  | zero => rfl
  | succ k ih => simp [bitsOf, ih]

@[simp] theorem groups_nil (k : Nat) : groups k [] = [] := by
  rw [groups]; simp

end DidMethods.BitGroups
