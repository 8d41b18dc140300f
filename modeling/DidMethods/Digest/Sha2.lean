import DidMethods.Text.Bytes

/-!
# The SHA-2 family

SHA-256 and SHA-512 are one construction at two word sizes: pad the message to whole blocks of
sixteen words, and let each block stir a state of eight words. `Sha2.Variant` holds what the two
differ in, the word operations, the numbers of rounds and the constants; `Sha2.digest` is the
construction. The length of a digest is fixed by the variant (`length_sha256`, `length_sha512`).
-/

namespace DidMethods

namespace Sha2

/-- The state: eight words. -/
structure State (W : Type) where
  /-- First word. -/
  a : W
  /-- Second word. -/
  b : W
  /-- Third word. -/
  c : W
  /-- Fourth word. -/
  d : W
  /-- Fifth word. -/
  e : W
  /-- Sixth word. -/
  f : W
  /-- Seventh word. -/
  g : W
  /-- Eighth word. -/
  h : W

/-- What the members of the family differ in. -/
structure Variant (W : Type) where
  /-- Octets of a word. -/
  wordLength : Nat
  /-- The word of a number, modulo the word size. -/
  ofNat : Nat → W
  /-- The number of a word. -/
  toNat : W → Nat
  /-- Rotate to the right. -/
  rotate : W → Nat → W
  /-- Shift to the right. -/
  shift : W → Nat → W
  /-- The rotations of the first sum of a round. -/
  sumA : Nat × Nat × Nat
  /-- The rotations of the second sum of a round. -/
  sumE : Nat × Nat × Nat
  /-- Two rotations and a shift for the word fifteen places back. -/
  mixOld : Nat × Nat × Nat
  /-- Two rotations and a shift for the word two places back. -/
  mixNew : Nat × Nat × Nat
  /-- The constant of each round. -/
  constants : List W
  /-- The state at the start. -/
  initial : State W

variable {W : Type} [Add W] [AndOp W] [XorOp W] [Complement W]

/-- Three rotations of a word, combined. -/
def rotations (v : Variant W) (r : Nat × Nat × Nat) (x : W) : W :=
  v.rotate x r.1 ^^^ v.rotate x r.2.1 ^^^ v.rotate x r.2.2

/-- Two rotations and a shift of a word, combined. -/
def mix (v : Variant W) (r : Nat × Nat × Nat) (x : W) : W :=
  v.rotate x r.1 ^^^ v.rotate x r.2.1 ^^^ v.shift x r.2.2

/-- Put `more` further words in front of the words so far, the latest of which comes first. -/
def schedule (v : Variant W) : (more : Nat) → List W → List W
  | 0, words => words
  | more + 1, words =>
    let back (i : Nat) : W := words.getD (i - 1) (v.ofNat 0)
    schedule v more
      ((mix v v.mixNew (back 2) + back 7 + mix v v.mixOld (back 15) + back 16) :: words)

/-- One round, with its constant and its word. -/
def round (v : Variant W) (s : State W) (k w : W) : State W :=
  let choice := (s.e &&& s.f) ^^^ (~~~s.e &&& s.g)
  let majority := (s.a &&& s.b) ^^^ (s.a &&& s.c) ^^^ (s.b &&& s.c)
  let t := s.h + rotations v v.sumE s.e + choice + k + w
  let u := rotations v v.sumA s.a + majority
  ⟨t + u, s.a, s.b, s.c, s.d + t, s.e, s.f, s.g⟩

/-- The words of `count` times `wordLength` octets. -/
def words (v : Variant W) : (count : Nat) → Bytes → List W
  | 0, _ => []
  | count + 1, bytes =>
    v.ofNat (Bytes.toNat (bytes.take v.wordLength)) :: words v count (bytes.drop v.wordLength)

/-- Stir one block into the state. -/
def block (v : Variant W) (s : State W) (bytes : Bytes) : State W :=
  let first := (words v 16 bytes).reverse
  let all := (schedule v (v.constants.length - 16) first).reverse
  let t := (v.constants.zip all).foldl (fun t kw => round v t kw.1 kw.2) s
  ⟨s.a + t.a, s.b + t.b, s.c + t.c, s.d + t.d, s.e + t.e, s.f + t.f, s.g + t.g, s.h + t.h⟩

/-- Stir `count` blocks into the state. -/
def blocks (v : Variant W) : (count : Nat) → State W → Bytes → State W
  | 0, s, _ => s
  | count + 1, s, bytes =>
    blocks v count (block v s (bytes.take (16 * v.wordLength))) (bytes.drop (16 * v.wordLength))

/-- The message, a one bit, zeros, and the length in bits, together in whole blocks. -/
def pad (v : Variant W) (message : Bytes) : Bytes :=
  let blockLength := 16 * v.wordLength
  let tail := 2 * v.wordLength
  let used := (message.length + 1 + tail) % blockLength
  let fill := (blockLength - used) % blockLength
  message ++ 0x80 :: List.replicate fill 0 ++ Bytes.ofNat tail (8 * message.length)

/-- The digest of a message. -/
def digest (v : Variant W) (message : Bytes) : Bytes :=
  let padded := pad v message
  let s := blocks v (padded.length / (16 * v.wordLength)) v.initial padded
  [s.a, s.b, s.c, s.d, s.e, s.f, s.g, s.h].flatMap fun w => Bytes.ofNat v.wordLength (v.toNat w)

theorem length_digest (v : Variant W) (message : Bytes) :
    (digest v message).length = 8 * v.wordLength := by
  simp [digest]
  omega

/-- The variant with words of thirty-two bits. -/
def narrow : Variant UInt32 where
  wordLength := 4
  ofNat := UInt32.ofNat
  toNat := UInt32.toNat
  rotate x n := (x >>> UInt32.ofNat n) ||| (x <<< UInt32.ofNat (32 - n))
  shift x n := x >>> UInt32.ofNat n
  sumA := (2, 13, 22)
  sumE := (6, 11, 25)
  mixOld := (7, 18, 3)
  mixNew := (17, 19, 10)
  constants := [
    0x428a2f98, 0x71374491, 0xb5c0fbcf, 0xe9b5dba5, 0x3956c25b, 0x59f111f1,
    0x923f82a4, 0xab1c5ed5, 0xd807aa98, 0x12835b01, 0x243185be, 0x550c7dc3,
    0x72be5d74, 0x80deb1fe, 0x9bdc06a7, 0xc19bf174, 0xe49b69c1, 0xefbe4786,
    0x0fc19dc6, 0x240ca1cc, 0x2de92c6f, 0x4a7484aa, 0x5cb0a9dc, 0x76f988da,
    0x983e5152, 0xa831c66d, 0xb00327c8, 0xbf597fc7, 0xc6e00bf3, 0xd5a79147,
    0x06ca6351, 0x14292967, 0x27b70a85, 0x2e1b2138, 0x4d2c6dfc, 0x53380d13,
    0x650a7354, 0x766a0abb, 0x81c2c92e, 0x92722c85, 0xa2bfe8a1, 0xa81a664b,
    0xc24b8b70, 0xc76c51a3, 0xd192e819, 0xd6990624, 0xf40e3585, 0x106aa070,
    0x19a4c116, 0x1e376c08, 0x2748774c, 0x34b0bcb5, 0x391c0cb3, 0x4ed8aa4a,
    0x5b9cca4f, 0x682e6ff3, 0x748f82ee, 0x78a5636f, 0x84c87814, 0x8cc70208,
    0x90befffa, 0xa4506ceb, 0xbef9a3f7, 0xc67178f2]
  initial := ⟨
    0x6a09e667, 0xbb67ae85, 0x3c6ef372, 0xa54ff53a,
    0x510e527f, 0x9b05688c, 0x1f83d9ab, 0x5be0cd19⟩

/-- The variant with words of sixty-four bits. -/
def wide : Variant UInt64 where
  wordLength := 8
  ofNat := UInt64.ofNat
  toNat := UInt64.toNat
  rotate x n := (x >>> UInt64.ofNat n) ||| (x <<< UInt64.ofNat (64 - n))
  shift x n := x >>> UInt64.ofNat n
  sumA := (28, 34, 39)
  sumE := (14, 18, 41)
  mixOld := (1, 8, 7)
  mixNew := (19, 61, 6)
  constants := [
    0x428a2f98d728ae22, 0x7137449123ef65cd, 0xb5c0fbcfec4d3b2f, 0xe9b5dba58189dbbc,
    0x3956c25bf348b538, 0x59f111f1b605d019, 0x923f82a4af194f9b, 0xab1c5ed5da6d8118,
    0xd807aa98a3030242, 0x12835b0145706fbe, 0x243185be4ee4b28c, 0x550c7dc3d5ffb4e2,
    0x72be5d74f27b896f, 0x80deb1fe3b1696b1, 0x9bdc06a725c71235, 0xc19bf174cf692694,
    0xe49b69c19ef14ad2, 0xefbe4786384f25e3, 0x0fc19dc68b8cd5b5, 0x240ca1cc77ac9c65,
    0x2de92c6f592b0275, 0x4a7484aa6ea6e483, 0x5cb0a9dcbd41fbd4, 0x76f988da831153b5,
    0x983e5152ee66dfab, 0xa831c66d2db43210, 0xb00327c898fb213f, 0xbf597fc7beef0ee4,
    0xc6e00bf33da88fc2, 0xd5a79147930aa725, 0x06ca6351e003826f, 0x142929670a0e6e70,
    0x27b70a8546d22ffc, 0x2e1b21385c26c926, 0x4d2c6dfc5ac42aed, 0x53380d139d95b3df,
    0x650a73548baf63de, 0x766a0abb3c77b2a8, 0x81c2c92e47edaee6, 0x92722c851482353b,
    0xa2bfe8a14cf10364, 0xa81a664bbc423001, 0xc24b8b70d0f89791, 0xc76c51a30654be30,
    0xd192e819d6ef5218, 0xd69906245565a910, 0xf40e35855771202a, 0x106aa07032bbd1b8,
    0x19a4c116b8d2d0c8, 0x1e376c085141ab53, 0x2748774cdf8eeb99, 0x34b0bcb5e19b48a8,
    0x391c0cb3c5c95a63, 0x4ed8aa4ae3418acb, 0x5b9cca4f7763e373, 0x682e6ff3d6b2b8a3,
    0x748f82ee5defb2fc, 0x78a5636f43172f60, 0x84c87814a1f0ab72, 0x8cc702081a6439ec,
    0x90befffa23631e28, 0xa4506cebde82bde9, 0xbef9a3f7b2c67915, 0xc67178f2e372532b,
    0xca273eceea26619c, 0xd186b8c721c0c207, 0xeada7dd6cde0eb1e, 0xf57d4f7fee6ed178,
    0x06f067aa72176fba, 0x0a637dc5a2c898a6, 0x113f9804bef90dae, 0x1b710b35131c471b,
    0x28db77f523047d84, 0x32caab7b40c72493, 0x3c9ebe0a15c9bebc, 0x431d67c49c100d4c,
    0x4cc5d4becb3e42b6, 0x597f299cfc657e2a, 0x5fcb6fab3ad6faec, 0x6c44198c4a475817]
  initial := ⟨
    0x6a09e667f3bcc908, 0xbb67ae8584caa73b, 0x3c6ef372fe94f82b, 0xa54ff53a5f1d36f1,
    0x510e527fade682d1, 0x9b05688c2b3e6c1f, 0x1f83d9abfb41bd6b, 0x5be0cd19137e2179⟩

end Sha2

/-- The SHA-256 digest of a message. -/
def sha256 (message : Bytes) : Bytes :=
  Sha2.digest Sha2.narrow message

/-- The SHA-512 digest of a message. -/
def sha512 (message : Bytes) : Bytes :=
  Sha2.digest Sha2.wide message

@[simp] theorem length_sha256 (message : Bytes) : (sha256 message).length = 32 :=
  Sha2.length_digest _ _

@[simp] theorem length_sha512 (message : Bytes) : (sha512 message).length = 64 :=
  Sha2.length_digest _ _

end DidMethods
