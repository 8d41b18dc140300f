/-!
# UTF-16 code units

The order of member names in canonical JSON is the order of their UTF-16 code units, which differs
from the order of characters above the basic plane. Escapes in JSON text are code units as well.
-/

namespace DidMethods.Utf16

/-- The code units of a character: itself, or a high and a low surrogate. -/
def unitsOfChar (c : Char) : List Nat :=
  let n := c.toNat
  if n < 0x10000 then [n]
  else [0xD800 + (n - 0x10000) / 0x400, 0xDC00 + (n - 0x10000) % 0x400]

/-- The code units of a text. -/
def units (s : String) : List Nat :=
  s.toList.flatMap unitsOfChar

/-- A code unit that only makes sense before a low surrogate. -/
def isHigh (n : Nat) : Bool :=
  0xD800 ≤ n && n < 0xDC00

/-- A code unit that only makes sense after a high surrogate. -/
def isLow (n : Nat) : Bool :=
  0xDC00 ≤ n && n < 0xE000

/-- The character of a high and a low surrogate. -/
def pair (high low : Nat) : Char :=
  Char.ofNat (0x10000 + (high - 0xD800) * 0x400 + (low - 0xDC00))

/-- Compare two lists of code units, a shorter one first where it begins the other. -/
def listLe : List Nat → List Nat → Bool
  | [], _ => true
  | _ :: _, [] => false
  | a :: s, b :: t => a < b || (a == b && listLe s t)

/-- Compare two texts by their code units. -/
def le (s t : String) : Bool :=
  listLe (units s) (units t)

theorem listLe_total (s t : List Nat) : listLe s t = true ∨ listLe t s = true := by
  induction s generalizing t with
  | nil => simp [listLe]
  | cons a s ih =>
    cases t with
    | nil => simp [listLe]
    | cons b t =>
      rcases Nat.lt_trichotomy a b with h | h | h
      · simp [listLe, h]
      · subst h; simpa [listLe] using ih t
      · simp [listLe, h]

theorem listLe_trans {s t u : List Nat} (h₁ : listLe s t = true) (h₂ : listLe t u = true) :
    listLe s u = true := by
  induction s generalizing t u with
  | nil => simp [listLe]
  | cons a s ih =>
    cases t with
    | nil => simp [listLe] at h₁
    | cons b t =>
      cases u with
      | nil => simp [listLe] at h₂
      | cons c u =>
        simp only [listLe, Bool.or_eq_true, decide_eq_true_eq, Bool.and_eq_true,
          beq_iff_eq] at h₁ h₂ ⊢
        rcases h₁ with h₁ | ⟨rfl, h₁⟩ <;> rcases h₂ with h₂ | ⟨rfl, h₂⟩
        · exact .inl (by omega)
        · exact .inl h₁
        · exact .inl h₂
        · exact .inr ⟨rfl, ih h₁ h₂⟩

end DidMethods.Utf16
