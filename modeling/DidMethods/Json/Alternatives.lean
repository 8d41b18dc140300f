import DidMethods.Json.Record

/-!
# Values of more than one form

Two choices that JSON documents leave to the writer: a text in place of a structure (`TextOr`), and
a single value in place of a list of one (`OneOrMany`). Reading tries the simpler form first.
-/

namespace DidMethods

/-- A text, or a structured value. -/
inductive TextOr (α : Type) where
  /-- A text. -/
  | text (s : String)
  /-- A structured value. -/
  | value (a : α)
deriving Repr, DecidableEq

namespace TextOr

variable {α : Type}

/-- The text, if it is one. -/
def text? : TextOr α → Option String
  | text s => some s
  | value _ => none

/-- The structured value, if it is one. -/
def value? : TextOr α → Option α
  | text _ => none
  | value a => some a

/-- The JSON form. -/
def toJson (write : α → Json) : TextOr α → Json
  | text s => .string s
  | value a => write a

/-- Read the JSON form: a text is a text. -/
def ofJson? (read : Json → Option α) : Json → Option (TextOr α)
  | .string s => some (text s)
  | v => (read v).map value

end TextOr

/-- A single value, or a list of values. -/
inductive OneOrMany (α : Type) where
  /-- A single value. -/
  | one (a : α)
  /-- A list of values. -/
  | many (list : List α)
deriving Repr, DecidableEq

namespace OneOrMany

variable {α : Type}

/-- It is a single value. -/
def isOne : OneOrMany α → Bool
  | one _ => true
  | many _ => false

/-- The values. -/
def toList : OneOrMany α → List α
  | one a => [a]
  | many list => list

/-- The number of values. -/
def size (v : OneOrMany α) : Nat :=
  v.toList.length

/-- There are no values. -/
def isEmpty (v : OneOrMany α) : Bool :=
  v.toList.isEmpty

/-- The JSON form. -/
def toJson (write : α → Json) : OneOrMany α → Json
  | one a => write a
  | many list => .array (list.map write)

/-- Read the JSON form: what can be a single value is one. -/
def ofJson? (read : Json → Option α) (v : Json) : Option (OneOrMany α) :=
  match read v with
  | some a => some (one a)
  | none => (v.listOf? read).map many

end OneOrMany

end DidMethods
