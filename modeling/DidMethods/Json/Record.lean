import DidMethods.Json.Reader

/-!
# Structures in JSON

A structure of fixed members is written as an object of these members, or as a list of their values
in the order of declaration (`Json.record?`). Either way the result is its members by name. No known
member may occur twice in the object; unknown ones are of no interest. In the list only members that
have a default may be missing, and only at the end. A structure that shares its object with another
one has no list form (`Json.flatRecord?`).

What a member must be is said by the three readers of a member: it must be there (`required?`), it
may be missing or `null` (`optional?`), or it may be missing but not `null` (`defaulted?`).
-/

namespace DidMethods.Json

/-- A member of a structure: its name, and whether a list may end before it. -/
structure Slot where
  /-- The name of the member. -/
  name : String
  /-- A list of the members may end before this one. -/
  mayEnd : Bool
deriving DecidableEq, Repr

/-- A member that a list must reach. -/
def slot (name : String) : Slot := ⟨name, false⟩

/-- A member that a list need not reach. -/
def slotWithDefault (name : String) : Slot := ⟨name, true⟩

/-- Each of the names occurs at most once. -/
def uniqueNames (names : List String) (members : List Member) : Bool :=
  names.all fun n => (members.filter fun m => m.1 == n).length ≤ 1

/-- The members of an object in which none of the names occurs twice. -/
def flatRecord? (names : List String) : Json → Option (List Member)
  | .object members => if uniqueNames names members then some members else none
  | _ => none

/-- The members of a structure, from its object or its list form. -/
def record? (slots : List Slot) : Json → Option (List Member)
  | .array items =>
    if items.length ≤ slots.length ∧ (slots.drop items.length).all (·.mayEnd) then
      some ((slots.map (·.name)).zip items)
    else none
  | v => flatRecord? (slots.map (·.name)) v

/-- A member that must be there. -/
def required? {α : Type} (members : List Member) (name : String) (read : Json → Option α) :
    Option α :=
  (members.lookup name).bind read

/-- A member that may be missing or `null`. -/
def optional? {α : Type} (members : List Member) (name : String) (read : Json → Option α) :
    Option (Option α) :=
  match members.lookup name with
  | none => some none
  | some .null => some none
  | some v => (read v).map some

/-- A member that may be missing. -/
def defaulted? {α : Type} (members : List Member) (name : String) (default : α)
    (read : Json → Option α) : Option α :=
  match members.lookup name with
  | none => some default
  | some v => read v

/-- The name of one of several cases: a text, or an object whose only member has that name and the
value `null`. -/
def case? {α : Type} (ofName? : String → Option α) : Json → Option α
  | .string s => ofName? s
  | .object [(s, .null)] => ofName? s
  | _ => none

/-- The name of one of several cases in a value that is looked at twice, first for its tag: there an
empty object stands for `null`. -/
def taggedCase? {α : Type} (ofName? : String → Option α) : Json → Option α
  | .object [(s, .object [])] => ofName? s
  | v => case? ofName? v

/-- The tag of a value that is looked at twice: one of several names, or its place among them. -/
def tag? (names : List String) : Json → Option String
  | .string s => some s
  | .number (.int n) => if n < 0 then none else names[n.toNat]?
  | _ => none

end DidMethods.Json
