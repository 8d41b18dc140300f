import DidMethods.Decimal.Binary64

/-!
# JSON values

A JSON value is a tree (`Json`). An object is the list of its members in the order of the text, so
a name can occur twice; `Json.lastWins` keeps the last member of each name at every depth, which is
how a value of no particular structure is meant. A number is an integer of at most sixty-four bits
or a finite double.
-/

namespace DidMethods

/-- A JSON number. -/
inductive Json.Number where
  /-- An integer that was written as one. -/
  | int (n : Int)
  /-- Any other number. -/
  | real (x : Binary64)
deriving DecidableEq, Repr

/-- A JSON value. -/
inductive Json where
  /-- The value `null`. -/
  | null
  /-- A truth value. -/
  | bool (b : Bool)
  /-- A number. -/
  | number (n : Json.Number)
  /-- A text. -/
  | string (s : String)
  /-- A list of values. -/
  | array (items : List Json)
  /-- Named values, in order. -/
  | object (members : List (String × Json))
deriving Repr

namespace Json

/-- A named member of an object. -/
abbrev Member := String × Json

instance : Inhabited Json := ⟨.null⟩

mutual

/-- Equality of values can be decided. -/
def decideEq : (v w : Json) → Decidable (v = w)
  | .null, .null => isTrue rfl
  | .bool a, .bool b =>
    if h : a = b then isTrue (h ▸ rfl) else isFalse fun e => h (Json.bool.inj e)
  | .number a, .number b =>
    if h : a = b then isTrue (h ▸ rfl) else isFalse fun e => h (Json.number.inj e)
  | .string a, .string b =>
    if h : a = b then isTrue (h ▸ rfl) else isFalse fun e => h (Json.string.inj e)
  | .array a, .array b =>
    match decideEqItems a b with
    | isTrue h => isTrue (h ▸ rfl)
    | isFalse h => isFalse fun e => h (Json.array.inj e)
  | .object a, .object b =>
    match decideEqMembers a b with
    | isTrue h => isTrue (h ▸ rfl)
    | isFalse h => isFalse fun e => h (Json.object.inj e)
  | .null, .bool _ | .null, .number _ | .null, .string _ | .null, .array _ | .null, .object _
  | .bool _, .null | .bool _, .number _ | .bool _, .string _ | .bool _, .array _
  | .bool _, .object _ | .number _, .null | .number _, .bool _ | .number _, .string _
  | .number _, .array _ | .number _, .object _ | .string _, .null | .string _, .bool _
  | .string _, .number _ | .string _, .array _ | .string _, .object _ | .array _, .null
  | .array _, .bool _ | .array _, .number _ | .array _, .string _ | .array _, .object _
  | .object _, .null | .object _, .bool _ | .object _, .number _ | .object _, .string _
  | .object _, .array _ => isFalse nofun

/-- Equality of lists of values can be decided. -/
def decideEqItems : (v w : List Json) → Decidable (v = w)
  | [], [] => isTrue rfl
  | a :: v, b :: w =>
    match decideEq a b, decideEqItems v w with
    | isTrue h, isTrue k => isTrue (h ▸ k ▸ rfl)
    | isFalse h, _ => isFalse fun e => h (List.cons.inj e).1
    | _, isFalse k => isFalse fun e => k (List.cons.inj e).2
  | [], _ :: _ | _ :: _, [] => isFalse nofun

/-- Equality of lists of members can be decided. -/
def decideEqMembers : (v w : List Member) → Decidable (v = w)
  | [], [] => isTrue rfl
  | (j, a) :: v, (k, b) :: w =>
    if hn : j = k then
      match decideEq a b, decideEqMembers v w with
      | isTrue h, isTrue k => isTrue (hn ▸ h ▸ k ▸ rfl)
      | isFalse h, _ => isFalse fun e => h (Prod.mk.inj (List.cons.inj e).1).2
      | _, isFalse k => isFalse fun e => k (List.cons.inj e).2
    else isFalse fun e => hn (Prod.mk.inj (List.cons.inj e).1).1
  | [], _ :: _ | _ :: _, [] => isFalse nofun

end

instance : DecidableEq Json := decideEq

/-- Keep the last member of each name. -/
def lastOfName : List Member → List Member
  | [] => []
  | m :: rest => if rest.any fun n => n.1 == m.1 then lastOfName rest else m :: lastOfName rest

mutual

/-- Keep the last member of each name, at every depth. -/
def lastWins : Json → Json
  | .array items => .array (lastWinsItems items)
  | .object members => .object (lastOfName (lastWinsMembers members))
  | v => v

/-- `Json.lastWins` on every item. -/
def lastWinsItems : List Json → List Json
  | [] => []
  | v :: rest => v.lastWins :: lastWinsItems rest

/-- `Json.lastWins` on the value of every member. -/
def lastWinsMembers : List Member → List Member
  | [] => []
  | (k, v) :: rest => (k, v.lastWins) :: lastWinsMembers rest

end

mutual

/-- Some number occurs in the value. -/
def hasNumber : Json → Bool
  | .number _ => true
  | .array items => hasNumberItems items
  | .object members => hasNumberMembers members
  | _ => false

/-- Some number occurs in the items. -/
def hasNumberItems : List Json → Bool
  | [] => false
  | v :: rest => v.hasNumber || hasNumberItems rest

/-- Some number occurs in the values of the members. -/
def hasNumberMembers : List Member → Bool
  | [] => false
  | (_, v) :: rest => v.hasNumber || hasNumberMembers rest

end

/-- An integer. -/
def ofInt (n : Int) : Json :=
  .number (.int n)

/-- An integer. -/
def ofNat (n : Nat) : Json :=
  ofInt (Int.ofNat n)

/-- A list of texts. -/
def strings (items : List String) : Json :=
  .array (items.map .string)

/-- The text of an option, or `null`. -/
def ofString? : Option String → Json
  | some s => .string s
  | none => .null

/-- An object without the members that have no value. -/
def compact (members : List (String × Option Json)) : Json :=
  .object (members.filterMap fun m => m.2.map fun v => (m.1, v))

/-- The value of the first member of a name; nothing else has members. -/
def get? (v : Json) (name : String) : Option Json :=
  match v with
  | .object members => members.lookup name
  | _ => none

/-- The text, if the value is one. -/
def string? : Json → Option String
  | .string s => some s
  | _ => none

/-- The truth value, if the value is one. -/
def bool? : Json → Option Bool
  | .bool b => some b
  | _ => none

/-- The items, if the value is a list. -/
def items? : Json → Option (List Json)
  | .array items => some items
  | _ => none

/-- The members, if the value is an object. -/
def members? : Json → Option (List Member)
  | .object members => some members
  | _ => none

/-- A list of values that all have one form. -/
def listOf? {α : Type} (item : Json → Option α) (v : Json) : Option (List α) :=
  v.items?.bind fun items => items.mapM item

end Json

end DidMethods
