import DidMethods.Fault
import DidMethods.Json.Token

/-!
# Reading JSON text

Reading is a machine over the tokens of a text; the containers that are open are its stack
(`Reader.Frame`). A reader that wants a structure of fixed members never looks at what stands under
any other name, so what may stand there is less restricted. `Json.Shape` says what is looked at.
Where the shape is `nothing`, a token without a value is stepped over and containers nest without
limit; everywhere else a token without a value ends the reading, and so does a container inside too
many others. The same machine reads a text (`ofText?`) and octets that are handed in as one
(`ofBytes?`).
-/

namespace DidMethods.Json

/-- The part of a value that a reader looks at. -/
inductive Shape where
  /-- All of it. -/
  | whole
  /-- Nothing of it. -/
  | nothing
  /-- A list, of each of whose items this much is looked at. -/
  | list (item : Shape)
  /-- A structure: an object of these members, or a list of their values in this order. -/
  | record (members : List (String × Shape))

/-- What is looked at of the item of a list. -/
def Shape.item : Shape → Nat → Shape
  | whole, _ => whole
  | nothing, _ => nothing
  | list item, _ => item
  | record members, i => match members[i]? with
    | some m => m.2
    | none => whole

/-- What is looked at of the member of an object. -/
def Shape.member : Shape → String → Shape
  | whole, _ => whole
  | list _, _ => whole
  | nothing, _ => nothing
  | record members, name => (members.lookup name).getD nothing

/-- Nothing is looked at. -/
def Shape.isNothing : Shape → Bool
  | nothing => true
  | _ => false

/-- How deep containers may nest where they are looked at. -/
def maxDepth : Nat := 127

namespace Reader

/-- A container that is open. Items and members are held last first. -/
inductive Frame where
  /-- A list. -/
  | array (shape : Shape) (done : List Json)
  /-- An object, with the name of the member whose value comes next. -/
  | object (shape : Shape) (done : List Member) (key : String)

/-- What may come next. -/
inductive State where
  /-- A value. -/
  | value (stack : List Frame)
  /-- The first item of the list on top, or its end. -/
  | firstItem (stack : List Frame)
  /-- The name of the first member of an object, or its end. -/
  | firstKey (shape : Shape) (stack : List Frame)
  /-- The name of a further member. -/
  | key (shape : Shape) (done : List Member) (stack : List Frame)
  /-- The colon after a name, the object being on top. -/
  | colon (stack : List Frame)
  /-- A comma or the end of the container on top, a value having been read. -/
  | more (stack : List Frame)
  /-- Nothing: the value is complete. -/
  | done (v : Json)

/-- What is looked at of the value that comes next. -/
def shapeHere (root : Shape) : List Frame → Shape
  | [] => root
  | .array shape done :: _ => shape.item done.length
  | .object shape _ key :: _ => shape.member key

/-- A value has been read: it goes into the container on top. -/
def give (v : Json) : List Frame → State
  | [] => .done v
  | .array shape done :: stack => .more (.array shape (v :: done) :: stack)
  | .object shape done key :: stack => .more (.object shape ((key, v) :: done) key :: stack)

/-- A value or a name that must be there unless nothing is looked at. -/
def unlessNothing {α : Type} (shape : Shape) (instead : α) : Option α → Option α
  | some a => some a
  | none => if shape.isNothing then some instead else none

/-- Take the first token of a value. -/
def begin (limit : Nat) (root : Shape) (stack : List Frame) : Token → Option State
  | .scalar v => (unlessNothing (shapeHere root stack) .null v).map fun v => give v stack
  | .text s =>
    (unlessNothing (shapeHere root stack) "" s).map fun s => give (.string s) stack
  | .openArray =>
    let shape := shapeHere root stack
    if shape.isNothing ∨ stack.length < limit then some (.firstItem (.array shape [] :: stack))
    else none
  | .openObject =>
    let shape := shapeHere root stack
    if shape.isNothing ∨ stack.length < limit then some (.firstKey shape stack) else none
  | _ => none

/-- Take the name of a member. -/
def beginMember (shape : Shape) (done : List Member) (stack : List Frame) : Token → Option State
  | .text s => (unlessNothing shape "" s).map fun k => .colon (.object shape done k :: stack)
  | _ => none

/-- Take a token. -/
def step (limit : Nat) (root : Shape) : State → Token → Option State
  | .value stack, t => begin limit root stack t
  | .firstItem (.array _ done :: stack), .closeArray => some (give (.array done.reverse) stack)
  | .firstItem stack, t => begin limit root stack t
  | .firstKey _ stack, .closeObject => some (give (.object []) stack)
  | .firstKey shape stack, t => beginMember shape [] stack t
  | .key shape done stack, t => beginMember shape done stack t
  | .colon stack, .colon => some (.value stack)
  | .more (.array shape done :: stack), .comma => some (.value (.array shape done :: stack))
  | .more (.array _ done :: stack), .closeArray => some (give (.array done.reverse) stack)
  | .more (.object shape done _ :: stack), .comma => some (.key shape done stack)
  | .more (.object _ done _ :: stack), .closeObject => some (give (.object done.reverse) stack)
  | _, _ => none

/-- Take all tokens. -/
def run (limit : Nat) (root : Shape) : State → List Token → Option Json
  | .done v, [] => some v
  | _, [] => none
  | state, t :: rest => do
    let next ← step limit root state t
    run limit root next rest

end Reader

/-- The value that a text writes, looked at as far as the shape says, with a limit on nesting. -/
def ofText? (s : String) (shape : Shape) (limit : Nat) : Option Json := do
  let tokens ← tokens? s
  Reader.run limit shape (.value []) tokens

/-- The value that octets write, looked at as far as the shape says, with a limit on nesting. They
need not be the octets of a text as a whole: what is not looked at may be written with any. -/
def ofBytes? (b : Bytes) (shape : Shape) (limit : Nat) : Option Json := do
  let tokens ← octetTokens? b
  Reader.run limit shape (.value []) tokens

/-- The value that a text writes; of members of one name the last counts. -/
def parse? (s : String) : Option Json :=
  (ofText? s .whole maxDepth).map lastWins

/-- The value that a text writes, or the failure that it writes none. -/
def parse (s : String) : Outcome Json :=
  match parse? s with
  | some v => .ok v
  | none => .error .unclassified

end DidMethods.Json
