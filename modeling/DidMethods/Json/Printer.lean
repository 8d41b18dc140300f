import DidMethods.Json.Basic
import DidMethods.Decimal.Notation
import DidMethods.Text.Hex
import DidMethods.Text.Utf16

/-!
# Written JSON

A value is written without any blanks. What is left open is how a number looks and which characters
are escaped beyond the ones that must be (`Json.Style`). Two styles are used: the plain one, and the
canonical one that hashes are taken of, in which a number is written as a double is in ECMAScript.
-/

namespace DidMethods.Json

/-- What is open in the written form of a value. -/
structure Style where
  /-- The characters of a number. -/
  number : Number → List Char
  /-- Characters outside ASCII are escaped. -/
  ascii : Bool

/-- The escape of one UTF-16 code unit. -/
def unitEscape (n : Nat) : List Char :=
  '\\' :: 'u' :: [n / 4096 % 16, n / 256 % 16, n / 16 % 16, n % 16].map Hex.digit

/-- A character inside a text. -/
def writeChar (ascii : Bool) (c : Char) : List Char :=
  if c = '"' then ['\\', '"']
  else if c = '\\' then ['\\', '\\']
  else if c = '\n' then ['\\', 'n']
  else if c = '\r' then ['\\', 'r']
  else if c = '\t' then ['\\', 't']
  else if c = '\x08' then ['\\', 'b']
  else if c = '\x0c' then ['\\', 'f']
  else if c.toNat < 0x20 then unitEscape c.toNat
  else if ascii && 0x7F < c.toNat then (Utf16.unitsOfChar c).flatMap unitEscape
  else [c]

/-- A text in quotes. -/
def writeString (ascii : Bool) (s : String) : List Char :=
  '"' :: s.toList.flatMap (writeChar ascii) ++ ['"']

mutual

/-- The characters of a value. -/
def write (style : Style) : Json → List Char
  | .null => "null".toList
  | .bool true => "true".toList
  | .bool false => "false".toList
  | .number n => style.number n
  | .string s => writeString style.ascii s
  | .array [] => ['[', ']']
  | .array (v :: rest) => '[' :: v.write style ++ writeItems style rest
  | .object [] => ['{', '}']
  | .object ((k, v) :: rest) =>
    '{' :: writeString style.ascii k ++ ':' :: v.write style ++ writeMembers style rest

/-- The further items of a list, and its end. -/
def writeItems (style : Style) : List Json → List Char
  | [] => [']']
  | v :: rest => ',' :: v.write style ++ writeItems style rest

/-- The further members of an object, and its end. -/
def writeMembers (style : Style) : List Member → List Char
  | [] => ['}']
  | (k, v) :: rest =>
    ',' :: writeString style.ascii k ++ ':' :: v.write style ++ writeMembers style rest

end

/-- A double whose integral values end in `.0` and whose exponents have no plus sign. -/
def plainReal : Decimal.Layout where
  plainFrom := -5
  plainBelow := 16
  pointZero := true
  exponentPlus := false
  signedZero := true

/-- A double as ECMAScript writes it. -/
def ecmaReal : Decimal.Layout where
  plainFrom := -6
  plainBelow := 21
  pointZero := false
  exponentPlus := true
  signedZero := false

/-- The characters of an integer. -/
def writeInt (n : Int) : List Char :=
  (if n < 0 then ['-'] else []) ++ Nat.toDigits 10 n.natAbs

/-- A number as it is: an integer in full, a double in the plain layout. -/
def plainNumber : Number → List Char
  | .int n => writeInt n
  | .real x => Decimal.write plainReal x

/-- A number as the nearest double, in the layout of ECMAScript. -/
def ecmaNumber : Number → List Char
  | .int n =>
    match Binary64.ofInt? n with
    | some x => Decimal.write ecmaReal x
    | none => writeInt n
  | .real x => Decimal.write ecmaReal x

/-- The plain style. -/
def plain : Style := ⟨plainNumber, false⟩

/-- The plain style in ASCII. -/
def plainAscii : Style := ⟨plainNumber, true⟩

/-- The style of canonical JSON. -/
def ecma : Style := ⟨ecmaNumber, false⟩

/-- The text of a value in the plain style. -/
def print (v : Json) : String :=
  String.ofList (v.write plain)

/-- The text of a value in the plain style, in ASCII. -/
def printAscii (v : Json) : String :=
  String.ofList (v.write plainAscii)

end DidMethods.Json
