import DidMethods.Json.Basic
import DidMethods.Text.Hex
import DidMethods.Text.Utf16
import DidMethods.Text.Utf8

/-!
# Tokens of JSON text

Reading text into tokens is a machine that takes one character at a time (`Lexer.step`), so that
the whole of it is one recursion on the text (`Lexer.run`). It may also be given octets that should
be the octets of a text (`octetTokens?`), and then takes the characters that are written in them;
an octet that belongs to none is let in where a text in quotes is being read, and nowhere else.

Some tokens are well delimited and yet denote no value: a number too large for a double, a text
with a surrogate that has no partner, and a text with such an octet in it. They are tokens without a
value, so that a reader which does not look at them can step over them.
-/

namespace DidMethods.Json

/-- A token. -/
inductive Token where
  /-- An opening bracket. -/
  | openArray
  /-- A closing bracket. -/
  | closeArray
  /-- An opening brace. -/
  | openObject
  /-- A closing brace. -/
  | closeObject
  /-- A colon. -/
  | colon
  /-- A comma. -/
  | comma
  /-- A literal name or a number, with its value if it has one. -/
  | scalar (v : Option Json)
  /-- A text in quotes, with its value if it has one. -/
  | text (s : Option String)

/-- A blank between tokens. -/
def isBlank (c : Char) : Bool :=
  c == ' ' || c == '\t' || c == '\n' || c == '\r'

/-! ### Numbers -/

/-- A decimal digit. -/
def isDecimal (c : Char) : Bool :=
  '0' ≤ c && c ≤ '9'

/-- A character that can occur in a number. -/
def inNumber (c : Char) : Bool :=
  isDecimal c || c == '-' || c == '+' || c == '.' || c == 'e' || c == 'E'

/-- The number that decimal digits write. -/
def decimalValue (digits : List Char) : Nat :=
  digits.foldl (fun n c => 10 * n + (c.toNat - 48)) 0

/-- Digits, and what follows them. -/
def spanDigits (s : List Char) : List Char × List Char :=
  (s.takeWhile isDecimal, s.dropWhile isDecimal)

/-- The digits after a point; `none` where a point has no digits. -/
def fraction? : List Char → Option (List Char × List Char)
  | '.' :: s =>
    let (digits, rest) := spanDigits s
    if digits.isEmpty then none else some (digits, rest)
  | s => some ([], s)

/-- The exponent that makes up the rest of a number; the inner option is empty where there is no
exponent, the outer one where the rest is nothing of the kind. -/
def exponent? : List Char → Option (Option Int)
  | [] => some none
  | c :: s =>
    if c = 'e' ∨ c = 'E' then
      let (negative, digits) := match s with
        | '-' :: t => (true, t)
        | '+' :: t => (false, t)
        | t => (false, t)
      if digits.isEmpty ∨ ¬ digits.all isDecimal then none
      else
        let n : Int := decimalValue digits
        some (some (if negative then -n else n))
    else none

/-- The range in which a number written as an integer stays one. -/
def inWordRange (n : Int) : Bool :=
  -Int.ofNat (Nat.pow 2 63) ≤ n && n < Int.ofNat (Nat.pow 2 64)

/-- The number that characters write. The outer option is empty where they follow no number's
grammar, the inner one where the number is too large for a double. Minus zero is a double. -/
def readNumber (s : List Char) : Option (Option Number) := do
  let (negative, s) := match s with
    | '-' :: t => (true, t)
    | t => (false, t)
  let (whole, s) := spanDigits s
  let leadingZero := whole.head? == some '0' && whole.length != 1
  if whole.isEmpty || leadingZero then none
  else
    let (frac, s) ← fraction? s
    let exp ← exponent? s
    let digits := decimalValue (whole ++ frac)
    let value : Int := if negative then -Int.ofNat digits else digits
    if frac.isEmpty && exp.isNone && inWordRange value && !(negative && digits == 0) then
      return some (.int value)
    else
      let scale : Int := exp.getD 0 - Int.ofNat frac.length
      return (Binary64.ofDecimal? negative digits scale).map .real

/-! ### Texts -/

/-- What stands in a text: a character, an escaped UTF-16 code unit, or an octet of no character. -/
inductive Piece where
  /-- A character as it is, or a short escape. -/
  | char (c : Char)
  /-- An escape with four hexadecimal digits. -/
  | unit (n : Nat)
  /-- An octet that belongs to no character. -/
  | stray (x : UInt8)
deriving DecidableEq, Repr

/-- The characters of some pieces, a high and a low surrogate together making one; a surrogate
without its partner has none, and neither has an octet that belongs to no character. -/
def assemble : List Piece → Option (List Char)
  | [] => some []
  | .stray _ :: _ => none
  | .char c :: rest => (assemble rest).map (c :: ·)
  | .unit n :: rest =>
    if Utf16.isLow n then none
    else if Utf16.isHigh n then
      match rest with
      | .unit m :: rest =>
        if Utf16.isLow m then (assemble rest).map (Utf16.pair n m :: ·) else none
      | _ => none
    else (assemble rest).map (Char.ofNat n :: ·)

/-- The character of an escape of one letter. -/
def shortEscape? (c : Char) : Option Char :=
  [('"', '"'), ('\\', '\\'), ('/', '/'), ('b', '\x08'), ('f', '\x0c'), ('n', '\n'), ('r', '\r'),
    ('t', '\t')].lookup c

/-! ### The machine -/

/-- Where the machine stands. Pieces and digits are held last first. -/
inductive Lexer where
  /-- Between tokens. -/
  | between
  /-- In a literal name, of which some characters are to come. -/
  | name (rest : List Char) (v : Json)
  /-- In a number. -/
  | number (done : List Char)
  /-- In a text. -/
  | text (done : List Piece)
  /-- In a text, after a backslash. -/
  | escape (done : List Piece)
  /-- In a text, in an escape that wants some more digits. -/
  | unit (done : List Piece) (wanted : Nat) (value : Nat)

namespace Lexer

/-- Take a character between tokens. -/
def start (c : Char) : Option (Lexer × List Token) :=
  if isBlank c then some (between, [])
  else if c = '[' then some (between, [.openArray])
  else if c = ']' then some (between, [.closeArray])
  else if c = '{' then some (between, [.openObject])
  else if c = '}' then some (between, [.closeObject])
  else if c = ':' then some (between, [.colon])
  else if c = ',' then some (between, [.comma])
  else if c = '"' then some (text [], [])
  else if c = 'n' then some (name ['u', 'l', 'l'] .null, [])
  else if c = 't' then some (name ['r', 'u', 'e'] (.bool true), [])
  else if c = 'f' then some (name ['a', 'l', 's', 'e'] (.bool false), [])
  else if c = '-' ∨ isDecimal c then some (number [c], [])
  else none

/-- The token of a number that has come to its end. -/
def closeNumber (done : List Char) : Option Token :=
  (readNumber done.reverse).map fun n => .scalar (n.map .number)

/-- Take a character. -/
def step : Lexer → Char → Option (Lexer × List Token)
  | between, c => start c
  | name rest v, c =>
    match rest with
    | d :: rest =>
      if c ≠ d then none
      else if rest.isEmpty then some (between, [.scalar (some v)])
      else some (name rest v, [])
    | [] => none
  | number done, c =>
    if inNumber c then some (number (c :: done), [])
    else do
      let token ← closeNumber done
      let (state, tokens) ← start c
      return (state, token :: tokens)
  | text done, c =>
    if c = '"' then some (between, [.text ((assemble done.reverse).map String.ofList)])
    else if c = '\\' then some (escape done, [])
    else if c.toNat < 0x20 then none
    else some (text (.char c :: done), [])
  | escape done, c =>
    if c = 'u' then some (unit done 4 0, [])
    else (shortEscape? c).map fun d => (text (.char d :: done), [])
  | unit done wanted value, c => do
    let d ← Hex.value? c
    let value := 16 * value + d
    if wanted ≤ 1 then return (text (.unit value :: done), [])
    else return (unit done (wanted - 1) value, [])

/-- The tokens of the end of the text. -/
def finish : Lexer → Option (List Token)
  | between => some []
  | number done => (closeNumber done).map fun t => [t]
  | _ => none

/-- Take an octet that belongs to no character: only a text in quotes can have one. -/
def stepOctet : Lexer → UInt8 → Option (Lexer × List Token)
  | text done, x => some (text (.stray x :: done), [])
  | _, _ => none

/-- Take what there is among octets. -/
def stepPart (state : Lexer) : Utf8.Part → Option (Lexer × List Token)
  | .char c => state.step c
  | .stray x => state.stepOctet x

/-- The tokens of what is given to the machine, piece by piece, from where it stands. -/
def runBy {α : Type} (take : Lexer → α → Option (Lexer × List Token)) :
    Lexer → List α → Option (List Token)
  | state, [] => state.finish
  | state, a :: rest => do
    let (next, tokens) ← take state a
    let more ← runBy take next rest
    return tokens ++ more

/-- The tokens of a text, from where the machine stands. -/
def run : Lexer → List Char → Option (List Token) :=
  runBy step

end Lexer

/-- The tokens of a text. -/
def tokens? (s : String) : Option (List Token) :=
  Lexer.between.run s.toList

/-- The tokens of octets that should be the octets of a text. -/
def octetTokens? (b : Bytes) : Option (List Token) :=
  Lexer.between.runBy Lexer.stepPart (Utf8.parts b)

end DidMethods.Json
