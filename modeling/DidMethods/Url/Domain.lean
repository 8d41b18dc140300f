import DidMethods.Url.Normal
import DidMethods.Url.Punycode
import DidMethods.Url.Repertoire

/-!
# Domain names

Which texts are domain names that may stand in a URL. A name is made of labels between dots, and
may be written with characters of any script (`Repertoire`): first each character is replaced by
what it stands for and the name is put into normal form (`Domain.fold?`), then the labels are looked
at. A label that starts with `xn--` is written in Punycode and has to mean a label that is in its
final form. In a label, no mark may stand first, a joiner must have letters to join, and once a name
has a letter that is written from right to left, the directions in each of its labels have to go
together.
-/

namespace DidMethods.Domain

open Repertoire

/-- The characters of ASCII that may stand in no name. -/
def forbidden : List Char :=
  ['%', '#', '/', ':', '<', '>', '?', '@', '[', '\\', ']', '^', '|']

/-- An ASCII character may stand in a name. -/
def isAsciiAllowed (c : Char) : Bool :=
  0x20 < c.toNat && c.toNat < 0x7F && !forbidden.contains c

/-- What a character stands for: nothing, itself, or other characters. -/
def foldChar? (c : Char) : Option (List Char) :=
  if c.toNat < 128 then some [c.toLower]
  else if isIgnored c then some []
  else if isAdmitted c then some (((ascii? c).or (restatedMarks.lookup c)).getD [c])
  else none

/-- What the characters of a name stand for, in normal form. -/
def fold? (s : List Char) : Option (List Char) :=
  (s.mapM foldChar?).map fun meant => Normal.form meant.flatten

/-! ### Labels -/

/-- A label starts like one that is written in Punycode. -/
def isCoded (label : List Char) : Bool :=
  "xn--".toList.isPrefixOf label

/-- A character may stand in a label in its final form. -/
def isFinal (c : Char) : Bool :=
  if c.toNat < 128 then isAsciiAllowed c && !c.isUpper
  else isAdmitted c && !isIgnored c && !isVariant c

/-- The label that is meant by one that may be written in Punycode. -/
def meaning? (label : List Char) : Option (List Char) :=
  if isCoded label then
    if label.getLast? = some '-' ∨ label.length > 2004 then none
    else (Punycode.decode? (label.drop 4)).filter fun s =>
      s.all isFinal && !isCoded s && Normal.isForm s
  else some label

/-- The nearest of these characters that is not passed over joins in one of these ways. -/
def joins (ways : List Joining) : List Char → Bool
  | [] => false
  | c :: rest =>
    let j := (features c).joining
    ways.contains j || (j == .passed && joins ways rest)

/-- A joiner or non-joiner has something to act on: the characters before it, last first, and the
ones after it. -/
def joinerFits (c : Char) (before after : List Char) : Bool :=
  match before with
  | [] => false
  | b :: _ =>
    isVirama b || (c == '\u200c' && joins [.after, .both] before && joins [.before, .both] after)

/-- All joiners after some characters, last first, have something to act on. -/
def joinersFit (before : List Char) : List Char → Bool
  | [] => true
  | c :: rest =>
    ((c != '\u200c' && c != '\u200d') || joinerFits c before rest) && joinersFit (c :: before) rest

/-- A mark stands first. -/
def startsWithMark (label : List Char) : Bool :=
  label.head?.any fun c => (features c).isMark

/-! ### Directions -/

/-- Directions that ask for care. -/
def isRightward : Direction → Bool
  | .right | .arabicNumber => true
  | _ => false

/-- What may stand anywhere in a label of either direction. -/
def isNeutral : Direction → Bool
  | .europeanNumber | .sign | .unit | .separator | .neutral | .invisible | .mark => true
  | _ => false

/-- The directions of a label go together. -/
def directionsFit : List Direction → Bool
  | [] => true
  | first :: rest =>
    let all := first :: rest
    let last := (rest.reverse.dropWhile (· == .mark)).head?.getD first
    match first with
    | .left => all.all (fun d => d == .left || isNeutral d)
      && (last == .left || last == .europeanNumber)
    | .right => all.all (fun d => isRightward d || isNeutral d)
      && (isRightward last || last == .europeanNumber)
      && !(all.contains .europeanNumber && all.contains .arabicNumber)
    | _ => false

/-- The directions in a name go together: if something is written from right to left, then those of
each label. -/
def isDirected (labels : List (List Char)) : Bool :=
  let directions := labels.map (·.map fun c => (features c).direction)
  !(directions.any (·.any isRightward)) || directions.all directionsFit

/-! ### Names -/

/-- A label in the meaning it has may stand in a name. -/
def isLabel (label : List Char) : Bool :=
  label.all (fun c => c.toNat ≥ 128 || isAsciiAllowed c) && !startsWithMark label
    && joinersFit [] label

/-- The name that a text is, in lower case and in normal form, with what its characters stand for, if
it is one. -/
def parse? (s : List Char) : Option (List Char) := do
  let name ← fold? s
  let meanings ← (Text.splitAll '.' name).mapM meaning?
  if meanings.all isLabel && isDirected meanings then some name else none

end DidMethods.Domain
