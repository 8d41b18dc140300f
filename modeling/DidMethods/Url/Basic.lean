import DidMethods.Fault
import DidMethods.Url.Host

/-!
# URLs

An absolute URL and its parts (`Url.parse?`). Reading is forgiving: blanks around a text and line
breaks within do not count, a backslash can stand for a slash under a *special* scheme, whose URLs
name a host, and what may not stand for itself in a path or query is percent-encoded. What it is
strict about are the host and the port.

`Url.target` is what a request for a URL asks its host for.
-/

namespace DidMethods

/-- The path of a URL. -/
inductive Url.Path where
  /-- Segments, each after a slash. -/
  | segments (list : List String)
  /-- A text of no further structure. -/
  | verbatim (text : String)
deriving DecidableEq, Repr

/-- An absolute URL. -/
structure Url where
  /-- The scheme, in lower case. -/
  scheme : String
  /-- The user name. -/
  username : String := ""
  /-- The password. -/
  password : String := ""
  /-- The host, if there is one. -/
  host : Option Host := none
  /-- The port, unless it is the one that the scheme implies. -/
  port : Option Nat := none
  /-- The path. -/
  path : Url.Path := .segments []
  /-- The query, without its question mark. -/
  query : Option String := none
  /-- The fragment, without its number sign. -/
  fragment : Option String := none
deriving DecidableEq, Repr

namespace Url

/-! ### Schemes -/

/-- The schemes whose URLs name a host to be looked up, and the ports they imply. -/
def specialPorts : List (String × Nat) :=
  [("http", 80), ("https", 443), ("ws", 80), ("wss", 443), ("ftp", 21)]

/-- What a scheme says about the rest of its URLs. -/
inductive Kind where
  /-- A host that is looked up has to follow. -/
  | network
  /-- A file, possibly on a host. -/
  | file
  /-- Nothing. -/
  | other
deriving DecidableEq, Repr

/-- What a scheme says about the rest of its URLs. -/
def Kind.ofScheme (scheme : String) : Kind :=
  if scheme = "file" then .file
  else if (specialPorts.lookup scheme).isSome then .network
  else .other

/-- A backslash counts as a slash. -/
def Kind.isSpecial (k : Kind) : Bool :=
  k != .other

/-- The character is a slash, or counts as one. -/
def Kind.isSlash (k : Kind) (c : Char) : Bool :=
  c == '/' || (k.isSpecial && c == '\\')

/-- A character that may stand in a scheme. -/
def isSchemeChar (c : Char) : Bool :=
  c.isAlphanum || c == '+' || c == '-' || c == '.'

/-- The scheme at the front of a text, and what follows its colon. -/
def cutScheme? (s : List Char) : Option (String × List Char) :=
  match s.dropWhile isSchemeChar with
  | ':' :: rest =>
    if s.head?.any Char.isAlpha then
      some (String.ofList ((s.takeWhile isSchemeChar).map Char.toLower), rest)
    else none
  | _ => none

/-! ### Host and port -/

/-- The characters up to the first colon that is not between brackets, and the rest. -/
def spanHost (inBrackets : Bool) : List Char → List Char × List Char
  | [] => ([], [])
  | c :: rest =>
    if c = ':' ∧ ¬ inBrackets then ([], c :: rest)
    else
      let (host, more) := spanHost ((inBrackets || c == '[') && c != ']') rest
      (c :: host, more)

/-- The port after the colon, if there is one: its digits, and what follows them. -/
def port? : List Char → Option (Option Nat × List Char)
  | ':' :: rest => do
    let digits := rest.takeWhile Char.isDigit
    let n ← Address.ofDigits? 10 digits
    if n > 65535 then none
    return (if digits.isEmpty then none else some n, rest.dropWhile Char.isDigit)
  | s => some (none, s)

/-- The user name and password that stand before the last at sign, and what follows it. -/
def cutUser (authority : List Char) : String × String × List Char :=
  match Text.cutLast '@' authority with
  | none => ("", "", authority)
  | some (user, rest) =>
    let (name, password) := (Text.cutFirst ':' user).getD (user, [])
    (Percent.encode Percent.inUserinfo name, Percent.encode Percent.inUserinfo password, rest)

/-- The host of a URL, where it may be empty if nothing stands beside it. -/
def host? (kind : Kind) (s : List Char) : Option (Option Host) :=
  match kind with
  | .other => if s.isEmpty then some none else (Host.parseVerbatim? s).map some
  | .network | .file => (Host.parse? s).map some

/-- A URL with the parts before its path, and what is left of the text. -/
def withAuthority? (scheme : String) (kind : Kind) (s : List Char) : Option (Url × List Char) := do
  let ends (c : Char) : Bool := kind.isSlash c || c == '?' || c == '#'
  let authority := s.takeWhile fun c => !ends c
  let rest := s.dropWhile fun c => !ends c
  let (username, password, place) := cutUser authority
  let (hostText, afterHost) := spanHost false place
  let (port, beyond) ← port? afterHost
  let host ← host? kind hostText
  if hostText.isEmpty && (username != "" || password != "" || !afterHost.isEmpty) then none
  if authority == ['@'] && !rest.isEmpty then none
  if !beyond.isEmpty && beyond.head? != some '\\' then none
  return ({
    scheme, username, password, host
    port := if port = specialPorts.lookup scheme then none else port }, beyond ++ rest)

/-- A letter and a colon or bar, which on some systems name a drive and not a host. -/
def isDrive : List Char → Bool
  | [letter, mark] => letter.isAlpha && (mark == ':' || mark == '|')
  | _ => false

/-- The URL of a file with its host, and what is left of the text. -/
def fileWithHost? (s : List Char) : Option (Url × List Char) := do
  let ends (c : Char) : Bool := c == '/' || c == '\\' || c == '?' || c == '#'
  let name := s.takeWhile fun c => !ends c
  if isDrive name || name.isEmpty then return ({ scheme := "file" }, s)
  let host ← Host.parse? name
  return ({ scheme := "file", host := if host = .domain "localhost" then none else some host },
    s.dropWhile fun c => !ends c)

/-! ### Path, query and fragment -/

/-- What a segment is once the dots that may be percent-encoded in it are not. -/
def withDots : List Char → List Char
  | '%' :: '2' :: 'e' :: rest => '.' :: withDots rest
  | '%' :: '2' :: 'E' :: rest => '.' :: withDots rest
  | c :: rest => c :: withDots rest
  | [] => []

/-- The path without its last segment; the drive of a file stays. -/
def parent (kind : Kind) (path : List String) : List String :=
  match kind, path with
  | .file, [drive] => if isDrive drive.toList then [drive] else []
  | _, path => path.dropLast

/-- The path with one more segment: one dot stands for no segment, two for one segment less. -/
def addSegment (kind : Kind) (path : List String) (segment : List Char) (isLast : Bool) :
    List String :=
  let close (path : List String) := if isLast then path ++ [""] else path
  match withDots segment with
  | ['.', '.'] => close (parent kind path)
  | ['.'] => close path
  | _ =>
    if kind = .file ∧ path.isEmpty ∧ isDrive segment then
      path ++ [String.ofList (segment.take 1 ++ [':'])]
    else path ++ [Percent.encode Percent.inPath segment]

/-- The path with some more segments. -/
def addSegments (kind : Kind) (path : List String) : List (List Char) → List String
  | [] => path
  | [segment] => addSegment kind path segment true
  | segment :: rest => addSegments kind (addSegment kind path segment false) rest

/-- The path that a text is, its first slash being of no consequence where it is a must. -/
def segmentsOf (kind : Kind) (s : List Char) : List String :=
  let slashed := s.map fun c => if kind.isSlash c then '/' else c
  match slashed with
  | '/' :: rest => addSegments kind [] (Text.splitAll '/' rest)
  | [] => if kind.isSpecial then [""] else []
  | s => addSegments kind [] (Text.splitAll '/' s)

/-- The text before a character, and the text after it. -/
def cutAt (sep : Char) (s : List Char) : List Char × Option (List Char) :=
  match Text.cutFirst sep s with
  | some (front, back) => (front, some back)
  | none => (s, none)

/-- A URL with the parts from its path on. -/
def withRest (u : Url) (kind : Kind) (path : List Char → Path) (s : List Char) : Url :=
  let (s, fragment) := cutAt '#' s
  let (s, query) := cutAt '?' s
  let keeps := if kind.isSpecial then Percent.inSpecialQuery else Percent.inQuery
  { u with
    path := path s
    query := query.map (Percent.encode keeps)
    fragment := fragment.map (Percent.encode Percent.inFragment) }

/-! ### Reading -/

/-- A control character or a blank. -/
def isControlOrSpace (c : Char) : Bool :=
  c.toNat ≤ 0x20

/-- A character that does not count wherever it stands. -/
def isBreak (c : Char) : Bool :=
  c == '\t' || c == '\n' || c == '\r'

/-- The characters of a text that count. -/
def significant (s : List Char) : List Char :=
  let front := s.dropWhile isControlOrSpace
  ((front.reverse.dropWhile isControlOrSpace).reverse).filter fun c => !isBreak c

/-- What follows two slashes at the front, if they are there. -/
def afterSlashes? (kind : Kind) : List Char → Option (List Char)
  | a :: b :: rest => if kind.isSlash a && kind.isSlash b then some rest else none
  | _ => none

/-- The URL of a scheme that the rest of a text is. -/
def ofRest? (scheme : String) (s : List Char) : Option Url := do
  let kind := Kind.ofScheme scheme
  let segments := fun s => Path.segments (segmentsOf kind s)
  match kind with
  | .network =>
    let (u, rest) ← withAuthority? scheme kind (s.dropWhile kind.isSlash)
    return u.withRest kind segments rest
  | .file =>
    let (u, rest) ← match afterSlashes? kind s with
      | some s => fileWithHost? s
      | none => some ({ scheme }, s)
    return u.withRest kind segments rest
  | .other =>
    match afterSlashes? kind s with
    | some s =>
      let (u, rest) ← withAuthority? scheme kind s
      return u.withRest kind segments rest
    | none =>
      let verbatim := fun s => Path.verbatim (Percent.encode Percent.inVerbatim s)
      return { scheme : Url }.withRest kind (if s.head? = some '/' then segments else verbatim) s

/-- The URL that a text is, if it is one. -/
def parse? (s : String) : Option Url := do
  let (scheme, rest) ← cutScheme? (significant s.toList)
  ofRest? scheme rest

/-- The URL that a text is, or the failure that it is none. -/
def parse (s : String) : Outcome Url :=
  match parse? s with
  | some u => .ok u
  | none => .error (.plain .invalidFormat)

/-- The path as it is written. -/
def Path.toText : Path → String
  | .segments list => String.join (list.map ("/" ++ ·))
  | .verbatim text => text

/-- What a request for the URL asks its host for: the path and the query. -/
def target (u : Url) : String :=
  u.path.toText ++ (u.query.map ("?" ++ ·)).getD ""

end Url

end DidMethods
