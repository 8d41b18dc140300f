import DidMethods.Text.Hex

/-!
# The grammar of DID URLs

A DID URL is `did:`, a method name, `:`, a method-specific identifier, and then, each of them
optional and in this order, parameters `;name=value`, a path from `/`, a query from `?` and a
fragment from `#`. `Did.Parts` is a URL taken apart, `Did.Parts.render` puts it together, and
`Did.scan?` takes a text apart.

None of the characters that open a later part can occur in an earlier one, so each part simply ends
where its characters do, and a text can be taken apart in one way at most. An identifier is made of
segments between colons, any of which but the last may be empty; a percent sign in it needs two
hexadecimal digits.
-/

namespace DidMethods.Did

/-- A DID URL taken apart, the parts without the characters that open them, except for the path. -/
structure Parts where
  /-- The method name. -/
  method : List Char
  /-- The method-specific identifier. -/
  id : List Char
  /-- The parameters: names and values. -/
  params : List (List Char × List Char)
  /-- The path, from its first slash. -/
  path : Option (List Char)
  /-- The query. -/
  query : Option (List Char)
  /-- The fragment. -/
  fragment : Option (List Char)
deriving DecidableEq, Repr

/-- A lower-case letter or a digit. -/
def isMethodChar (c : Char) : Bool :=
  ('a' ≤ c && c ≤ 'z') || ('0' ≤ c && c ≤ '9')

/-- A letter or a digit. -/
def isAlphanumeric (c : Char) : Bool :=
  isMethodChar c || ('A' ≤ c && c ≤ 'Z')

/-- A character that stands for itself in an identifier. -/
def isIdChar (c : Char) : Bool :=
  isAlphanumeric c || c == '.' || c == '_' || c == '-'

/-- A character of the name or the value of a parameter. -/
def isParamChar (c : Char) : Bool :=
  isAlphanumeric c || c == '_' || c == '.' || c == ':' || c == '%' || c == '-'

/-- The longest identifier at the front of a text, colons included, and what follows it. -/
def spanId : List Char → List Char × List Char
  | '%' :: a :: b :: rest =>
    if Hex.isDigit a && Hex.isDigit b then
      let (id, more) := spanId rest
      ('%' :: a :: b :: id, more)
    else ([], '%' :: a :: b :: rest)
  | c :: rest =>
    if isIdChar c || c == ':' then
      let (id, more) := spanId rest
      (c :: id, more)
    else ([], c :: rest)
  | [] => ([], [])

/-- An identifier: not empty, and its last segment not empty either. -/
def isId (id : List Char) : Bool :=
  match id.getLast? with
  | some c => c != ':'
  | none => false

/-- The parameters at the front of a text, at most `fuel` of them, and what follows them; `none`
where a semicolon opens no parameter. -/
def spanParams : (fuel : Nat) → List Char → Option (List (List Char × List Char) × List Char)
  | fuel + 1, ';' :: rest =>
    let name := rest.takeWhile isParamChar
    match rest.dropWhile isParamChar with
    | '=' :: rest =>
      if name.isEmpty then none
      else
        let value := rest.takeWhile isParamChar
        (spanParams fuel (rest.dropWhile isParamChar)).map fun p => ((name, value) :: p.1, p.2)
    | _ => none
  | _, rest => some ([], rest)

/-- The path at the front of a text, and what follows it. -/
def spanPath : List Char → Option (List Char) × List Char
  | '/' :: rest =>
    let inPath := fun c => c != '#' && c != '?'
    (some ('/' :: rest.takeWhile inPath), rest.dropWhile inPath)
  | rest => (none, rest)

/-- The query at the front of a text, and what follows it. -/
def spanQuery : List Char → Option (List Char) × List Char
  | '?' :: rest => (some (rest.takeWhile (· != '#')), rest.dropWhile (· != '#'))
  | rest => (none, rest)

/-- The fragment that makes up the whole of a text; `none` where the text is no fragment. -/
def wholeFragment? : List Char → Option (Option (List Char))
  | [] => some none
  | '#' :: rest => if rest.contains '\n' then none else some (some rest)
  | _ => none

/-- Take apart what follows `did:`. -/
def scanAfterScheme? (s : List Char) : Option Parts :=
  let method := s.takeWhile isMethodChar
  match s.dropWhile isMethodChar with
  | ':' :: s =>
    let (id, s) := spanId s
    if method.isEmpty || !isId id then none
    else do
      let (params, s) ← spanParams s.length s
      let (path, s) := spanPath s
      let (query, s) := spanQuery s
      let fragment ← wholeFragment? s
      return { method, id, params, path, query, fragment }
  | _ => none

/-- Take a text apart, if it is a DID URL. -/
def scan? : List Char → Option Parts
  | 'd' :: 'i' :: 'd' :: ':' :: s => scanAfterScheme? s
  | _ => none

namespace Parts

/-- The bare DID: scheme, method and identifier. -/
def renderBare (p : Parts) : List Char :=
  'd' :: 'i' :: 'd' :: ':' :: p.method ++ ':' :: p.id

/-- The parameters as text. -/
def renderParams (params : List (List Char × List Char)) : List Char :=
  params.flatMap fun nv => ';' :: nv.1 ++ '=' :: nv.2

/-- An optional part behind the character that opens it. -/
def renderAfter (c : Char) : Option (List Char) → List Char
  | some s => c :: s
  | none => []

/-- The parts put together. -/
def render (p : Parts) : List Char :=
  p.renderBare ++ renderParams p.params ++ p.path.getD [] ++ renderAfter '?' p.query
    ++ renderAfter '#' p.fragment

end Parts

end DidMethods.Did
