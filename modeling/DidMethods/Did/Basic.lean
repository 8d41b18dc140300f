import DidMethods.Did.Grammar
import DidMethods.Fault
import DidMethods.Json.Basic
import DidMethods.Text.Split

/-!
# DIDs and DID URLs

A `Did` is a DID URL with its parts (`Did.parse?`). Its `uri` is the bare DID, which names the
subject; all that follows the identifier selects a part of what the DID resolves to. As JSON it is
the text of the URL.
-/

namespace DidMethods

/-- A DID URL and its parts. -/
structure Did where
  /-- The bare DID. -/
  uri : String
  /-- The whole URL. -/
  url : String
  /-- The method name. -/
  method : String
  /-- The method-specific identifier. -/
  id : String
  /-- The parameters in order, if there are any. -/
  params : Option (List (String × String))
  /-- The path, from its first slash. -/
  path : Option String
  /-- The query, without its question mark. -/
  query : Option String
  /-- The fragment, without its number sign. -/
  fragment : Option String
deriving DecidableEq, Repr

namespace Did

/-- The DID URL of some parts. -/
def ofParts (p : Parts) : Did where
  uri := String.ofList p.renderBare
  url := String.ofList p.render
  method := String.ofList p.method
  id := String.ofList p.id
  params :=
    if p.params.isEmpty then none
    else some (p.params.map fun nv => (String.ofList nv.1, String.ofList nv.2))
  path := p.path.map String.ofList
  query := p.query.map String.ofList
  fragment := p.fragment.map String.ofList

/-- The DID URL that a text is, if it is one. -/
def parse? (s : String) : Option Did :=
  (scan? s.toList).map ofParts

/-- The DID URL that a text is, or the failure that it is none. -/
def parse (s : String) : Outcome Did :=
  orFail .invalidDid s!"invalid DID: {s}" (parse? s)

/-- Nothing follows the identifier. -/
def isBare (d : Did) : Bool :=
  d.params.isNone && d.path.isNone && d.query.isNone && d.fragment.isNone

/-- The URL put together from its parts. -/
def toText (d : Did) : String :=
  let params := (d.params.getD []).map fun nv => s!";{nv.1}={nv.2}"
  s!"did:{d.method}:{d.id}" ++ String.join params ++ d.path.getD ""
    ++ (d.query.map ("?" ++ ·)).getD "" ++ (d.fragment.map ("#" ++ ·)).getD ""

/-- The last value of each name. -/
def lastValues (pairs : List (String × String)) : List (String × String) :=
  match pairs with
  | [] => []
  | p :: rest =>
    if rest.any fun q => q.1 == p.1 then lastValues rest else p :: lastValues rest

/-- A piece of a query: a name, and a value after the first equals sign. -/
def queryPair (piece : List Char) : String × String :=
  match Text.cutFirst '=' piece with
  | some (k, v) => (String.ofList k, String.ofList v)
  | none => (String.ofList piece, "")

/-- The pieces of the query between ampersands, the empty ones left out. -/
def queryPairs (d : Did) : List (String × String) :=
  match d.query with
  | none => []
  | some q => ((Text.splitAll '&' q.toList).filter (!·.isEmpty)).map queryPair

/-- The query as a map, in which the last value of a name counts. -/
def queryMap (d : Did) : List (String × String) :=
  lastValues d.queryPairs

/-- The parameters as a map, in which the last value of a name counts. -/
def paramMap (d : Did) : List (String × String) :=
  lastValues (d.params.getD [])

/-- The JSON form: the URL. -/
def toJson (d : Did) : Json :=
  .string d.toText

/-- Read the JSON form. -/
def ofJson? (v : Json) : Option Did :=
  v.string?.bind parse?

end Did

end DidMethods
