/-!
# Cutting text at a character

Three ways to cut a list of characters at a separator: at every occurrence (`splitAll`), at the
first (`cutFirst`), and after the last (`afterLast`). Each of them loses nothing but the separators.
-/

namespace DidMethods.Text

/-- The pieces between the separators; a text without one is its own only piece. -/
def splitAll (sep : Char) : List Char → List (List Char)
  | [] => [[]]
  | c :: rest =>
    if c = sep then [] :: splitAll sep rest
    else match splitAll sep rest with
      | [] => [[c]]
      | piece :: pieces => (c :: piece) :: pieces

/-- What stands before and after the first separator. -/
def cutFirst (sep : Char) : List Char → Option (List Char × List Char)
  | [] => none
  | c :: rest =>
    if c = sep then some ([], rest)
    else (cutFirst sep rest).map fun p => (c :: p.1, p.2)

/-- What stands before and after the last separator. -/
def cutLast (sep : Char) : List Char → Option (List Char × List Char)
  | [] => none
  | c :: rest =>
    match cutLast sep rest with
    | some p => some (c :: p.1, p.2)
    | none => if c = sep then some ([], rest) else none

/-- What stands after the last separator; the whole text where there is none. -/
def afterLast (sep : Char) (s : List Char) : List Char :=
  match cutLast sep s with
  | some p => p.2
  | none => s

/-- The text without the separators at its end. -/
def trimEnd (sep : Char) : List Char → List Char
  | [] => []
  | c :: rest =>
    match trimEnd sep rest with
    | [] => if c = sep then [] else [c]
    | rest => c :: rest

end DidMethods.Text
