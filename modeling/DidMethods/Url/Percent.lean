import DidMethods.Text.Hex

/-!
# Percent-encoding

An octet that may not stand for itself in a part of a URL is written as a percent sign and two
upper-case hexadecimal digits. Which octets may stand for themselves depends on the part
(`Percent.Keeps`); octets outside of ASCII and control characters never do.
-/

namespace DidMethods.Percent

/-- The octets that stand for themselves in some part of a URL. -/
abbrev Keeps := UInt8 → Bool

/-- A printable character of ASCII that is none of these. -/
def allBut (characters : String) : Keeps := fun x =>
  0x1F < x && x < 0x7F && !(Bytes.ofString characters).contains x

/-- What stands for itself in a path that has no segments, and in the name of a host that is not
looked up. -/
def inVerbatim : Keeps :=
  allBut ""

/-- What stands for itself in a fragment. -/
def inFragment : Keeps :=
  allBut " \"<>\x60"

/-- What stands for itself in a segment of a path. -/
def inPath : Keeps :=
  allBut " \"<>\x60#?^\x7b\x7d"

/-- What stands for itself in a user name or password. -/
def inUserinfo : Keeps :=
  allBut " \"<>\x60#?^\x7b\x7d/:;=@[\\]|"

/-- What stands for itself in a query. -/
def inQuery : Keeps :=
  allBut " \"<>#"

/-- What stands for itself in the query of a URL that names a host to be looked up. -/
def inSpecialQuery : Keeps :=
  allBut " \"<>#'"

/-- The upper-case digit of a value below sixteen. -/
def digit (n : Nat) : Char :=
  if n < 10 then Char.ofNat (48 + n) else Char.ofNat (55 + n)

/-- An octet as it is written. -/
def encodeByte (keeps : Keeps) (x : UInt8) : List Char :=
  if keeps x then [Char.ofNat x.toNat]
  else ['%', digit (x.toNat / 16), digit (x.toNat % 16)]

/-- A text as it is written. -/
def encode (keeps : Keeps) (s : List Char) : String :=
  String.ofList ((Bytes.ofString (String.ofList s)).flatMap (encodeByte keeps))

/-- The octet that two hexadecimal digits write. -/
def pair? (hi lo : UInt8) : Option UInt8 := do
  let hi ← Hex.value? (Char.ofNat hi.toNat)
  let lo ← Hex.value? (Char.ofNat lo.toNat)
  return UInt8.ofNat (16 * hi + lo)

/-- The octets that are meant; a percent sign without two digits stands for itself. -/
def decode : Bytes → Bytes
  | 37 :: hi :: lo :: rest =>
    match pair? hi lo with
    | some x => x :: decode rest
    | none => 37 :: decode (hi :: lo :: rest)
  | x :: rest => x :: decode rest
  | [] => []
termination_by b => b.length

end DidMethods.Percent
