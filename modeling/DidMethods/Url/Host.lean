import DidMethods.Url.Address
import DidMethods.Url.Domain
import DidMethods.Url.Percent

/-!
# Hosts

The host of a URL is an internet address or a name. Where a scheme has hosts that are looked up, the
name is a domain name, unless its last label is a number, for then it has to be an address
(`Host.parse?`). Under other schemes a name is any text without the delimiters of URLs
(`Host.parseVerbatim?`).
-/

namespace DidMethods

/-- The host of a URL. -/
inductive Host where
  /-- A domain name. -/
  | domain (name : String)
  /-- A name that means something only under its scheme. -/
  | verbatim (name : String)
  /-- An address of four octets, as a number. -/
  | octets (address : Nat)
  /-- An address of eight groups. -/
  | groups (address : List Nat)
deriving DecidableEq, Repr

namespace Host

/-- The address between brackets, if the text starts with one. -/
def bracketed? (s : List Char) : Option Host :=
  if s.getLast? = some ']' then
    (Address.ofGroups? (s.drop 1).dropLast).map groups
  else none

/-- The text that the octets of a percent-encoded name mean. -/
def decoded? (s : List Char) : Option (List Char) :=
  (Bytes.toString? (Percent.decode (Bytes.ofString (String.ofList s)))).map String.toList

/-- The host that a text is where hosts are looked up, if it is one. -/
def parse? (s : List Char) : Option Host :=
  if s.head? = some '[' then bracketed? s
  else do
    let name ← (decoded? s).bind Domain.parse?
    if name.isEmpty then none
    if Address.endsInNumber name then (Address.ofDotted? name).map octets
    else some (domain (String.ofList name))

/-- The characters that a name under another scheme may not have. -/
def delimiters : List Char :=
  ['\x00', '\t', '\n', '\r', ' ', '#', '/', ':', '<', '>', '?', '@', '[', '\\', ']', '^', '|']

/-- The host that a text is under another scheme, if it is one. -/
def parseVerbatim? (s : List Char) : Option Host :=
  if s.head? = some '[' then bracketed? s
  else if s.any delimiters.contains then none
  else some (verbatim (Percent.encode Percent.inVerbatim s))

/-- The host as it is written in a URL. -/
def toText : Host → String
  | domain name => name
  | verbatim name => name
  | octets n => ".".intercalate ((Bytes.ofNat 4 n).map fun x => toString x.toNat)
  | groups gs => "[" ++ ":".intercalate (gs.map Hex.ofNat) ++ "]"

end Host

end DidMethods
