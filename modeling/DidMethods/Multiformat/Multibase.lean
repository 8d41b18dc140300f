import DidMethods.Multiformat.Radix
import DidMethods.Text.BitGroups

/-!
# Multibase

A text whose first character names the encoding of the rest. `Multibase.decode?` reads all the
registered encodings, since a reader has to tell a text that is no multibase at all from one that
uses another encoding than it wants. Only one encoding is ever written, base58 with the bitcoin
alphabet, marked `z` (`Multibase.encode58`).

The encodings are of four kinds (`Multibase.Scheme`): text taken as it is, groups of bits, digits of
one large number, and characters in pairs of octets or one to an octet.
-/

namespace DidMethods.Multibase

/-- Which letters of a text an encoding takes for letters of its alphabet. -/
inductive CaseRule where
  /-- Letters count as they are. -/
  | exact
  /-- Upper-case letters count as lower-case ones. -/
  | lowered
  /-- Lower-case letters count as upper-case ones. -/
  | raised
deriving DecidableEq, Repr

/-- The letter that a character counts as. -/
def CaseRule.apply : CaseRule → Char → Char
  | .exact, c => c
  | .lowered, c => c.toLower
  | .raised, c => c.toUpper

/-- How an encoding reads its text. -/
inductive Scheme where
  /-- The octets are the UTF-8 of the text. -/
  | verbatim
  /-- Each character is a group of bits; `padded` wants whole blocks, filled up with `=`. -/
  | groups (width : Nat) (alphabet : String) (rule : CaseRule) (padded : Bool)
  /-- The characters are the digits of one number. -/
  | radix (alphabet : String) (rule : CaseRule)
  /-- Two octets are three characters, a last octet is two. -/
  | triples (alphabet : String) (rule : CaseRule)
  /-- Each character is an octet. -/
  | single (alphabet : String)
deriving DecidableEq, Repr

/-- The bitcoin alphabet: digits and letters without the ones that look alike. -/
def bitcoin : String := "123456789ABCDEFGHJKLMNPQRSTUVWXYZabcdefghijkmnopqrstuvwxyz"

/-- One picture for each octet. -/
def pictures : String :=
  "🚀🪐☄🛰🌌🌑🌒🌓🌔🌕🌖🌗🌘🌍🌏🌎🐉☀💻🖥💾💿😂❤😍🤣😊🙏💕😭😘👍😅👏😁🔥🥰💔💖💙😢🤔😆🙄💪😉☺👌" ++
  "🤗💜😔😎😇🌹🤦🎉💞✌✨🤷😱😌🌸🙌😋💗💚😏💛🙂💓🤩😄😀🖤😃💯🙈👇🎶😒🤭❣😜💋👀😪😑💥🙋😞😩😡🤪" ++
  "👊🥳😥🤤👉💃😳✋😚😝😴🌟😬🙃🍀🌷😻😓⭐✅🥺🌈😈🤘💦✔😣🏃💐☹🎊💘😠☝😕🌺🎂🌻😐🖕💝🙊😹🗣💫💀" ++
  "👑🎵🤞😛🔴😤🌼😫⚽🤙☕🏆🤫👈😮🙆🍻🍃🐶💁😲🌿🧡🎁⚡🌞🎈❌✊👋😰🤨😶🤝🚶💰🍓💢🤟🙁🚨💨🤬✈🎀🍺" ++
  "🤓😙💟🌱😖👶🥴▶➡❓💎💸⬇😨🌚🦋😷🕺⚠🙅😟😵👎🤲🤠🤧📌🔵💅🧐🐾🍒😗🤑🌊🤯🐷☎💧😯💆👆🎤🙇🍑❄🌴" ++
  "💣🐸💌📍🥀🤢👅💡💩👐📸👻🤐🤮🎼🥵🚩🍎🍊👼💍📣🥂"

/-- The mark of base58 with the bitcoin alphabet. -/
def mark58 : Char := 'z'

/-- Letters of both kinds, and digits. -/
def lettersAndDigits : String :=
  "ABCDEFGHIJKLMNOPQRSTUVWXYZabcdefghijklmnopqrstuvwxyz0123456789"

/-- The registered encodings by their marks. -/
def schemes : List (Char × Scheme) :=
  [('\x00', .verbatim),
    ('0', .groups 1 "01" .exact false),
    ('7', .groups 3 "01234567" .exact false),
    ('9', .radix "0123456789" .exact),
    ('f', .groups 4 "0123456789abcdef" .lowered false),
    ('F', .groups 4 "0123456789ABCDEF" .raised false),
    ('v', .groups 5 "0123456789abcdefghijklmnopqrstuv" .lowered false),
    ('V', .groups 5 "0123456789ABCDEFGHIJKLMNOPQRSTUV" .raised false),
    ('t', .groups 5 "0123456789abcdefghijklmnopqrstuv" .lowered true),
    ('T', .groups 5 "0123456789ABCDEFGHIJKLMNOPQRSTUV" .raised true),
    ('b', .groups 5 "abcdefghijklmnopqrstuvwxyz234567" .lowered false),
    ('B', .groups 5 "ABCDEFGHIJKLMNOPQRSTUVWXYZ234567" .raised false),
    ('c', .groups 5 "abcdefghijklmnopqrstuvwxyz234567" .lowered true),
    ('C', .groups 5 "ABCDEFGHIJKLMNOPQRSTUVWXYZ234567" .raised true),
    ('h', .groups 5 "ybndrfg8ejkmcpqxot1uwisza345h769" .exact false),
    ('k', .radix "0123456789abcdefghijklmnopqrstuvwxyz" .lowered),
    ('K', .radix "0123456789ABCDEFGHIJKLMNOPQRSTUVWXYZ" .raised),
    ('R', .triples "0123456789ABCDEFGHIJKLMNOPQRSTUVWXYZ $%*+-./:" .raised),
    ('Z', .radix "123456789abcdefghijkmnopqrstuvwxyzABCDEFGHJKLMNPQRSTUVWXYZ" .exact),
    (mark58, .radix bitcoin .exact),
    ('m', .groups 6 (lettersAndDigits ++ "+/") .exact false),
    ('M', .groups 6 (lettersAndDigits ++ "+/") .exact true),
    ('u', .groups 6 (lettersAndDigits ++ "-_") .exact false),
    ('U', .groups 6 (lettersAndDigits ++ "-_") .exact true),
    ('🚀', .single pictures)]

/-- The values of characters in an alphabet. -/
def values? (alphabet : String) (rule : CaseRule) (s : List Char) : Option (List Nat) :=
  let table := alphabet.toList
  s.mapM fun c => table.idxOf? (rule.apply c)

/-- How many characters make a whole block: the fewest that fill octets exactly. -/
def blockLength (width : Nat) : Nat :=
  Nat.lcm 8 width / width

/-- The characters of a block before the `=` that fill it up. -/
def unpadded (block : List Char) : List Char :=
  (block.reverse.dropWhile (· = '=')).reverse

/-- Read whole blocks, each of them filled up with `=` where it is short. -/
def decodeBlocks? (width : Nat) (alphabet : String) (rule : CaseRule) :
    (blocks : Nat) → List Char → Option Bytes
  | _, [] => some []
  | 0, _ :: _ => none
  | blocks + 1, s => do
    let block := s.take (blockLength width)
    let chars := unpadded block
    if block.length ≠ blockLength width ∨ chars.isEmpty then none
    else
      let digits ← values? alphabet rule chars
      let bytes ← BitGroups.decode? width digits
      let more ← decodeBlocks? width alphabet rule blocks (s.drop (blockLength width))
      return bytes ++ more

/-- Two octets for three characters, and one octet for two at the end. -/
def decodeTriples? : List Nat → Option Bytes
  | [] => some []
  | [_] => none
  | [a, b] => some [UInt8.ofNat (a + 45 * b)]
  | a :: b :: c :: rest => do
    let n := a + 45 * b + 2025 * c
    if n < Nat.pow 2 16 then
      let more ← decodeTriples? rest
      return Bytes.ofNat 2 n ++ more
    else none

/-- Read the text after the mark. -/
def Scheme.decode? (s : List Char) : Scheme → Option Bytes
  | .verbatim => some (Bytes.ofString (String.ofList s))
  | .groups width alphabet rule false => do
    let digits ← values? alphabet rule s
    BitGroups.decode? width digits
  | .groups width alphabet rule true => decodeBlocks? width alphabet rule s.length s
  | .radix alphabet rule => do
    let digits ← values? alphabet rule s
    return Radix.decode alphabet.length digits
  | .triples alphabet rule => do
    let digits ← values? alphabet rule s
    decodeTriples? digits
  | .single alphabet => do
    let digits ← values? alphabet .exact s
    return digits.map UInt8.ofNat

/-- The mark and the octets of a multibase text. -/
def decode? (s : String) : Option (Char × Bytes) :=
  match s.toList with
  | [] => none
  | mark :: rest => do
    let scheme ← schemes.lookup mark
    let bytes ← scheme.decode? rest
    return (mark, bytes)

/-- The bitcoin character of a digit. -/
def digit58 (n : Nat) : Char :=
  bitcoin.toList.getD n '1'

/-- The octets in base58, marked. -/
def encode58 (bytes : Bytes) : String :=
  String.ofList (mark58 :: (Radix.encode 58 bytes).map digit58)

end DidMethods.Multibase
