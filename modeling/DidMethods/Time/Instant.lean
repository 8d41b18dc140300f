import DidMethods.Json.Token
import DidMethods.Text.Blank

/-!
# Instants

An instant of universal time (`Instant`), counted in days, minutes of the day and seconds of the
minute, so that a time zone, which is a number of minutes, moves it without touching the seconds; a
leap second stays the sixty-first of its minute.

Its written form is the one of RFC 3339 with `Z` and as many fraction digits as are needed, in
groups of three (`Instant.toText`). Reading is more liberal (`Instant.parse?`): blanks may stand
between the parts, numbers may lack leading zeros, a year may have a sign, and the zone may be
written in several ways.
-/

namespace DidMethods

/-- An instant of universal time. -/
structure Instant where
  /-- Days since the first of January 1970. -/
  day : Int
  /-- Minutes of the day. -/
  minute : Nat
  /-- Seconds of the minute; a leap second is the sixtieth. -/
  second : Nat
  /-- Billionths of the second. -/
  nano : Nat
deriving DecidableEq, Repr

namespace Instant

/-! ### The calendar -/

/-- The year has a twenty-ninth of February. -/
def isLeap (year : Int) : Bool :=
  year % 4 == 0 && (year % 100 != 0 || year % 400 == 0)

/-- The days of a month. -/
def daysInMonth (year : Int) (month : Nat) : Nat :=
  if month = 2 then (if isLeap year then 29 else 28)
  else if month = 4 ∨ month = 6 ∨ month = 9 ∨ month = 11 then 30 else 31

/-- Days from the start of 1970 to a date. Years are counted from March, so that a leap day is the
last of its year. -/
def dayOfDate (year : Int) (month day : Nat) : Int :=
  let y := if month ≤ 2 then year - 1 else year
  let m := (month + 9) % 12
  let era := y / 400
  let yearOfEra := y % 400
  let dayOfYear : Int := Int.ofNat ((153 * m + 2) / 5 + day - 1)
  era * 146097 + (yearOfEra * 365 + yearOfEra / 4 - yearOfEra / 100 + dayOfYear) - 719468

/-- The date some days after the start of 1970. -/
def dateOfDay (n : Int) : Int × Nat × Nat :=
  let z := n + 719468
  let era := z / 146097
  let d := z % 146097
  let yearOfEra := (d - d / 1460 + d / 36524 - d / 146096) / 365
  let dayOfYear := (d - (365 * yearOfEra + yearOfEra / 4 - yearOfEra / 100)).toNat
  let m := (5 * dayOfYear + 2) / 153
  let day := dayOfYear - (153 * m + 2) / 5 + 1
  let month := if m < 10 then m + 3 else m - 9
  let year := yearOfEra + era * 400
  (if month ≤ 2 then year + 1 else year, month, day)

/-- The years that an instant can lie in. -/
def inYearRange (year : Int) : Bool :=
  -262143 ≤ year && year ≤ 262142

/-! ### Written form -/

/-- A number with leading zeros. -/
def padded (width n : Nat) : String :=
  let digits := Nat.toDigits 10 n
  String.ofList (List.replicate (width - digits.length) '0' ++ digits)

/-- A year of four digits, or with a sign where these do not suffice. -/
def yearText (year : Int) : String :=
  if 0 ≤ year ∧ year ≤ 9999 then padded 4 year.toNat
  else (if year < 0 then "-" else "+") ++ padded 4 year.natAbs

/-- The fraction of a second, in as few groups of three digits as suffice. -/
def fractionText (nano : Nat) : String :=
  if nano = 0 then ""
  else if nano % 1000000 = 0 then "." ++ padded 3 (nano / 1000000)
  else if nano % 1000 = 0 then "." ++ padded 6 (nano / 1000)
  else "." ++ padded 9 nano

/-- The written form of an instant. -/
def toText (t : Instant) : String :=
  let (year, month, day) := dateOfDay t.day
  s!"{yearText year}-{padded 2 month}-{padded 2 day}T{padded 2 (t.minute / 60)}:" ++
    s!"{padded 2 (t.minute % 60)}:{padded 2 t.second}{fractionText t.nano}Z"

/-! ### Reading -/

/-- A number of at least one and at most `width` digits. -/
def number? (width : Nat) (s : List Char) : Option (Nat × List Char) :=
  let digits := (s.take width).takeWhile Json.isDecimal
  if digits.isEmpty then none else some (Json.decimalValue digits, s.drop digits.length)

/-- A number after blanks. -/
def spacedNumber? (width : Nat) (s : List Char) : Option (Nat × List Char) :=
  number? width (Text.trimStart s)

/-- A year: four digits at most, or a sign and any number of digits. -/
def year? (s : List Char) : Option (Int × List Char) :=
  match Text.trimStart s with
  | '-' :: rest => (number? rest.length rest).map fun p => (-Int.ofNat p.1, p.2)
  | '+' :: rest => (number? rest.length rest).map fun p => (Int.ofNat p.1, p.2)
  | rest => (number? 4 rest).map fun p => (Int.ofNat p.1, p.2)

/-- A separator, possibly after blanks. -/
def separator? (c : Char) (s : List Char) : Option (List Char) :=
  match Text.trimStart s with
  | d :: rest => if d = c then some rest else none
  | [] => none

/-- A fraction of a second, in billionths; digits beyond the ninth are dropped. -/
def fraction? : List Char → Option (Nat × List Char)
  | '.' :: rest =>
    let digits := rest.takeWhile Json.isDecimal
    let used := digits.take 9
    if digits.isEmpty then none
    else some (Json.decimalValue used * Nat.pow 10 (9 - used.length), rest.drop digits.length)
  | rest => some (0, rest)

/-- Two digits. -/
def twoDigits? : List Char → Option (Nat × List Char)
  | a :: b :: rest =>
    if Json.isDecimal a && Json.isDecimal b then some (Json.decimalValue [a, b], rest) else none
  | _ => none

/-- The time zone in minutes east: `Z`, `UTC`, or a sign with hours and minutes, any number of
colons and blanks between these. -/
def zone? (s : List Char) : Option (Int × List Char) :=
  match s with
  | 'Z' :: rest | 'z' :: rest => some (0, rest)
  | a :: b :: c :: rest =>
    if [a, b, c].map Char.toUpper = ['U', 'T', 'C'] then some (0, rest)
    else if a = '+' ∨ a = '-' ∨ a = '−' then do
      let (hours, rest) ← twoDigits? (b :: c :: rest)
      let (minutes, rest) ← twoDigits? (rest.dropWhile fun c => c == ':' || Text.isBlank c)
      if minutes ≥ 60 ∨ hours ≥ 24 then none
      else
        let east := Int.ofNat (60 * hours + minutes)
        return (if a = '+' then east else -east, rest)
    else none
  | _ => none

/-- The instant of a local date and time in a zone. -/
def ofLocal? (year : Int) (month day hour minute second nano : Nat) (zone : Int) :
    Option Instant :=
  let dateExists := inYearRange year && 1 ≤ month && month ≤ 12 && 1 ≤ day
    && day ≤ daysInMonth year month
  if !dateExists || hour ≥ 24 || minute ≥ 60 || second > 60 then none
  else
    let total : Int := Int.ofNat (60 * hour + minute) - zone
    let date := dayOfDate year month day + total / 1440
    if inYearRange (dateOfDay date).1 then some ⟨date, (total % 1440).toNat, second, nano⟩
    else none

/-- The instant that a text writes. -/
def parse? (s : String) : Option Instant := do
  let (year, s) ← year? s.toList
  let s ← separator? '-' s
  let (month, s) ← spacedNumber? 2 s
  let s ← separator? '-' s
  let (day, s) ← spacedNumber? 2 s
  let s ← match s with
    | c :: rest => if c = 'T' ∨ c = 't' ∨ c = ' ' then some rest else none
    | [] => none
  let (hour, s) ← spacedNumber? 2 s
  let s ← separator? ':' s
  let (minute, s) ← spacedNumber? 2 s
  let s ← separator? ':' s
  let (second, s) ← spacedNumber? 2 s
  let (nano, s) ← fraction? s
  let (zone, s) ← zone? (Text.trimStart s)
  if (Text.trimStart s).isEmpty then ofLocal? year month day hour minute second nano zone
  else none

end Instant

end DidMethods
