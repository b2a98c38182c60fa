/-
Timestamps in the Internet form, `2025-06-01T12:00:00.250Z`. The reader takes a capital or small
`T`, or a blank, between date and time; any number of fraction digits, of which nine count; second
60 for a leap second of any minute; and `Z`, or an offset of at most 23:59 with a plus, a hyphen
or the minus sign. Everything is written at its full width. The writer prints UTC with `Z` and a
fixed or the least sufficient number of fraction digits.
-/
import Zonecast.Time.Instant
import Zonecast.Text.Letter

namespace Zonecast.Time

open Zonecast.Text

/-! ### Reading -/

/-- Exactly so many digits, as a number, and the rest. -/
def takeDigits (count : Nat) (text : List Char) : Option (Nat × List Char) :=
  let digits := text.take count
  if digits.length = count ∧ digits.all isDigit then
    some (digits.foldl (fun value c => value * 10 + digitValue c) 0, text.drop count)
  else none

/-- One given character. -/
def takeChar (wanted : Char) : List Char → Option (List Char)
  | [] => none
  | c :: rest => if c = wanted then some rest else none

/-- The fraction of a second in nanoseconds, if a point follows. -/
def takeFraction : List Char → Option (Nat × List Char)
  | '.' :: rest =>
    match rest.takeWhile isDigit with
    | [] => none
    | digits =>
      let counted := digits.take 9
      let value := counted.foldl (fun value c => value * 10 + digitValue c) 0
      some (value * Nat.pow 10 (9 - counted.length), rest.dropWhile isDigit)
  | rest => some (0, rest)

/-- Whether an offset that begins with this sign is negative. -/
def isNegative? (sign : Char) : Option Bool :=
  if sign == '+' then some false
  else if sign == '-' || sign == '\u2212' then some true
  else none

/-- The offset from UTC in seconds. -/
def takeOffset : List Char → Option (Int × List Char)
  | [] => none
  | c :: rest =>
    if c == 'Z' || c == 'z' then some (0, rest)
    else do
      let negative ← isNegative? c
      let (hours, rest) ← takeDigits 2 rest
      let rest ← takeChar ':' rest
      let (minutes, rest) ← takeDigits 2 rest
      if 59 < minutes || 23 < hours then none
      else
        let seconds : Int := hours * 3600 + minutes * 60
        return (if negative then -seconds else seconds, rest)

/-- What may stand between a date and a time. -/
def takeDivider : List Char → Option (List Char)
  | [] => none
  | c :: rest => if c == 'T' || c == 't' || c == ' ' then some rest else none

/-- The instant that a timestamp denotes. -/
def readTimestamp? (text : String) : Option Instant := do
  let (year, rest) ← takeDigits 4 text.toList
  let rest ← takeChar '-' rest
  let (month, rest) ← takeDigits 2 rest
  let rest ← takeChar '-' rest
  let (day, rest) ← takeDigits 2 rest
  let rest ← takeDivider rest
  let (hour, rest) ← takeDigits 2 rest
  let rest ← takeChar ':' rest
  let (minute, rest) ← takeDigits 2 rest
  let rest ← takeChar ':' rest
  let (second, rest) ← takeDigits 2 rest
  let (nano, rest) ← takeFraction rest
  let (offset, rest) ← takeOffset rest
  let date : Date := ⟨year, month, day⟩
  if !rest.isEmpty || !date.exists? || 23 < hour || 59 < minute || 60 < second then none
  else
    let leap := second == 60
    let timeOfDay : Int := hour * 3600 + minute * 60 + (if leap then 59 else second : Nat)
    return ⟨date.toDays * 86400 + timeOfDay - offset, if leap then nano + 1000000000 else nano⟩

/-! ### Writing -/

/-- How many fraction digits are written. -/
inductive Precision
  | milliseconds
  /-- None, three, six or nine: the fewest that lose nothing. -/
  | shortest
  deriving DecidableEq, Repr

/-- A number at a width, filled with zeros in front. -/
def padded (width value : Nat) : String :=
  let digits := toString value
  String.ofList (List.replicate (width - digits.length) '0') ++ digits

/-- A year: four digits, or a sign and at least four digits outside the years 0 to 9999. -/
def yearText (year : Int) : String :=
  if 0 ≤ year ∧ year ≤ 9999 then padded 4 year.toNat
  else (if year < 0 then "-" else "+") ++ padded 4 year.natAbs

/-- The fraction digits of so many nanoseconds, after their point. -/
def fractionText (precision : Precision) (nano : Nat) : String :=
  match precision with
  | .milliseconds => "." ++ padded 3 (nano / 1000000)
  | .shortest =>
    if nano = 0 then ""
    else if nano % 1000000 = 0 then "." ++ padded 3 (nano / 1000000)
    else if nano % 1000 = 0 then "." ++ padded 6 (nano / 1000)
    else "." ++ padded 9 nano

/-- The timestamp of an instant, in UTC. -/
def timestamp (precision : Precision) (instant : Instant) : String :=
  let date := Date.ofDays (instant.second / 86400)
  let timeOfDay := (instant.second % 86400).toNat
  let leap := 1000000000 ≤ instant.nano
  let second := timeOfDay % 60 + (if leap then 1 else 0)
  let nano := if leap then instant.nano - 1000000000 else instant.nano
  yearText date.year ++ "-" ++ padded 2 date.month ++ "-" ++ padded 2 date.day ++ "T" ++
    padded 2 (timeOfDay / 3600) ++ ":" ++ padded 2 (timeOfDay / 60 % 60) ++ ":" ++
    padded 2 second ++ fractionText precision nano ++ "Z"

end Zonecast.Time
