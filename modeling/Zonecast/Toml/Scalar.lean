/-
The TOML values without parts: booleans, integers, fractions and points in time. An integer must
fit 64 bits with a sign; a fraction must not be beyond the greatest finite number of double
precision; a date must exist.
-/
import Zonecast.Time.Rfc3339
import Zonecast.Toml.Basic

namespace Zonecast.Toml

open Zonecast.Text Zonecast.Time

/-! ### Numbers -/

/-- Takes the digits that follow a first one, where an underscore may stand before each. -/
def takeMoreDigits (test : Char → Bool) : List Char → List Char × List Char
  | '_' :: c :: rest =>
    if test c then
      let (digits, rest) := takeMoreDigits test rest
      (c :: digits, rest)
    else ([], '_' :: c :: rest)
  | c :: rest =>
    if test c then
      let (digits, rest) := takeMoreDigits test rest
      (c :: digits, rest)
    else ([], c :: rest)
  | [] => ([], [])

/-- Takes a run of digits with underscores between them. -/
def takeDigitRun (test : Char → Bool) : List Char → Option (List Char × List Char)
  | c :: rest =>
    if test c then
      let (digits, rest) := takeMoreDigits test rest
      some (c :: digits, rest)
    else none
  | [] => none

/-- An integer that fits 64 bits with a sign. -/
def integer? (value : Int) : Option Toml :=
  if -9223372036854775808 ≤ value ∧ value < 9223372036854775808 then some (.integer value) else none

/-- Takes an integer of this radix after the mark that says so. -/
def takeRadix (radix : Nat) (text : List Char) : Option (Toml × List Char) := do
  let test := fun c => (hexValue? c).any (· < radix)
  let (digits, rest) ← takeDigitRun test text
  let value := digits.foldl (fun value c => value * radix + (hexValue? c).getD 0) 0
  return (← integer? value, rest)

/-- The sign in front, and the text after it. -/
def takeSign : List Char → Bool × List Char
  | '-' :: rest => (true, rest)
  | '+' :: rest => (false, rest)
  | text => (false, text)

/-- Takes a whole number without superfluous zeros in front. -/
def takeWhole : List Char → Option (List Char × List Char)
  | '0' :: rest => some (['0'], rest)
  | text => takeDigitRun isDigit text

/-- The value of decimal digits. -/
def decimalValue (digits : List Char) : Nat :=
  digits.foldl (fun value c => value * 10 + digitValue c) 0

/-- Takes an exponent, if there is one. -/
def takeExponent : List Char → Option (Int × List Char)
  | c :: rest =>
    if c == 'e' || c == 'E' then do
      let (negative, rest) := takeSign rest
      let (digits, rest) ← takeDigitRun isDigit rest
      let value : Int := decimalValue digits
      return (if negative then -value else value, rest)
    else some (0, c :: rest)
  | [] => some (0, [])

/-- Whether `digits * 10 ^ exponent` rounds to a finite number of double precision: it must lie
below the middle between the greatest one and the next power of two. -/
def isFinite (digits : List Char) (exponent : Int) : Bool :=
  let value := decimalValue digits
  let places : Int := (toString value).length + exponent
  value == 0 || places < 309 ||
    (places == 309 && value * Nat.pow 10 exponent.toNat <
      (Nat.pow 2 1024 - Nat.pow 2 970) * Nat.pow 10 (-exponent).toNat)

/-- Takes a number that starts with a digit. -/
def takeUnsigned (negative : Bool) (text : List Char) : Option (Toml × List Char) := do
  let (whole, rest) ← takeWhole text
  let fraction ←
    match rest with
    | '.' :: rest => do
      let (digits, rest) ← takeDigitRun isDigit rest
      pure (some digits, rest)
    | rest => pure (none, rest)
  let (exponent, after) ← takeExponent fraction.2
  if fraction.1.isNone && after.length == rest.length then
    let value : Int := decimalValue whole
    return (← integer? (if negative then -value else value), rest)
  else
    let places := fraction.1.getD []
    if negative || isFinite (whole ++ places) (exponent - places.length) then
      return (.fraction (String.ofList (text.take (text.length - after.length))), after)
    else none

/-- Takes a number. -/
def takeNumber (text : List Char) : Option (Toml × List Char) :=
  match text with
  | '0' :: 'x' :: rest => takeRadix 16 rest
  | '0' :: 'o' :: rest => takeRadix 8 rest
  | '0' :: 'b' :: rest => takeRadix 2 rest
  | _ =>
    match takeSign text with
    | (_, 'i' :: 'n' :: 'f' :: rest) => some (.fraction "inf", rest)
    | (_, 'n' :: 'a' :: 'n' :: rest) => some (.fraction "nan", rest)
    | (negative, rest) => takeUnsigned negative rest

/-! ### Points in time -/

/-- Takes a time of day. -/
def takeTimeOfDay (text : List Char) : Option (Unit × List Char) := do
  let (hour, rest) ← takeDigits 2 text
  let rest ← takeChar ':' rest
  let (minute, rest) ← takeDigits 2 rest
  let rest ← takeChar ':' rest
  let (second, rest) ← takeDigits 2 rest
  let (_, rest) ← takeFraction rest
  if 23 < hour || 59 < minute || 60 < second then none else return ((), rest)

/-- Skips an offset from UTC, if there is one. -/
def skipOffset : List Char → Option (List Char)
  | c :: rest =>
    if c == 'Z' || c == 'z' then some rest
    else if c == '+' || c == '-' then do
      let (hours, rest) ← takeDigits 2 rest
      let rest ← takeChar ':' rest
      let (minutes, rest) ← takeDigits 2 rest
      if 23 < hours || 59 < minutes then none else some rest
    else some (c :: rest)
  | [] => some []

/-- Takes the time of day and the offset that may follow a date. -/
def skipTimeAfterDate (text : List Char) : Option (List Char) :=
  match text with
  | c :: rest =>
    if c == 'T' || c == 't' then do
      let (_, rest) ← takeTimeOfDay rest
      skipOffset rest
    else if c == ' ' && (rest.head?).any isDigit then do
      let (_, rest) ← takeTimeOfDay rest
      skipOffset rest
    else some text
  | [] => some []

/-- Takes a date, with or without a time of day, or a time of day. -/
def takeMoment (text : List Char) : Option (Toml × List Char) := do
  let rest ←
    match takeDigits 4 text with
    | some (year, '-' :: rest) => do
      let (month, rest) ← takeDigits 2 rest
      let rest ← takeChar '-' rest
      let (day, rest) ← takeDigits 2 rest
      let date : Date := ⟨year, month, day⟩
      if date.exists? then skipTimeAfterDate rest else none
    | _ => (takeTimeOfDay text).map (·.2)
  return (.moment (String.ofList (text.take (text.length - rest.length))), rest)

/-- Whether the front of the text can only be a point in time. -/
def startsMoment (text : List Char) : Bool :=
  match takeDigits 4 text, takeDigits 2 text with
  | some (_, '-' :: _), _ => true
  | _, some (_, ':' :: _) => true
  | _, _ => false

/-- Takes a value without parts that is no string. -/
def takeScalar (text : List Char) : Option (Toml × List Char) :=
  match text with
  | 't' :: 'r' :: 'u' :: 'e' :: rest => some (.boolean true, rest)
  | 'f' :: 'a' :: 'l' :: 's' :: 'e' :: rest => some (.boolean false, rest)
  | text => if startsMoment text then takeMoment text else takeNumber text

end Zonecast.Toml
