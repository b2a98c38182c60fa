/-
Reading JSON text. The grammar is the strict one: no comments, no trailing commas, no leading
zeros, no raw control characters in strings, and nothing but blanks after the value. Every call
below consumes at least one character before it calls itself on a nested value, so the length of
the text bounds the nesting and serves as the fuel.
-/
import Zonecast.Json.Basic
import Zonecast.Text.Letter

namespace Zonecast.Json

open Zonecast.Text

/-! ### Lexemes -/

/-- The four blank characters of JSON. -/
def isSpace (c : Char) : Bool :=
  c == ' ' || c == '\n' || c == '\t' || c == '\r'

def skipSpace (text : List Char) : List Char :=
  text.dropWhile isSpace

/-- Four hexadecimal digits, and what follows them. -/
def readHex4 : List Char → Option (Nat × List Char)
  | a :: b :: c :: d :: rest => do
    let a ← hexValue? a
    let b ← hexValue? b
    let c ← hexValue? c
    let d ← hexValue? d
    return (((a * 16 + b) * 16 + c) * 16 + d, rest)
  | _ => none

/-- The character of a one-letter escape. -/
def shortEscape? : Char → Option Char
  | '"' => some '"'
  | '\\' => some '\\'
  | '/' => some '/'
  | 'b' => some '\x08'
  | 'f' => some '\x0c'
  | 'n' => some '\n'
  | 'r' => some '\r'
  | 't' => some '\t'
  | _ => none

/-- The character that the escape of this unit denotes, the second half of a surrogate pair taken
from the text. `none` in the first place marks half a pair. -/
def escapedUnit (unit : Nat) (rest : List Char) : Option Char × List Char :=
  if 0xd800 ≤ unit && unit < 0xdc00 then
    match rest with
    | '\\' :: 'u' :: after =>
      match readHex4 after with
      | some (low, after) =>
        if 0xdc00 ≤ low && low < 0xe000 then
          (some (Char.ofNat (0x10000 + (unit - 0xd800) * 0x400 + (low - 0xdc00))), after)
        else (none, rest)
      | none => (none, rest)
    | _ => (none, rest)
  else if 0xdc00 ≤ unit && unit < 0xe000 then (none, rest)
  else (some (Char.ofNat unit), rest)

/-- Reads a string up to its closing quote. The characters so far come in reverse; `none` says
that one of them was half a surrogate pair. -/
def readString : Nat → Option (List Char) → List Char → Option (Option (List Char) × List Char)
  | 0, _, _ => none
  | _ + 1, _, [] => none
  | fuel + 1, soFar, c :: rest =>
    if c == '"' then some (soFar.map List.reverse, rest)
    else if c == '\\' then
      match rest with
      | [] => none
      | 'u' :: digits =>
        match readHex4 digits with
        | none => none
        | some (unit, rest) =>
          match escapedUnit unit rest with
          | (some value, rest) => readString fuel (soFar.map (value :: ·)) rest
          | (none, rest) => readString fuel none rest
      | letter :: rest =>
        match shortEscape? letter with
        | none => none
        | some value => readString fuel (soFar.map (value :: ·)) rest
    else if c.toNat < 0x20 then none
    else readString fuel (soFar.map (c :: ·)) rest

/-- The digits at the front of a text; at least one is wanted. -/
def readDigitRun (text : List Char) : Option (List Char × List Char) :=
  match text.takeWhile isDigit with
  | [] => none
  | digits => some (digits, text.dropWhile isDigit)

/-- The fraction part, if a point follows. -/
def readFractionPart : List Char → Option (List Char × List Char)
  | '.' :: rest => (readDigitRun rest).map fun (digits, rest) => ('.' :: digits, rest)
  | rest => some ([], rest)

/-- The exponent part, if a letter `e` follows. -/
def readExponentPart : List Char → Option (List Char × List Char)
  | c :: rest =>
    if c == 'e' || c == 'E' then
      match rest with
      | '+' :: rest => (readDigitRun rest).map fun (digits, rest) => (c :: '+' :: digits, rest)
      | '-' :: rest => (readDigitRun rest).map fun (digits, rest) => (c :: '-' :: digits, rest)
      | rest => (readDigitRun rest).map fun (digits, rest) => (c :: digits, rest)
    else some ([], c :: rest)
  | [] => some ([], [])

/-- The value of a run of digits. -/
def digitsValue (digits : List Char) : Nat :=
  digits.foldl (fun value c => value * 10 + digitValue c) 0

/-- Whether a number is negative, and what follows its sign. -/
def takeMinus : List Char → Bool × List Char
  | '-' :: rest => (true, rest)
  | rest => (false, rest)

/-- A number after its sign: an integer of 64 bits as its value, any other as its text. Minus zero
is no integer. -/
def readUnsigned (negative : Bool) (text : List Char) : Option (Json × List Char) := do
  let (whole, text) ← readDigitRun text
  if whole.head? == some '0' && whole.length > 1 then none
  else
    let (decimals, text) ← readFractionPart text
    let (power, text) ← readExponentPart text
    let size : Int := digitsValue whole
    let value := if negative then -size else size
    let held := decimals.isEmpty && power.isEmpty && !(negative && size == 0) &&
      -9223372036854775808 ≤ value && value < 18446744073709551616
    if held then return (.integer value, text)
    else
      let sign := if negative then ['-'] else []
      return (.fraction (String.ofList (sign ++ whole ++ decimals ++ power)), text)

/-- A number. -/
def readNumber (text : List Char) : Option (Json × List Char) :=
  let (negative, digits) := takeMinus text
  readUnsigned negative digits

/-! ### Values -/

mutual

/-- Reads one value; the text starts where it starts. -/
def readValue : Nat → List Char → Option (Json × List Char)
  | 0, _ => none
  | _ + 1, [] => none
  | fuel + 1, c :: rest =>
    match c with
    | 'n' => if ['u', 'l', 'l'].isPrefixOf rest then some (.null, rest.drop 3) else none
    | 't' => if ['r', 'u', 'e'].isPrefixOf rest then some (.bool true, rest.drop 3) else none
    | 'f' =>
      if ['a', 'l', 's', 'e'].isPrefixOf rest then some (.bool false, rest.drop 4) else none
    | '"' =>
      (readString (rest.length + 1) (some []) rest).map fun (content, rest) =>
        (match content with
          | some characters => .string (String.ofList characters)
          | none => .garbled, rest)
    | '[' =>
      match skipSpace rest with
      | ']' :: rest => some (.array [], rest)
      | rest => readItems fuel [] rest
    | '{' =>
      match skipSpace rest with
      | '}' :: rest => some (.object [], rest)
      | rest => readMembers fuel (some []) rest
    | _ => readNumber (c :: rest)

/-- Reads the items of an array up to its end; those read so far come in reverse. -/
def readItems : Nat → List Json → List Char → Option (Json × List Char)
  | 0, _, _ => none
  | fuel + 1, soFar, text =>
    match readValue fuel text with
    | none => none
    | some (item, rest) =>
      match skipSpace rest with
      | ',' :: rest => readItems fuel (item :: soFar) (skipSpace rest)
      | ']' :: rest => some (.array (item :: soFar).reverse, rest)
      | _ => none

/-- Reads the members of an object up to its end; those read so far come in reverse. `none` says
that a name among them holds half a surrogate pair. -/
def readMembers : Nat → Option (List (String × Json)) → List Char → Option (Json × List Char)
  | 0, _, _ => none
  | fuel + 1, soFar, text =>
    match text with
    | '"' :: rest =>
      match readString (rest.length + 1) (some []) rest with
      | some (name, rest) =>
        match skipSpace rest with
        | ':' :: rest =>
          match readValue fuel (skipSpace rest) with
          | none => none
          | some (value, rest) =>
            let soFar := do
              let characters ← name
              return (String.ofList characters, value) :: (← soFar)
            match skipSpace rest with
            | ',' :: rest => readMembers fuel soFar (skipSpace rest)
            | '}' :: rest =>
              some (match soFar with
                | some members => .object members.reverse
                | none => .garbled, rest)
            | _ => none
        | _ => none
      | none => none
    | _ => none

end

/-- Reads a text that is one JSON value and blanks around it. -/
def read? (text : String) : Option Json :=
  let characters := skipSpace text.toList
  match readValue (characters.length + 1) characters with
  | some (value, rest) => if (skipSpace rest).isEmpty then some value else none
  | none => none

end Zonecast.Json
