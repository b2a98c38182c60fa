/-
Writing JSON text, without blanks between lexemes. Strings escape the quote, the backslash and
the control characters, by a letter where there is one; every other character stands for itself.
-/
import Zonecast.Json.Basic
import Zonecast.Text.Letter

namespace Zonecast.Json

open Zonecast.Text

/-- The letter that stands for a character after a backslash, if there is one. -/
def escapeLetter? : Char → Option Char
  | '"' => some '"'
  | '\\' => some '\\'
  | '\x08' => some 'b'
  | '\x0c' => some 'f'
  | '\n' => some 'n'
  | '\r' => some 'r'
  | '\t' => some 't'
  | _ => none

/-- The small hexadecimal digit of a value below sixteen. -/
def smallHexDigit (value : Nat) : Char :=
  lowerChar (hexDigit value)

/-- The written form of one character inside a string. -/
def escapeChar (c : Char) : List Char :=
  match escapeLetter? c with
  | some letter => ['\\', letter]
  | none =>
    if c.toNat < 0x20 then
      ['\\', 'u', '0', '0', smallHexDigit (c.toNat / 16), smallHexDigit (c.toNat % 16)]
    else [c]

/-- A string between quotes. -/
def quote (text : String) : String :=
  String.ofList ('"' :: (text.toList.flatMap escapeChar ++ ['"']))

/-- The separator before every item but the first. -/
def comma (first : Bool) : String :=
  if first then "" else ","

mutual

/-- The text of a value. -/
def render : Json → String
  | .null => "null"
  | .bool value => if value then "true" else "false"
  | .integer value => toString value
  | .fraction text => text
  | .string value => quote value
  | .garbled => "\"\\ufffd\""
  | .array items => "[" ++ renderItems true items ++ "]"
  | .object members => "\x7b" ++ renderMembers true members ++ "\x7d"

/-- The items of an array, with commas between them. -/
def renderItems (first : Bool) : List Json → String
  | [] => ""
  | item :: rest => comma first ++ render item ++ renderItems false rest

/-- The members of an object, with commas between them. -/
def renderMembers (first : Bool) : List (String × Json) → String
  | [] => ""
  | (name, value) :: rest =>
    comma first ++ quote name ++ ":" ++ render value ++ renderMembers false rest

end

end Zonecast.Json
