/-
The smallest parts of TOML text: blanks, comments and line ends, the four kinds of string, and the
parts of a key. Every reader takes a part from the front of the text and answers what it denotes
with the text that is left, or nothing where the front is no such part.
-/
import Zonecast.Text.Letter

namespace Zonecast.Toml

open Zonecast.Text

/-! ### Blanks -/

/-- A space or a tab. -/
def isSpace (c : Char) : Bool :=
  c == ' ' || c == '\t'

/-- A character that may stand inside a line: no control character but the tab. -/
def isLineChar (c : Char) : Bool :=
  c == '\t' || (' ' ≤ c && c != '\x7f')

/-- Skips spaces and tabs. -/
def skipSpace (text : List Char) : List Char :=
  text.dropWhile isSpace

/-- Takes a line end: a line feed, with or without a carriage return before it. -/
def takeLineEnd : List Char → Option (List Char)
  | '\n' :: rest => some rest
  | '\r' :: '\n' :: rest => some rest
  | _ => none

/-- Skips a comment, if there is one. -/
def skipComment : List Char → List Char
  | '#' :: rest => rest.dropWhile isLineChar
  | text => text

/-- Takes what may follow the last part of a line, and the line end or the end of the text. -/
def takeLineRest (text : List Char) : Option (List Char) :=
  match skipComment (skipSpace text) with
  | [] => some []
  | rest => takeLineEnd rest

/-- Skips blanks, comments and line ends. A comment must end in a line end. The number bounds the
line ends. -/
def skipLines : Nat → List Char → Option (List Char)
  | 0, text => some text
  | lines + 1, text =>
    match skipSpace text with
    | '#' :: rest => (takeLineEnd (rest.dropWhile isLineChar)).bind (skipLines lines)
    | rest =>
      match takeLineEnd rest with
      | some rest => skipLines lines rest
      | none => some rest

/-- Skips blanks and line ends, for so many line ends at most. -/
def skipBlankLines : Nat → List Char → List Char
  | 0, text => text
  | lines + 1, text =>
    match takeLineEnd (skipSpace text) with
    | some rest => skipBlankLines lines rest
    | none => skipSpace text

/-! ### Strings -/

/-- The character of a value, unless it is half of a surrogate pair or beyond the last one. -/
def scalar? (value : Nat) : Option Char :=
  if value < 0xd800 ∨ (0xdfff < value ∧ value < 0x110000) then some (Char.ofNat value) else none

/-- The value of so many hexadecimal digits, and the text left. -/
def takeHex (count : Nat) (text : List Char) : Option (Nat × List Char) := do
  let digits := text.take count
  if digits.length < count then none
  else
    let value ← digits.foldlM (fun value c => (hexValue? c).map (value * 16 + ·)) 0
    return (value, text.drop count)

/-- Takes the part of an escape that follows its backslash. -/
def takeEscape : List Char → Option (Char × List Char)
  | 'b' :: rest => some ('\x08', rest)
  | 't' :: rest => some ('\t', rest)
  | 'n' :: rest => some ('\n', rest)
  | 'f' :: rest => some ('\x0c', rest)
  | 'r' :: rest => some ('\r', rest)
  | '"' :: rest => some ('"', rest)
  | '\\' :: rest => some ('\\', rest)
  | 'u' :: rest => do
    let (value, rest) ← takeHex 4 rest
    return (← scalar? value, rest)
  | 'U' :: rest => do
    let (value, rest) ← takeHex 8 rest
    return (← scalar? value, rest)
  | _ => none

/-- The rest of a string between single double quotes. The number bounds the characters, and the
read ones are gathered in reverse. -/
def takeBasic : Nat → List Char → List Char → Option (String × List Char)
  | 0, _, _ => none
  | _ + 1, _, [] => none
  | _ + 1, read, '"' :: rest => some (String.ofList read.reverse, rest)
  | left + 1, read, '\\' :: rest => do
    let (c, rest) ← takeEscape rest
    takeBasic left (c :: read) rest
  | left + 1, read, c :: rest => if isLineChar c then takeBasic left (c :: read) rest else none

/-- The rest of a string between single apostrophes, where nothing is escaped. -/
def takeLiteral (text : List Char) : Option (String × List Char) :=
  let content := text.takeWhile fun c => isLineChar c && c != '\''
  match text.drop content.length with
  | '\'' :: rest => some (String.ofList content, rest)
  | _ => none

/-- What a run of quotes inside a string of several lines means: one or two belong to the string,
three to five end it, the first ones beyond three belonging to it. -/
def closingRun (quote : Char) (text : List Char) : Option (Nat × Bool) :=
  match (text.takeWhile (· == quote)).length with
  | 0 => none
  | count => if count < 3 then some (count, false) else if count ≤ 5 then some (count, true)
    else some (5, true)

/-- The rest of a string of several lines. `escaped` says whether a backslash escapes; a backslash
at the end of a line then joins it to the next text. The number bounds the characters. -/
def takeLines (quote : Char) (escaped : Bool) :
    Nat → List Char → List Char → Option (String × List Char)
  | 0, _, _ => none
  | left + 1, read, text =>
    match closingRun quote text with
    | some (count, true) =>
      some (String.ofList (List.replicate (count - 3) quote ++ read).reverse, text.drop count)
    | some (count, false) =>
      takeLines quote escaped left (List.replicate count quote ++ read) (text.drop count)
    | none =>
      match takeLineEnd text, text with
      | some rest, _ => takeLines quote escaped left ('\n' :: read) rest
      | none, [] => none
      | none, c :: rest =>
        if escaped && c == '\\' then
          match takeLineEnd (skipSpace rest) with
          | some rest => takeLines quote escaped left read (skipBlankLines left rest)
          | none => do
            let (c, rest) ← takeEscape rest
            takeLines quote escaped left (c :: read) rest
        else if isLineChar c then takeLines quote escaped left (c :: read) rest
        else none

/-- The text after a line end that directly follows the opening quotes. -/
def skipFirstLineEnd (text : List Char) : List Char :=
  (takeLineEnd text).getD text

/-- Takes a string of any kind. -/
def takeString : List Char → Option (String × List Char)
  | '"' :: '"' :: '"' :: rest => takeLines '"' true (rest.length + 1) [] (skipFirstLineEnd rest)
  | '\'' :: '\'' :: '\'' :: rest =>
    takeLines '\'' false (rest.length + 1) [] (skipFirstLineEnd rest)
  | '"' :: rest => takeBasic (rest.length + 1) [] rest
  | '\'' :: rest => takeLiteral rest
  | _ => none

/-! ### Keys -/

/-- A character of a bare key. -/
def isBareKeyChar (c : Char) : Bool :=
  isLetter c || isDigit c || c == '-' || c == '_'

/-- Takes one part of a key: bare, or a string of one line. -/
def takeKeyPart : List Char → Option (String × List Char)
  | '"' :: rest => takeBasic (rest.length + 1) [] rest
  | '\'' :: rest => takeLiteral rest
  | text =>
    match text.takeWhile isBareKeyChar with
    | [] => none
    | part => some (String.ofList part, text.dropWhile isBareKeyChar)

/-- Takes the parts of a key, between dots and with blanks around each, for so many parts at
most. -/
def takeKey : Nat → List Char → Option (List String × List Char)
  | 0, _ => none
  | parts + 1, text => do
    let (part, rest) ← takeKeyPart (skipSpace text)
    match skipSpace rest with
    | '.' :: rest => do
      let (others, rest) ← takeKey parts rest
      return (part :: others, rest)
    | rest => return ([part], rest)

end Zonecast.Toml
