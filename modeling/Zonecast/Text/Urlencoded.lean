/-
Form-encoded text: pairs between ampersands, each a name and a value around its first equals
sign. A byte is written as itself if it is a letter, a digit or one of `*-._`, a blank as a plus,
and any other byte as a percent sign and two hexadecimal digits. Reading is lenient: a percent
sign without two digits stands for itself, empty pairs are skipped, and bytes that are no
characters become replacement characters.
-/
import Zonecast.Text.Letter
import Zonecast.Text.Pieces
import Zonecast.Text.Utf8

namespace Zonecast.Text.Urlencoded

/-! ### Components -/

/-- Whether a byte stands for itself. -/
def isPlain (byte : UInt8) : Bool :=
  let c := Char.ofNat byte.toNat
  byte < 0x80 && (isLetter c || isDigit c || c == '*' || c == '-' || c == '.' || c == '_')

/-- The written form of a byte. -/
def encodeByte (byte : UInt8) : List Char :=
  if isPlain byte then [Char.ofNat byte.toNat]
  else if byte = 0x20 then ['+']
  else ['%', hexDigit (byte.toNat / 16), hexDigit (byte.toNat % 16)]

/-- The written form of a name or value. -/
def encode (text : String) : String :=
  String.ofList ((utf8 text).flatMap encodeByte)

/-- The value of a byte that is a hexadecimal digit. -/
def hexByte? (byte : UInt8) : Option Nat :=
  hexValue? (Char.ofNat byte.toNat)

/-- The bytes that written bytes stand for: 43 is a plus, 37 a percent sign. -/
def decodeBytes : List UInt8 → List UInt8
  | [] => []
  | 43 :: rest => 32 :: decodeBytes rest
  | 37 :: high :: low :: rest =>
    match hexByte? high, hexByte? low with
    | some upper, some lower => UInt8.ofNat (upper * 16 + lower) :: decodeBytes rest
    | _, _ => 37 :: decodeBytes (high :: low :: rest)
  | byte :: rest => byte :: decodeBytes rest

/-- The text that a written name or value stands for. -/
def decode (written : List Char) : String :=
  String.ofList (ofUtf8Lossy (decodeBytes (utf8 (String.ofList written))))

/-! ### Pairs -/

/-- A pair around its first equals sign; without one, the value is empty. -/
def decodePair (written : List Char) : String × String :=
  (decode (written.takeWhile (· != '=')), decode ((written.dropWhile (· != '=')).drop 1))

/-- The pairs of a form-encoded text, in order. -/
def decodePairs (text : String) : List (String × String) :=
  ((pieces '&' text.toList).filter fun piece => !piece.isEmpty).map decodePair

/-- The form-encoded text of some pairs. -/
def encodePairs (pairs : List (String × String)) : String :=
  join '&' (pairs.map fun pair => encode pair.1 ++ "=" ++ encode pair.2)

end Zonecast.Text.Urlencoded
