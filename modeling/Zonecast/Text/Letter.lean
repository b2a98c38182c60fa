/-
Letter case. Host and domain names fold only the 26 Latin letters of ASCII, whatever other
scripts a text contains, so the two maps here leave every other character alone.
-/

namespace Zonecast.Text

/-- The lower-case form of an ASCII capital; every other character is itself. -/
def lowerChar (c : Char) : Char :=
  if 'A' ≤ c && c ≤ 'Z' then Char.ofNat (c.toNat + 32) else c

/-- The upper-case form of an ASCII small letter; every other character is itself. -/
def upperChar (c : Char) : Char :=
  if 'a' ≤ c && c ≤ 'z' then Char.ofNat (c.toNat - 32) else c

/-- The text with its ASCII capitals made small. -/
def lower (text : String) : String :=
  String.ofList (text.toList.map lowerChar)

/-- The text with its ASCII small letters made capital. -/
def upper (text : String) : String :=
  String.ofList (text.toList.map upperChar)

/-- A decimal digit of ASCII. -/
def isDigit (c : Char) : Bool :=
  '0' ≤ c && c ≤ '9'

/-- A Latin letter of ASCII, of either case. -/
def isLetter (c : Char) : Bool :=
  ('a' ≤ c && c ≤ 'z') || ('A' ≤ c && c ≤ 'Z')

/-- The value of a decimal digit. -/
def digitValue (c : Char) : Nat :=
  c.toNat - '0'.toNat

/-- The value of a hexadecimal digit of either case, if the character is one. -/
def hexValue? (c : Char) : Option Nat :=
  if isDigit c then some (digitValue c)
  else if 'a' ≤ c && c ≤ 'f' then some (c.toNat - 'a'.toNat + 10)
  else if 'A' ≤ c && c ≤ 'F' then some (c.toNat - 'A'.toNat + 10)
  else none

/-- The capital hexadecimal digit of a value below sixteen. -/
def hexDigit (value : Nat) : Char :=
  if value < 10 then Char.ofNat ('0'.toNat + value) else Char.ofNat ('A'.toNat + (value - 10))

end Zonecast.Text
