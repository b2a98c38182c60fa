/-
Base64 in the standard alphabet. Three bytes are four characters; one or two bytes at the end are
two or three characters, whose unused bits must be zero. The padded form fills the last four up
with equals signs, and has exactly as many as that takes.
-/
import Zonecast.Text.Letter

namespace Zonecast.Text.Base64

/-- The character of a value below 64. -/
def charOf (value : Nat) : Char :=
  if value < 26 then Char.ofNat ('A'.toNat + value)
  else if value < 52 then Char.ofNat ('a'.toNat + (value - 26))
  else if value < 62 then Char.ofNat ('0'.toNat + (value - 52))
  else if value = 62 then '+' else '/'

/-- The value of a character. -/
def valueOf? (c : Char) : Option Nat :=
  if 'A' ≤ c && c ≤ 'Z' then some (c.toNat - 'A'.toNat)
  else if 'a' ≤ c && c ≤ 'z' then some (c.toNat - 'a'.toNat + 26)
  else if isDigit c then some (digitValue c + 52)
  else if c == '+' then some 62
  else if c == '/' then some 63
  else none

/-- The characters of some bytes, without padding. -/
def encode : List UInt8 → List Char
  | [] => []
  | [a] => [charOf (a.toNat / 4), charOf (a.toNat % 4 * 16)]
  | [a, b] =>
    [charOf (a.toNat / 4), charOf (a.toNat % 4 * 16 + b.toNat / 16), charOf (b.toNat % 16 * 4)]
  | a :: b :: c :: rest =>
    charOf (a.toNat / 4) :: charOf (a.toNat % 4 * 16 + b.toNat / 16) ::
      charOf (b.toNat % 16 * 4 + c.toNat / 64) :: charOf (c.toNat % 64) :: encode rest

/-- The bytes of some characters without padding. -/
def decode? : List Char → Option (List UInt8)
  | [] => some []
  | [_] => none
  | [a, b] => do
    let a ← valueOf? a
    let b ← valueOf? b
    if b % 16 = 0 then some [UInt8.ofNat (a * 4 + b / 16)] else none
  | [a, b, c] => do
    let a ← valueOf? a
    let b ← valueOf? b
    let c ← valueOf? c
    if c % 4 = 0 then
      some [UInt8.ofNat (a * 4 + b / 16), UInt8.ofNat (b % 16 * 16 + c / 4)]
    else none
  | a :: b :: c :: d :: rest => do
    let a ← valueOf? a
    let b ← valueOf? b
    let c ← valueOf? c
    let d ← valueOf? d
    let bytes ← decode? rest
    return UInt8.ofNat (a * 4 + b / 16) :: UInt8.ofNat (b % 16 * 16 + c / 4) ::
      UInt8.ofNat (c % 4 * 64 + d) :: bytes

/-- The equals signs after so many characters. -/
def padding (count : Nat) : List Char :=
  List.replicate ((4 - count % 4) % 4) '='

/-- The characters of some bytes, padded. -/
def encodePadded (bytes : List UInt8) : List Char :=
  let written := encode bytes
  written ++ padding written.length

/-- The bytes of some padded characters. -/
def decodePadded? (text : List Char) : Option (List UInt8) :=
  let written := text.takeWhile (· != '=')
  if text.drop written.length = padding written.length then decode? written else none

end Zonecast.Text.Base64
