/-
Decimal integers in text. A reader accepts an optional sign and ASCII digits, leading zeros
included, and nothing else: no blanks, no separators. It tells three faults apart, because two
of them are shown to the sender of a form: an empty text, a character that is no digit, and a
number outside the range that the field can hold. A foreign character late in a text is found
only if the number did not leave the range before it, since the digits are read in order.
-/
import Zonecast.Text.Letter

namespace Zonecast.Text

/-- Why a text is no integer of the wanted range. -/
inductive IntegerFault
  | empty
  | invalidDigit
  | aboveRange
  | belowRange
  deriving DecidableEq, Repr

/-- The wording of each fault. -/
def IntegerFault.message : IntegerFault → String
  | .empty => "cannot parse integer from empty string"
  | .invalidDigit => "invalid digit found in string"
  | .aboveRange => "number too large to fit in target type"
  | .belowRange => "number too small to fit in target type"

/-- Reads digits onto a value that may not leave the range; `negative` makes them count down. -/
def readDigits (lowest highest : Int) (negative : Bool) (value : Int) :
    List Char → Except IntegerFault Int
  | [] => .ok value
  | c :: rest =>
    if !isDigit c then .error .invalidDigit
    else
      let next := if negative then value * 10 - digitValue c else value * 10 + digitValue c
      if next < lowest then .error .belowRange
      else if highest < next then .error .aboveRange
      else readDigits lowest highest negative next rest

/-- Reads an integer between two bounds. Only a range that reaches below zero takes a minus. -/
def readInteger (lowest highest : Int) (text : List Char) : Except IntegerFault Int :=
  match text with
  | [] => .error .empty
  | '+' :: [] => .error .invalidDigit
  | '-' :: [] => .error .invalidDigit
  | '+' :: digits => readDigits lowest highest false 0 digits
  | '-' :: digits =>
    if lowest < 0 then readDigits lowest highest true 0 digits else .error .invalidDigit
  | digits => readDigits lowest highest false 0 digits

/-- A signed integer of 64 bits. -/
def readInt64 (text : String) : Except IntegerFault Int64 :=
  (readInteger Int64.minValue.toInt Int64.maxValue.toInt text.toList).map Int64.ofInt

/-- A count of 32 bits. -/
def readUInt32 (text : String) : Except IntegerFault Nat :=
  (readInteger 0 4294967295 text.toList).map Int.toNat

end Zonecast.Text
