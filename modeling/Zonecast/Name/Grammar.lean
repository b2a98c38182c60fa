/-
Which names the worker accepts in its configuration. A label is 1 to 63 letters, digits and
hyphens, starts and ends with no hyphen, and keeps the hyphens in its third and fourth place for
encoded names, which start with `xn--`. A name is labels between dots, at most 253 bytes without
the dots at its end. Each fault has its own word, and the order of the checks decides which of
two faults is told.
-/
import Zonecast.Text.Blank
import Zonecast.Text.Letter
import Zonecast.Text.Pieces

namespace Zonecast.Name

open Zonecast.Text

/-- Why a name is refused. -/
inductive Fault
  | empty
  | labelTooLong
  | nameTooLong
  | invalidCharacters
  | hyphenAtEdge
  | reservedHyphens
  deriving DecidableEq, Repr

/-- The wording of each fault. -/
def Fault.message : Fault → String
  | .empty => "name is empty"
  | .labelTooLong => "label too long (max 63 characters)"
  | .nameTooLong => "name too long (max 253 characters)"
  | .invalidCharacters => "label contains invalid characters (only a-z, 0-9, and '-' allowed)"
  | .hyphenAtEdge => "label must not start or end with '-'"
  | .reservedHyphens =>
    "label must not contain '--' in the third and fourth position unless it is an A-label"

/-- The size of a text in bytes of UTF-8. -/
def byteSize : List Char → Nat
  | [] => 0
  | c :: rest => c.utf8Size + byteSize rest

/-- The characters of a label. -/
def isLabelChar (c : Char) : Bool :=
  ('a' ≤ c && c ≤ 'z') || isDigit c || c == '-'

/-- The first fault of a label, in the order of the checks. -/
def labelFault? (label : List Char) : Option Fault :=
  if label.isEmpty then some .empty
  else if 63 < byteSize label then some .labelTooLong
  else if !label.all isLabelChar then some .invalidCharacters
  else if label.head? == some '-' || label.getLast? == some '-' then some .hyphenAtEdge
  else if (label.drop 2).take 2 == ['-', '-'] && !(['x', 'n', '-', '-'].isPrefixOf label) then
    some .reservedHyphens
  else none

/-- The first fault of a name: of the whole name, else of its leftmost bad label. -/
def nameFault? (name : List Char) : Option Fault :=
  let body := dropEnd (· == '.') name
  if body.isEmpty then some .empty
  else if 253 < byteSize body then some .nameTooLong
  else (pieces '.' body).findSome? labelFault?

/-- Checks one label. -/
def validateLabel (label : String) : Except Fault Unit :=
  match labelFault? label.toList with
  | some fault => .error fault
  | none => .ok ()

/-- Checks a host or domain name, with or without dots at its end. -/
def validate (name : String) : Except Fault Unit :=
  match nameFault? name.toList with
  | some fault => .error fault
  | none => .ok ()

end Zonecast.Name
