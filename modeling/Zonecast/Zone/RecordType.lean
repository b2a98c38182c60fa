/-
The record types that are published. Four are supported; any other type is carried by its
capitalised name and dropped when changes are computed.
-/
import Zonecast.Text.Letter

namespace Zonecast

open Zonecast.Text

/-- A record type. -/
inductive RecordType
  | a
  | aaaa
  | ds
  | ns
  | other (name : String)
  deriving DecidableEq, Repr

namespace RecordType

/-- The types that a removal of all types stands for, in this order. -/
def supported : List RecordType := [a, aaaa, ds, ns]

/-- The written name. -/
def text : RecordType → String
  | a => "A"
  | aaaa => "AAAA"
  | ds => "DS"
  | ns => "NS"
  | other name => name

/-- Whether records of this type are published. -/
def isSupported : RecordType → Bool
  | other _ => false
  | _ => true

/-- The type of a name in any case. -/
def ofText (name : String) : RecordType :=
  let name := upper name
  if name = "A" then a
  else if name = "AAAA" then aaaa
  else if name = "DS" then ds
  else if name = "NS" then ns
  else other name

theorem mem_supported_iff (type : RecordType) : type ∈ supported ↔ type.isSupported = true := by
  cases type <;> simp [supported, isSupported]

end RecordType

end Zonecast
