/-
JSON values. Objects keep their members in written order, repeated names included, because a
record is refused when a known member is repeated. Numbers are split by what a record can hold:
an integer of 64 bits, signed or not, is kept as its value; every other number is kept as its
text, since no record takes one. A string whose escapes denote no text (half of a surrogate pair)
is kept as `garbled`, and so is an object with a member of such a name: it is harmless where a
member is skipped and a fault where one is read.
-/

namespace Zonecast

/-- A JSON value. -/
inductive Json where
  | null
  | bool (value : Bool)
  | integer (value : Int)
  | fraction (text : String)
  | string (value : String)
  | garbled
  | array (items : List Json)
  | object (members : List (String × Json))
  deriving Inhabited

namespace Json

/-- The values of the members of this name, in written order. -/
def valuesOf (name : String) (members : List (String × Json)) : List Json :=
  members.filterMap fun member => if member.1 = name then some member.2 else none

/-- The last member of this name; a missing member reads as null. -/
def member (value : Json) (name : String) : Json :=
  match value with
  | .object members => (valuesOf name members).getLast?.getD .null
  | _ => .null

/-- Whether the value is null. -/
def isNull : Json → Bool
  | .null => true
  | _ => false

/-- A natural number as a value. -/
def nat (value : Nat) : Json :=
  .integer value

/-- A list of strings as a value. -/
def strings (values : List String) : Json :=
  .array (values.map .string)

/-- A value or null. -/
def optional {α : Type} (encode : α → Json) : Option α → Json
  | none => .null
  | some value => encode value

end Json

end Zonecast
