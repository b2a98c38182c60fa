/-
Reading records out of JSON values. A record is written as an object of named members, or as an
array of its fields in declared order; unknown members are skipped, a repeated known member is a
fault, and so is an array with more items than fields. A field that may be missing names its
default; null is a value of its own, which only optional fields take.

Every function answers an `Option`: the reader of a record learns only that the value is not one.
-/
import Zonecast.Json.Basic

namespace Zonecast.Json

/-! ### Fields -/

/-- The written values of a record's fields, in declared order; `none` where one is missing. -/
def fields? (names : List String) : Json → Option (List (Option Json))
  | .object members =>
    names.mapM fun name =>
      match valuesOf name members with
      | [] => some none
      | [value] => some (some value)
      | _ => none
  | .array items =>
    if items.length ≤ names.length then
      some (items.map some ++ List.replicate (names.length - items.length) none)
    else none
  | _ => none

/-- A field that must be written. -/
def required {α : Type} (decode : Json → Option α) (field : Option Json) : Option α :=
  field.bind decode

/-- A field with a default for when it is not written. -/
def defaulted {α : Type} (missing : α) (decode : Json → Option α) : Option Json → Option α
  | none => some missing
  | some value => decode value

/-! ### Values -/

def string? : Json → Option String
  | .string value => some value
  | _ => none

def bool? : Json → Option Bool
  | .bool value => some value
  | _ => none

/-- An integer between two bounds. -/
def integer? (lowest highest : Int) : Json → Option Int
  | .integer value => if lowest ≤ value ∧ value ≤ highest then some value else none
  | _ => none

def uint32? (value : Json) : Option UInt32 :=
  (integer? 0 4294967295 value).map fun number => UInt32.ofNat number.toNat

def int64? (value : Json) : Option Int64 :=
  (integer? (-9223372036854775808) 9223372036854775807 value).map Int64.ofInt

/-- An optional value: null is its absence. -/
def option? {α : Type} (decode : Json → Option α) : Json → Option (Option α)
  | .null => some none
  | value => (decode value).map some

/-- An array of values of one kind. -/
def list? {α : Type} (decode : Json → Option α) : Json → Option (List α)
  | .array items => items.mapM decode
  | _ => none

/-- One of several words, written as a string or as the only member of an object, with null for
its value. -/
def word? {α : Type} (choose : String → Option α) : Json → Option α
  | .string value => choose value
  | .object [(name, .null)] => choose name
  | _ => none

/-! ### Writing optional members -/

/-- A member that is left out when there is no value. -/
def memberIfSome {α : Type} (name : String) (encode : α → Json) :
    Option α → List (String × Json)
  | none => []
  | some value => [(name, encode value)]

/-- A member that is left out when its list is empty. -/
def memberIfAny {α : Type} (name : String) (encode : α → Json) (values : List α) :
    List (String × Json) :=
  if values.isEmpty then [] else [(name, .array (values.map encode))]

end Zonecast.Json
