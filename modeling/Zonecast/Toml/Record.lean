/-
Records in TOML. A record is written as a table, whose unknown members are skipped, or as an array
with its fields in declared order, whose items beyond the last field are skipped. A point in time
counts as a table without known members.
-/
import Zonecast.Toml.Basic

namespace Zonecast.Toml

/-- The written values of a record's fields, in declared order; `none` where one is missing. -/
def fields? (names : List String) : Toml → Option (List (Option Toml))
  | .table members =>
    some (names.map fun name =>
      (members.find? fun member => member.1 == name).map (·.2))
  | .array items =>
    some ((items.take names.length).map some ++
      List.replicate (names.length - items.length) none)
  | .moment _ => some (names.map fun _ => none)
  | _ => none

/-- A field that must be written. -/
def required {α : Type} (decode : Toml → Option α) (field : Option Toml) : Option α :=
  field.bind decode

/-- A field with a default for when it is not written. -/
def defaulted {α : Type} (missing : α) (decode : Toml → Option α) : Option Toml → Option α
  | none => some missing
  | some value => decode value

/-- A field that may be missing. -/
def optional {α : Type} (decode : Toml → Option α) : Option Toml → Option (Option α)
  | none => some none
  | some value => (decode value).map some

def string? : Toml → Option String
  | .string value => some value
  | _ => none

def boolean? : Toml → Option Bool
  | .boolean value => some value
  | _ => none

/-- A count below a bound. -/
def count? (bound : Nat) : Toml → Option Nat
  | .integer value => if 0 ≤ value ∧ value < bound then some value.toNat else none
  | _ => none

def uint32? (value : Toml) : Option UInt32 :=
  (count? UInt32.size value).map UInt32.ofNat

/-- An array of values of one kind. -/
def list? {α : Type} (decode : Toml → Option α) : Toml → Option (List α)
  | .array items => items.mapM decode
  | _ => none

end Zonecast.Toml
