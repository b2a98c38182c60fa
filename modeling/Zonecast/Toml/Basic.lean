/-
TOML values. Numbers with a fraction and points in time are kept as text, since no setting takes
one. A table keeps its members in the order in which they came to be; no name occurs twice.
-/

namespace Zonecast

/-- A TOML value. -/
inductive Toml where
  | string (value : String)
  | integer (value : Int)
  | fraction (text : String)
  | boolean (value : Bool)
  | moment (text : String)
  | array (items : List Toml)
  | table (members : List (String × Toml))
  deriving Inhabited

end Zonecast
