/-
Tables under construction, and the rules by which text may add to them. A table comes to be in one
of three ways, and may be added to accordingly:

  * headed: by a header of its own, which it may have once only;
  * implied: by a header of a table inside it; it may still be given a header of its own;
  * dotted: by a dotted key; it may be added to by further dotted keys only.

A header may lead through tables of any kind, and through an array of tables to its last member; a
dotted key only through tables without a header. A value is closed to both.
-/
import Zonecast.Toml.Basic

namespace Zonecast.Toml

/-- How a table came to be. -/
inductive Origin
  | headed
  | implied
  | dotted
  deriving DecidableEq, Repr

/-- A member of a table under construction. -/
inductive Node where
  | value (value : Toml)
  | table (origin : Origin) (members : List (String × Node))
  /-- An array of tables that headers add to; the last member comes first. -/
  | tables (items : List (List (String × Node)))
  deriving Inhabited

/-- The members of a table under construction. -/
abbrev Members := List (String × Node)

namespace Members

/-- The member of this name. -/
def find? (members : Members) (name : String) : Option Node :=
  (List.find? (fun member => member.1 == name) members).map (·.2)

/-- Puts a member in place of the one of its name, or at the end. -/
def put (members : Members) (name : String) (node : Node) : Members :=
  if (members.find? name).isSome then
    members.map fun member => if member.1 == name then (name, node) else member
  else members ++ [(name, node)]

/-- Changes the table at the end of a path. Missing tables on the way come to be with the origin
`fresh`; a table in the way must have an origin that is open. -/
def within (fresh : Origin) (isOpen : Origin → Bool)
    (change : Origin → Members → Option Members) :
    List String → Origin → Members → Option Members
  | [], origin, members => change origin members
  | name :: path, _, members =>
    match members.find? name with
    | none => do
      let inner ← within fresh isOpen change path fresh []
      return members.put name (.table fresh inner)
    | some (.value _) => none
    | some (.table origin inner) =>
      if isOpen origin then do
        let inner ← within fresh isOpen change path origin inner
        return members.put name (.table origin inner)
      else none
    | some (.tables []) => none
    | some (.tables (last :: before)) => do
      let last ← within fresh isOpen change path .headed last
      return members.put name (.tables (last :: before))

/-- Changes the table that a header leads to. -/
def atHeader (path : List String) (change : Origin → Members → Option Members)
    (members : Members) : Option Members :=
  within .implied (fun _ => true) change path .headed members

/-- Adds a member that is not there. -/
def insert (name : String) (value : Toml) (members : Members) : Option Members :=
  if (members.find? name).isSome then none else some (members ++ [(name, .value value)])

/-- Adds what a key with a value says. A dotted key must end in a table that came to be by a
dotted key. -/
def assign (path : List String) (name : String) (value : Toml) (origin : Origin)
    (members : Members) : Option Members :=
  within .dotted (· != .headed)
    (fun origin members =>
      if !path.isEmpty && origin != .dotted then none else members.insert name value)
    path origin members

/-- Gives a table a header of its own. -/
def head (name : String) (members : Members) : Option Members :=
  match members.find? name with
  | none => some (members ++ [(name, .table .headed [])])
  | some (.table .implied inner) => some (members.put name (.table .headed inner))
  | some _ => none

/-- Adds a table to an array of tables. -/
def headItem (name : String) (members : Members) : Option Members :=
  match members.find? name with
  | none => some (members ++ [(name, .tables [[]])])
  | some (.tables items) => some (members.put name (.tables ([] :: items)))
  | some _ => none

end Members

mutual

/-- The finished value of a member. -/
def Node.finish : Node → Toml
  | .value value => value
  | .table _ members => .table (finishMembers members)
  | .tables items => .array (finishItems items).reverse

/-- The finished members of a table. -/
def finishMembers : List (String × Node) → List (String × Toml)
  | [] => []
  | (name, node) :: rest => (name, node.finish) :: finishMembers rest

/-- The finished members of an array of tables. -/
def finishItems : List (List (String × Node)) → List Toml
  | [] => []
  | members :: rest => .table (finishMembers members) :: finishItems rest

end

end Zonecast.Toml
