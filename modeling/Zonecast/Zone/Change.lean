/-
From staged operations to changes of record sets. An operation asserts one record, or removes one
type at a name, or removes every type at a name. `changes` collapses a list of them into at most
one change for each name and type, whatever the order in which they were staged:

  * an assertion wins over every removal of its name and type;
  * a removal of all types at a name stands for the four supported types, unless anything is
    asserted at that name, in which case it says nothing;
  * unsupported types are dropped.

Names are compared in canonical form. A replacement holds the asserted contents once each, in
order of first assertion, with the time to live of the first.
-/
import Zonecast.Name.Basic
import Zonecast.Zone.RecordType

namespace Zonecast.Zone

/-- A staged operation. -/
inductive Operation
  /-- This content belongs to the final record set of the name and type. -/
  | assert (name : String) (type : RecordType) (ttl : UInt32) (content : String)
  /-- Removes the records of one type at the name. -/
  | remove (name : String) (type : RecordType)
  /-- Removes the records of every type at the name. -/
  | removeAll (name : String)
  deriving DecidableEq, Repr

/-- What a change does to its record set. -/
inductive Mutation
  | replace (values : List String)
  | delete
  deriving DecidableEq, Repr

/-- One change of a record set. -/
structure Change where
  name : String
  type : RecordType
  ttl : UInt32
  mutation : Mutation
  deriving DecidableEq, Repr

namespace Change

/-- Whether the change deletes its record set. -/
def isDelete (change : Change) : Bool :=
  match change.mutation with
  | .delete => true
  | .replace _ => false

/-- Whether the change is the one of this name and type. -/
def concerns (change : Change) (name : String) (type : RecordType) : Bool :=
  change.name == name && change.type == type

/-- The change after one more assertion of its name and type. -/
def addContent (change : Change) (ttl : UInt32) (content : String) : Change :=
  match change.mutation with
  | .replace values =>
    if content ∈ values then change
    else { change with mutation := .replace (values ++ [content]) }
  | .delete => { change with ttl := ttl, mutation := .replace [content] }

end Change

/-- The canonical names at which anything is asserted, of whatever type. -/
def assertedNames (operations : List Operation) : List String :=
  operations.filterMap fun
    | .assert name _ _ _ => some (Name.canonical name)
    | _ => none

/-- Records an assertion: the change of its key gains the content, or is created at the end. -/
def stageAssert (name : String) (type : RecordType) (ttl : UInt32) (content : String)
    (changes : List Change) : List Change :=
  if changes.any (·.concerns name type) then
    changes.map fun change =>
      if change.concerns name type then change.addContent ttl content else change
  else changes ++ [⟨name, type, ttl, .replace [content]⟩]

/-- Records a removal: it creates a deletion unless its key has a change already. -/
def stageRemove (name : String) (changes : List Change) (type : RecordType) : List Change :=
  if changes.any (·.concerns name type) then changes
  else changes ++ [⟨name, type, 0, .delete⟩]

/-- Records one operation. -/
def stage (asserted : List String) (changes : List Change) : Operation → List Change
  | .assert name type ttl content =>
    if type.isSupported then stageAssert (Name.canonical name) type ttl content changes
    else changes
  | .remove name type =>
    if type.isSupported then stageRemove (Name.canonical name) changes type else changes
  | .removeAll name =>
    if Name.canonical name ∈ asserted then changes
    else RecordType.supported.foldl (stageRemove (Name.canonical name)) changes

/-- The changes that a list of operations comes to, in the order in which their keys arose. -/
def changes (operations : List Operation) : List Change :=
  operations.foldl (stage (assertedNames operations)) []

end Zonecast.Zone
