/-
From a zone name to the id the backend knows it by. The backend's list is searched in bare form;
a listed zone is read in full, a missing one is created with its SOA and NS sets. Either way the
zone then goes through an upkeep pass, and only then its id is remembered.
-/
import Zonecast.Directory.Cache
import Zonecast.Upkeep.Pass

namespace Zonecast

namespace Directory

open Zone Upkeep

/-- Why a name is not resolved. -/
inductive Error
  /-- The zones could not be listed or read. -/
  | unavailable (zone : String) (source : Backend.Error)
  | notCreated (zone : String) (source : Backend.Error)
  deriving DecidableEq, Repr

/-- The wording of a failure. -/
def Error.message : Error → String
  | .unavailable zone source =>
    "DNS backend unavailable while resolving " ++ zone ++ ": " ++ source.message
  | .notCreated zone source => "failed to create zone " ++ zone ++ ": " ++ source.message

/-- The request that creates a missing zone. -/
def creation (defaults : Defaults) (zone : String) : Creation :=
  ⟨zone, "Master", [defaults.authority zone 1, defaults.nameservers zone]⟩

/-- A backend call with the failure it counts as. -/
def askOr (failure : Backend.Error → Error) (request : Backend.Call) :
    ExceptT Error (Process Upkeep) (Backend.Value request) :=
  ExceptT.mk (.call (.backend request) fun reply => .done (reply.mapError failure))

/-- Finds or creates a zone on the backend. -/
def findOrCreate (defaults : Defaults) (name : String) :
    ExceptT Error (Process Upkeep) Detail := do
  let zones ← askOr (.unavailable name) .listZones
  match zones.find? fun zone => Name.bare zone.name == Name.bare name with
  | some listed => askOr (.unavailable name) (.getZone listed.id)
  | none => askOr (.notCreated name) (.createZone (creation defaults name))

/-- Finds or creates a zone, keeps it up, and answers its id. -/
def load (defaults : Defaults) (name : String) : Process Upkeep (Except Error String) := do
  match ← (findOrCreate defaults name).run with
  | .error error => return .error error
  | .ok zone =>
    pass defaults zone
    return .ok zone.id

/-- The id of the zone of a name, in any spelling. -/
def resolve (defaults : Defaults) (name : String) :
    Process (Cached Upkeep) (Except Error String) :=
  getOrLoad (Name.canonical name) (load defaults (Name.canonical name))

end Directory

end Zonecast
