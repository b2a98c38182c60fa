/-
Upkeep of the TLD zones: what every zone is expected to look like, and the calls that the checks
make. A check reads the clock, talks to the zone backend and counts failures; it reaches neither
the registry nor the locks nor the queue, and its interface leaves no way to.
-/
import Zonecast.Backend
import Zonecast.Time.Instant

namespace Zonecast

namespace Upkeep

open Zone

/-- What every zone is expected to look like. -/
structure Defaults where
  primaryNameserver : String
  contact : String
  rootNameservers : List String
  ttl : UInt32
  signing : Bool
  transferKeys : Bool
  deriving DecidableEq, Repr

/-- The apex SOA set with this serial. -/
def Defaults.authority (defaults : Defaults) (zone : String) (serial : UInt32) : RecordSet :=
  .replacing (Name.canonical zone) "SOA" defaults.ttl
    [defaults.primaryNameserver ++ " " ++ defaults.contact ++ " " ++ toString serial.toNat ++
      " 900 1800 6048000 " ++ toString defaults.ttl.toNat]

/-- The apex NS set: the root nameservers in configured order. -/
def Defaults.nameservers (defaults : Defaults) (zone : String) : RecordSet :=
  .replacing (Name.canonical zone) "NS" defaults.ttl defaults.rootNameservers

/-- The checks that failures are counted for. -/
inductive Check
  | authority
  | nameservers
  | transferKey
  | signing
  deriving DecidableEq, Repr

/-- The word for a check where it labels a counter. -/
def Check.label : Check → String
  | .authority => "soa"
  | .nameservers => "ns"
  | .transferKey => "tsig"
  | .signing => "dnssec"

/-- A call that upkeep makes. -/
inductive Call
  | backend (request : Backend.Call)
  | now
  | countFailure (check : Check)
  | countRectifyFailure

/-- Why a check fails. -/
inductive Error
  | backend (error : Backend.Error)
  /-- The keys of a signed zone are not those its rotation state calls for. -/
  | inconsistent
  deriving DecidableEq, Repr

end Upkeep

/-- The interface of upkeep. -/
def Upkeep : Interface where
  Call := Upkeep.Call
  Reply
    | .backend request => Except Backend.Error (Backend.Value request)
    | .now => Instant
    | .countFailure _ => Unit
    | .countRectifyFailure => Unit

namespace Upkeep

/-- A part of a check, which may fail. -/
abbrev Step (α : Type) := ExceptT Error (Process Upkeep) α

/-- A backend call whose failure fails the check. -/
def ask (request : Backend.Call) : Step (Backend.Value request) :=
  ExceptT.mk (.call (.backend request) fun reply => .done (reply.mapError .backend))

/-- A backend call whose failure the check looks at. -/
def attempt (request : Backend.Call) : Step (Except Backend.Error (Backend.Value request)) :=
  ExceptT.lift (Process.perform (I := Upkeep) (.backend request))

/-- The reading of the clock. -/
def now : Step Instant :=
  ExceptT.lift (Process.perform (I := Upkeep) .now)

end Upkeep

end Zonecast
