/-
The zone backend: the server that holds the zones. Its interface is fourteen calls, each answered
with a value or with one of three failures: the call did not get through, the server refused it
with a status, or what it names is not there.
-/
import Zonecast.Process
import Zonecast.Zone.Wire

namespace Zonecast.Backend

open Zone

/-- A call to the zone backend. -/
inductive Call
  /-- The zones, without record sets. -/
  | listZones
  /-- A zone with its record sets, serial, signing state and account. -/
  | getZone (zone : String)
  | createZone (creation : Creation)
  /-- Applies record set changes in one request. -/
  | patchZone (zone : String) (recordSets : List RecordSet)
  | updateZone (zone : String) (settings : Settings)
  | rectifyZone (zone : String)
  | listKeys (zone : String)
  | createKey (zone : String) (key : SigningKey)
  | setKeyActive (zone : String) (key : UInt32) (active : Bool)
  | deleteKey (zone : String) (key : UInt32)
  | getMetadata (zone kind : String)
  | createMetadata (zone : String) (metadata : Metadata)
  | getTransferKey (name : String)
  | createTransferKey (key : TransferKey)
  deriving DecidableEq

/-- What a call that succeeds is answered with. -/
def Value : Call → Type
  | .listZones => List Detail
  | .getZone _ | .createZone _ => Detail
  | .listKeys _ => List SigningKey
  | .createKey _ _ => SigningKey
  | .getMetadata _ _ => Metadata
  | .getTransferKey _ | .createTransferKey _ => TransferKey
  | .patchZone _ _ | .updateZone _ _ | .rectifyZone _ | .setKeyActive _ _ _ | .deleteKey _ _
  | .createMetadata _ _ => Unit

/-- The word for a call in messages. -/
def Call.operation : Call → String
  | .listZones => "list_zones"
  | .getZone _ => "get_zone"
  | .createZone _ => "create_zone"
  | .patchZone _ _ => "patch_zone"
  | .updateZone _ _ => "update_zone"
  | .rectifyZone _ => "rectify_zone"
  | .listKeys _ => "list_cryptokeys"
  | .createKey _ _ => "create_cryptokey"
  | .setKeyActive _ _ _ => "set_cryptokey_active"
  | .deleteKey _ _ => "delete_cryptokey"
  | .getMetadata _ _ => "get_metadata"
  | .createMetadata _ _ => "create_metadata"
  | .getTransferKey _ => "get_tsig_key"
  | .createTransferKey _ => "create_tsig_key"

/-- Whether a call asks the backend to change something. -/
def Call.isWrite : Call → Bool
  | .listZones | .getZone _ | .listKeys _ | .getMetadata _ _ | .getTransferKey _ => false
  | _ => true

/-- Why a call fails. -/
inductive Error
  /-- The request or its answer was lost, or the answer could not be read. -/
  | transport (operation : String)
  | status (operation : String) (code : Nat) (message : String)
  | notFound (operation : String)
  deriving DecidableEq, Repr

/-- Whether the failure says that the thing asked for is not there. -/
def Error.isNotFound : Error → Bool
  | .notFound _ => true
  | _ => false

/-- The wording of a failure. What the transport said is not part of it. -/
def Error.message : Error → String
  | .transport operation => "PowerDNS " ++ operation ++ " request failed"
  | .status operation code message =>
    "PowerDNS " ++ operation ++ " failed with " ++ toString code ++ ": " ++ message
  | .notFound operation => "PowerDNS " ++ operation ++ ": not found"

end Backend

/-- The interface of the zone backend. -/
def Backend : Interface where
  Call := Backend.Call
  Reply request := Except Backend.Error (Backend.Value request)

end Zonecast
