/-
The calls that a rehearsal notes, and the record that is kept of each: an object of the operation
and what it was given.
-/
import Zonecast.Backend
import Zonecast.Publish.Record

namespace Zonecast.Rehearsal

/-- A call that was made. -/
inductive Event
  | backend (request : Backend.Call)
  | refresh (domains hosts : List String) (now : Instant)
  | acquire (resource name : String) (millis : Nat)
  | release (resource name : String)
  | enqueue (batch : Publish.Batch)
  | send (mail : Publish.Mail)
  | createWriter (tld : String)
  | stageDomain (name : String)
  | stageHost (name : String)
  | commit

/-- What a call to the zone backend was given. -/
def backendFields : Backend.Call → List (String × Json)
  | .listZones => []
  | .getZone zone | .rectifyZone zone | .listKeys zone => [("zone", .string zone)]
  | .createZone creation => [("body", creation.toJson)]
  | .patchZone zone recordSets =>
    [("zone", .string zone), ("rrsets", .array (recordSets.map Zone.RecordSet.toJson))]
  | .updateZone zone settings => [("zone", .string zone), ("body", settings.toJson)]
  | .createKey zone key => [("zone", .string zone), ("body", key.toJson)]
  | .setKeyActive zone key active =>
    [("zone", .string zone), ("key", .nat key.toNat), ("active", .bool active)]
  | .deleteKey zone key => [("zone", .string zone), ("key", .nat key.toNat)]
  | .getMetadata zone kind => [("zone", .string zone), ("kind", .string kind)]
  | .createMetadata zone metadata => [("zone", .string zone), ("body", metadata.toJson)]
  | .getTransferKey name => [("name", .string name)]
  | .createTransferKey key => [("body", key.toJson)]

namespace Event

/-- The word for what was called. -/
def operation : Event → String
  | .backend request => request.operation
  | .refresh _ _ _ => "request_refresh"
  | .acquire _ _ _ => "try_acquire"
  | .release _ _ => "release"
  | .enqueue _ => "enqueue"
  | .send _ => "send"
  | .createWriter _ => "writer_create"
  | .stageDomain _ => "writer_domain"
  | .stageHost _ => "writer_host"
  | .commit => "commit"

/-- What the call was given. -/
def fields : Event → List (String × Json)
  | .backend request => backendFields request
  | .refresh domains hosts now => [("domains", .strings domains), ("hosts", .strings hosts),
      ("now_ms", .integer now.toMillis)]
  | .acquire resource name millis =>
    [("resource", .string resource), ("name", .string name), ("lease_ms", .nat millis)]
  | .release resource name => [("resource", .string resource), ("name", .string name)]
  | .enqueue batch => [("batch", batch.toJson)]
  | .send mail => [("mail", mail.toJson)]
  | .createWriter tld => [("tld", .string tld)]
  | .stageDomain name | .stageHost name => [("name", .string name)]
  | .commit => []

/-- The record of a call. -/
def toJson (event : Event) : Json :=
  .object (("op", .string event.operation) :: event.fields)

end Event

end Zonecast.Rehearsal
