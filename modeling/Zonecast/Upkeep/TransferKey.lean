/-
The check of the key that authenticates zone transfers. A missing key is created; its secret is
left to the backend. Whether the zone lists the key among those allowed to transfer it is looked
up, but a missing entry is work for an operator and no failure.
-/
import Zonecast.Upkeep.Basic

namespace Zonecast.Upkeep

open Zone

/-- The name of a zone's transfer key. -/
def transferKeyName (zone : String) : String :=
  Name.bare zone ++ "-tsig"

/-- The metadata kind that lists the keys allowed to transfer a zone. -/
def transferKeysKind : String := "TSIG-ALLOW-AXFR"

/-- Makes sure that the zone's transfer key exists. -/
def checkTransferKey (zone : Detail) : Step Unit := do
  let name := transferKeyName zone.name
  match ← attempt (.getTransferKey name) with
  | .ok _ => pure ()
  | .error error =>
    if error.isNotFound then
      let _ ← ask (.createTransferKey ⟨none, name, "hmac-sha256", none⟩)
    else throw (.backend error)
  match ← attempt (.getMetadata zone.id transferKeysKind) with
  | .ok _ => pure ()
  | .error error => if error.isNotFound then pure () else throw (.backend error)

end Zonecast.Upkeep
