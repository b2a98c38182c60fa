/-
The check of a zone's signing keys. An unsigned zone is given a key signing key, a zone signing
key and a rotation tag. A signed zone must have one active key of each role; then its rotation
state decides:

    untracked                      tag the zone, 30 days from now
    expiring, time come            publish an inactive successor, to take over in two TTLs
    activating, time come          activate the successor, delete the old key, tag 30 days from now
    time not come                  nothing

The successor is published before it signs so that resolvers know it by the time it does, and the
old key is deleted only after its successor is active, so that at no moment the zone is left
without an active key.
-/
import Zonecast.Upkeep.Basic
import Zonecast.Upkeep.Rotation

namespace Zonecast.Upkeep

open Zone

/-! ### Constants -/

def keyAlgorithm : String := "rsasha256"

/-- Thirty days in milliseconds. -/
def zoneKeyLifetime : Int := 30 * 24 * 3600 * 1000

/-- Two TTLs in milliseconds: by then every resolver has seen a newly published key. -/
def activationDelay (defaults : Defaults) : Int := 2 * defaults.ttl.toNat * 1000

/-- The key signing key of a newly signed zone. -/
def newKeySigningKey : SigningKey := .fresh .keySigning 2048 true true keyAlgorithm

/-- The zone signing key of a newly signed zone. -/
def newZoneSigningKey : SigningKey := .fresh .zoneSigning 1024 true true keyAlgorithm

/-- A successor: published, not yet active. -/
def successorKey : SigningKey := .fresh .zoneSigning 1024 false true keyAlgorithm

/-! ### The check -/

/-- Stores a rotation state in the zone's account. -/
def recordRotation (zone : Detail) (state : Rotation) (rectify : Option Bool) : Step Unit :=
  ask (.updateZone zone.id ⟨some state.toAccount, rectify⟩)

/-- Signs an unsigned zone. A failed rectification is counted and not a failure. -/
def enableSigning (zone : Detail) : Step Unit := do
  let _ ← ask (.createKey zone.id newKeySigningKey)
  let _ ← ask (.createKey zone.id newZoneSigningKey)
  ask (.createMetadata zone.id ⟨"SOA-EDIT", ["INCREMENT-WEEKS"]⟩)
  recordRotation zone (.expiring ((← now).addMillis zoneKeyLifetime)) (some true)
  match ← attempt (.rectifyZone zone.id) with
  | .ok _ => pure ()
  | .error _ => ExceptT.lift (Process.perform (I := Upkeep) .countRectifyFailure)

/-- Publishes a successor of the active zone signing key. -/
def beginRollover (defaults : Defaults) (zone : Detail) (now : Instant) : Step Unit := do
  let _ ← ask (.createKey zone.id successorKey)
  recordRotation zone (.activating (now.addMillis (activationDelay defaults))) none

/-- Switches from the active zone signing key to its successor. -/
def finishRollover (zone : Detail) (keys : List SigningKey) (active : SigningKey)
    (now : Instant) : Step Unit := do
  let successor := keys.find? fun key => !key.active && key.role == .zoneSigning
  match successor.bind (·.id), active.id with
  | some new, some old =>
    ask (.setKeyActive zone.id new true)
    ask (.deleteKey zone.id old)
    recordRotation zone (.expiring (now.addMillis zoneKeyLifetime)) none
  | _, _ => throw .inconsistent

/-- What the rotation state of a signed zone calls for. -/
def rotate (defaults : Defaults) (zone : Detail) (keys : List SigningKey) (active : SigningKey)
    (now : Instant) : Step Unit :=
  match Rotation.ofAccount zone.account with
  | .untracked => recordRotation zone (.expiring (now.addMillis zoneKeyLifetime)) none
  | .expiring since => if since.le now then beginRollover defaults zone now else pure ()
  | .activating since => if since.le now then finishRollover zone keys active now else pure ()

/-- The check of a zone's signing keys. -/
def checkSigning (defaults : Defaults) (zone : Detail) : Step Unit := do
  if !zone.signed then enableSigning zone
  else
    let keys ← ask (.listKeys zone.id)
    let keySigning := keys.find? fun key => key.active && key.role == .keySigning
    let zoneSigning := keys.find? fun key => key.active && key.role == .zoneSigning
    match keySigning, zoneSigning with
    | some _, some active => rotate defaults zone keys active (← now)
    | _, _ => throw .inconsistent

end Zonecast.Upkeep
