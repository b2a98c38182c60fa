/-
The upkeep pass: every check that is enabled, one after the other, against the zone as it was
read. A failing check is counted and stops nothing, so the pass itself never fails.
-/
import Zonecast.Upkeep.Apex
import Zonecast.Upkeep.Signing
import Zonecast.Upkeep.TransferKey

namespace Zonecast.Upkeep

open Zone

/-- Runs one check and counts its failure. -/
def settle (check : Check) (step : Step Unit) : Process Upkeep Unit := do
  match ← step.run with
  | .ok () => pure ()
  | .error _ => Process.perform (I := Upkeep) (.countFailure check)

/-- Runs the enabled checks against a zone. -/
def pass (defaults : Defaults) (zone : Detail) : Process Upkeep Unit := do
  settle .authority (checkAuthority defaults zone)
  settle .nameservers (checkNameservers defaults zone)
  if defaults.transferKeys then settle .transferKey (checkTransferKey zone)
  if defaults.signing then settle .signing (checkSigning defaults zone)

end Zonecast.Upkeep
