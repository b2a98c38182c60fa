/-
The two checks of the record sets at the apex. The SOA set is rewritten when its first record does
not start with the configured nameserver and contact, and keeps its serial. The NS set is
rewritten when its records are not the configured nameservers in the configured order, compared
in bare form.
-/
import Zonecast.Upkeep.Basic

namespace Zonecast.Upkeep

open Zone

/-- Whether the zone's SOA names the configured nameserver and contact. -/
def authorityIsValid (defaults : Defaults) (zone : Detail) : Bool :=
  let front := defaults.primaryNameserver ++ " " ++ defaults.contact ++ " "
  match (zone.apex? "SOA").bind fun recordSet => recordSet.records.head? with
  | some record => front.toList.isPrefixOf record.content.toList
  | none => false

/-- Replaces a drifted SOA, keeping its serial. -/
def checkAuthority (defaults : Defaults) (zone : Detail) : Step Unit := do
  if authorityIsValid defaults zone then return
  ask (.patchZone zone.id [defaults.authority zone.name (zone.serial.getD 1)])

/-- Whether the zone's NS records are the configured nameservers, in order. -/
def nameserversAreValid (defaults : Defaults) (zone : Detail) : Bool :=
  let existing :=
    match zone.apex? "NS" with
    | some recordSet => recordSet.records.map fun record => Name.bare record.content
    | none => []
  existing == defaults.rootNameservers.map Name.bare

/-- Replaces an NS set that differs from the configured one. -/
def checkNameservers (defaults : Defaults) (zone : Detail) : Step Unit := do
  if nameserversAreValid defaults zone then return
  ask (.patchZone zone.id [defaults.nameservers zone.name])

end Zonecast.Upkeep
