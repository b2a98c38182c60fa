/-
All that the backend holds for the upkeep of a zone, and what calls make of it. A call that
succeeds has done what it was asked: record sets are stored as they were sent, a key that is created
marks its zone as signed, and a transfer key that is found is there. A call that fails has done
nothing, and if it says that there is no transfer key, then there is none. What upkeep neither asks
for nor reads, like the serial of a zone, may be anything after any call.
-/
import Zonecast.Proofs.ApexSets
import Zonecast.Proofs.UpkeepCalls
import Zonecast.Proofs.SigningLifecycle

namespace Zonecast.Upkeep

open Process Zone

/-! ### Estates -/

/-- A zone as the backend holds it, its keys, and the names of the transfer keys that there are. -/
structure Estate where
  zone : Detail
  ring : Keyring
  transferKeys : List String

/-- What there is as far as signing goes. -/
def Estate.holding (estate : Estate) : Holding :=
  ⟨estate.ring, estate.zone.signed, estate.zone.account⟩

/-- The sets that a call sends for a zone. -/
def setsSent (zone : String) : Backend.Call → List RecordSet
  | .patchZone other sets => if other = zone then sets else []
  | _ => []

/-- The name of the transfer key that a call creates. -/
def transferKeyCreated? : Backend.Call → Option String
  | .createTransferKey key => some key.name
  | _ => none

/-- What a call that succeeds makes of an estate, and what it tells of it. -/
structure Obeys (request : Backend.Call) (value : Backend.Value request)
    (before after : Estate) : Prop where
  id : after.zone.id = before.zone.id
  name : after.zone.name = before.zone.name
  signing : Serves before.zone.id request value before.holding after.holding
  recordSets : StoresAll (setsSent before.zone.id request) before.zone.recordSets
    after.zone.recordSets
  transferKeys : ∀ name, name ∈ after.transferKeys ↔
    name ∈ before.transferKeys ∨ transferKeyCreated? request = some name
  found : ∀ name, request = .getTransferKey name → name ∈ before.transferKeys

/-- A call of upkeep and its reply, with the estate before and after. The clock may show any
time. -/
inductive Meets : (request : Call) → Zonecast.Upkeep.Reply request → Estate → Estate → Prop
  | served {request : Backend.Call} {value : Backend.Value request} {before after : Estate}
      (obeys : Obeys request value before after) :
    Meets (.backend request) (.ok value) before after
  | refused (held : Estate) (request : Backend.Call) (error : Backend.Error)
      (truthful : ∀ name, request = .getTransferKey name → error.isNotFound = true →
        name ∉ held.transferKeys) :
    Meets (.backend request) (.error error) held held
  | read (held : Estate) (instant : Instant) : Meets .now instant held held
  | countedFailure (held : Estate) (check : Check) : Meets (.countFailure check) () held held
  | countedRectifyFailure (held : Estate) : Meets .countRectifyFailure () held held

/-! ### Calls -/

section Calls

variable {request : Backend.Call} {value : Backend.Value request} {held after : Estate}

/-- A patch of the zone stores what it sends. -/
theorem Obeys.stores {zone : String} {set : RecordSet} {value : Unit} (own : zone = held.zone.id)
    (obeys : Obeys (.patchZone zone [set]) value held after) :
    Stores set held.zone.recordSets after.zone.recordSets := by
  have sent : StoresAll [set] held.zone.recordSets after.zone.recordSets := by
    have all := obeys.recordSets
    rwa [setsSent, if_pos own] at all
  obtain ⟨middle, first, same⟩ := sent
  exact fun stored => (same stored).trans (first stored)

/-- A call that patches nothing leaves the apex as it is expected. -/
theorem furnished_of_meets {defaults : Defaults} {request : Call}
    {reply : Zonecast.Upkeep.Reply request} (unpatching : Unpatching request)
    (meets : Meets request reply held after) (furnished : Furnished defaults held.zone) :
    Furnished defaults after.zone := by
  cases meets with
  | @served request _ _ _ obeys =>
    have none : setsSent held.zone.id request = [] := by
      cases request <;> first | exact unpatching.elim | rfl
    have same := obeys.recordSets
    rw [none] at same
    exact furnished.congr obeys.name same
  | refused | read | countedFailure | countedRectifyFailure => exact furnished

/-- A transfer key that is there stays. -/
theorem mem_transferKeys_of_meets {name : String} {request : Call}
    {reply : Zonecast.Upkeep.Reply request} (meets : Meets request reply held after)
    (present : name ∈ held.transferKeys) : name ∈ after.transferKeys := by
  cases meets with
  | served obeys => exact (obeys.transferKeys name).mpr (Or.inl present)
  | refused | read | countedFailure | countedRectifyFailure => exact present

/-- A zone that is marked as signed stays so. -/
theorem Obeys.marked (obeys : Obeys request value held after) (marked : held.zone.signed = true) :
    after.zone.signed = true := by
  have signed : after.zone.signed = signedAfter held.zone.id request held.zone.signed :=
    obeys.signing.signed
  rw [signed, marked]
  unfold signedAfter
  split
  · exact Bool.true_or _
  · rfl

/-- The first key marks a zone as signed. -/
theorem Obeys.marks {zone : String} {key stored : SigningKey} (own : zone = held.zone.id)
    (obeys : Obeys (.createKey zone key) stored held after) : after.zone.signed = true := by
  subst own
  obtain ⟨ring, _, holding⟩ := serves_createKey.mp obeys.signing
  exact congrArg Holding.signed holding

end Calls

/-! ### Calls that succeed -/

/-- A patch of the zone is stored by replacing sets of the same name and type. -/
theorem obeys_patchZone {zone : String} {held : Estate} {sets : List RecordSet}
    (own : zone = held.zone.id)
    (canonical : ∀ set ∈ held.zone.recordSets, Name.canonical set.name = set.name)
    (named : ∀ set ∈ sets, Name.canonical set.name = set.name) :
    Obeys (.patchZone zone sets) () held
      { held with
        zone.recordSets := Backend.applyRecordSets held.zone.recordSets sets } where
  id := rfl
  name := rfl
  signing := (serves_aside rfl (fun _ => rfl) fun _ => rfl).mpr rfl
  recordSets := by
    rw [setsSent, if_pos own]
    exact storesAll_applyRecordSets canonical named
  transferKeys := fun _ => (or_iff_left (by rintro ⟨⟩)).symm
  found := by rintro _ ⟨⟩

/-- A transfer key that is there is found. -/
theorem obeys_getTransferKey {held : Estate} {name : String} {key : TransferKey}
    (present : name ∈ held.transferKeys) : Obeys (.getTransferKey name) key held held where
  id := rfl
  name := rfl
  signing := (serves_aside rfl (fun _ => rfl) fun _ => rfl).mpr rfl
  recordSets := fun _ => Iff.rfl
  transferKeys := fun _ => (or_iff_left (by rintro ⟨⟩)).symm
  found := fun other same => by
    injection same with named
    exact named ▸ present

/-- A transfer key is created. -/
theorem obeys_createTransferKey {held : Estate} {key stored : TransferKey} {names : List String}
    (added : ∀ name, name ∈ names ↔ name ∈ held.transferKeys ∨ key.name = name) :
    Obeys (.createTransferKey key) stored held { held with transferKeys := names } where
  id := rfl
  name := rfl
  signing := (serves_aside rfl (fun _ => rfl) fun _ => rfl).mpr rfl
  recordSets := fun _ => Iff.rfl
  transferKeys := fun name => by
    rw [transferKeyCreated?, Option.some.injEq]
    exact added name
  found := by rintro _ ⟨⟩

end Zonecast.Upkeep
