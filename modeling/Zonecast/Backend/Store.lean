/-
A zone backend in memory: what each call does to the zones, keys and metadata it holds, and what
it is answered with. Zones are known by id; a created zone takes its name for its id. Keys are
numbered in the order in which they are created, over all zones, so no number is used twice. A
zone counts as signed from its first key on.
-/
import Zonecast.Backend

namespace Zonecast.Backend

open Zone

/-! ### Values by name -/

/-- Values by name; no name occurs twice. -/
abbrev Table (α : Type) := List (String × α)

namespace Table

variable {α : Type}

/-- The value of a name. -/
def get? (table : Table α) (name : String) : Option α :=
  (table.find? fun entry => entry.1 == name).map (·.2)

/-- Puts a value in place of the one of its name, or at the end. -/
def put (table : Table α) (name : String) (value : α) : Table α :=
  if (table.get? name).isSome then
    table.map fun entry => if entry.1 == name then (name, value) else entry
  else table ++ [(name, value)]

/-- Drops a name. -/
def drop (table : Table α) (name : String) : Table α :=
  table.filter fun entry => entry.1 != name

/-- The values in the order of their names. -/
def sorted (table : Table α) : List α :=
  (table.mergeSort fun first second => decide (first.1 ≤ second.1)).map (·.2)

end Table

/-! ### Record sets -/

/-- Applies one record set: the stored sets of its very name and type give way to it, or to
nothing. -/
def applyRecordSet (stored : List RecordSet) (recordSet : RecordSet) : List RecordSet :=
  let others := stored.filter fun other =>
    !(other.name == recordSet.name && other.type == recordSet.type)
  if recordSet.changeType = some .delete then others
  else others ++ [{ recordSet with changeType := none }]

/-- Applies record sets in order. -/
def applyRecordSets (stored recordSets : List RecordSet) : List RecordSet :=
  recordSets.foldl applyRecordSet stored

/-! ### The store -/

/-- What the backend holds. -/
structure Store where
  zones : Table Detail
  keys : Table (List SigningKey)
  /-- For each entry the zone; a zone has one entry of each kind at most. -/
  metadata : List (String × Metadata)
  transferKeys : Table TransferKey
  /-- The number of the last key. -/
  lastKey : UInt32
  deriving DecidableEq, Repr

namespace Store

/-- Nothing held. -/
def empty : Store := ⟨[], [], [], [], 0⟩

/-- The keys of a zone. -/
def keysOf (store : Store) (zone : String) : List SigningKey :=
  (store.keys.get? zone).getD []

/-- Changes a zone that the store holds. -/
def changeZone (store : Store) (zone : String) (change : Detail → Detail) : Store :=
  match store.zones.get? zone with
  | some detail => { store with zones := store.zones.put zone (change detail) }
  | none => store

/-- Changes a zone, or fails if the store does not hold it. -/
def update (store : Store) (operation zone : String) (change : Detail → Detail) :
    Except Error Unit × Store :=
  match store.zones.get? zone with
  | some _ => (.ok (), store.changeZone zone change)
  | none => (.error (.notFound operation), store)

/-- A value, or the failure that it is not there. -/
def found {α : Type} (operation : String) : Option α → Except Error α
  | some value => .ok value
  | none => .error (.notFound operation)

/-- The zone that a request creates. -/
def created (creation : Creation) : Detail where
  id := creation.name
  name := creation.name
  kind := some creation.kind
  serial := some 1
  signed := false
  account := some ""
  recordSets := applyRecordSets [] creation.recordSets

/-- The key as it is stored. A key signing key comes with its DS data. -/
def numbered (key : SigningKey) (number : UInt32) : SigningKey :=
  { key with
    id := some number
    ds := if key.role = .keySigning then [toString (10000 + number.toNat) ++ " 8 2 ABCDEF"]
      else key.ds }

/-- The entry of a kind that a zone has. -/
def metadataOf? (store : Store) (zone kind : String) : Option Metadata :=
  (store.metadata.find? fun entry => entry.1 == zone && entry.2.kind == kind).map (·.2)

/-- Adds values to the entry of a kind that a zone has. -/
def addMetadata (store : Store) (zone : String) (metadata : Metadata) : Store :=
  if (store.metadataOf? zone metadata.kind).isSome then
    { store with
      metadata := store.metadata.map fun entry =>
        if entry.1 == zone && entry.2.kind == metadata.kind then
          (zone, ⟨metadata.kind, entry.2.values ++ metadata.values⟩)
        else entry }
  else { store with metadata := store.metadata ++ [(zone, metadata)] }

/-- Puts an entry in place of the one of its kind. -/
def putMetadata (store : Store) (zone : String) (metadata : Metadata) : Store :=
  { store with
    metadata := (store.metadata.filter fun entry =>
      !(entry.1 == zone && entry.2.kind == metadata.kind)) ++ [(zone, metadata)] }

/-- The entries in the order of zone and kind. -/
def sortedMetadata (store : Store) : List (String × Metadata) :=
  store.metadata.mergeSort fun first second =>
    decide (first.1 < second.1) || (first.1 == second.1 && decide (first.2.kind ≤ second.2.kind))

/-- Changes the first key with this number. -/
def setFirst (number : UInt32) (active : Bool) : List SigningKey → List SigningKey
  | [] => []
  | key :: rest =>
    if key.id = some number then { key with active := active } :: rest
    else key :: setFirst number active rest

/-- What a call is answered with, and the store after it. -/
def serve (store : Store) : (request : Call) → Except Error (Value request) × Store
  | .listZones =>
    (.ok (store.zones.sorted.map fun zone => { zone with recordSets := [] }), store)
  | .getZone zone => (found (Call.getZone zone).operation (store.zones.get? zone), store)
  | .createZone creation =>
    (.ok (created creation),
      { store with zones := store.zones.put creation.name (created creation) })
  | .patchZone zone recordSets =>
    store.update (Call.patchZone zone recordSets).operation zone fun detail =>
      { detail with recordSets := applyRecordSets detail.recordSets recordSets }
  | .updateZone zone settings =>
    store.update (Call.updateZone zone settings).operation zone fun detail =>
      { detail with account := settings.account.or detail.account }
  | .rectifyZone _ => (.ok (), store)
  | .listKeys zone => (.ok (store.keysOf zone), store)
  | .createKey zone key =>
    let number := store.lastKey + 1
    let stored := numbered key number
    let after := { store with
      keys := store.keys.put zone (store.keysOf zone ++ [stored])
      lastKey := number }
    (.ok stored, after.changeZone zone fun detail => { detail with signed := true })
  | .setKeyActive zone number active =>
    let keys := store.keysOf zone
    if keys.any fun key => key.id = some number then
      (.ok (), { store with keys := store.keys.put zone (setFirst number active keys) })
    else (.error (.notFound (Call.setKeyActive zone number active).operation), store)
  | .deleteKey zone number =>
    let keys := (store.keysOf zone).filter fun key => key.id != some number
    (.ok (), if (store.keys.get? zone).isSome then { store with keys := store.keys.put zone keys }
      else store)
  | .getMetadata zone kind =>
    (found (Call.getMetadata zone kind).operation (store.metadataOf? zone kind), store)
  | .createMetadata zone metadata => (.ok (), store.addMetadata zone metadata)
  | .getTransferKey name =>
    (found (Call.getTransferKey name).operation (store.transferKeys.get? name), store)
  | .createTransferKey key =>
    let stored := { key with id := some (key.name ++ ".") }
    (.ok stored, { store with transferKeys := store.transferKeys.put key.name stored })

end Store

end Zonecast.Backend
