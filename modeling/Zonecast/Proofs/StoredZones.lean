/-
The world of a rehearsal as one that processes share which resolve names. Its store keeps zones
under their names, which are also their ids. What it makes of a call is among what a backend may
make of it, as long as no zone is created that it already holds; and a call that is made to fail
never comes to the store.
-/
import Zonecast.Proofs.SharedZones
import Zonecast.Proofs.StoredEstates
import Zonecast.Rehearsal.World

namespace Zonecast.Directory

open Process Zone
open Backend (Store Table)

/-! ### Zones in a store -/

/-- The zones that a store holds, as far as resolving goes. -/
def entriesOf (store : Store) : List Entry :=
  store.zones.map fun held => entryOf held.2

/-- Zones are kept under their names, which are their ids. -/
def Named (store : Store) : Prop :=
  ∀ held ∈ store.zones, entryOf held.2 = ⟨held.1, held.1⟩

section Serving

variable {store : Store} {zone : String} {request : Backend.Call}

theorem entriesOf_eq (named : Named store) :
    entriesOf store = (store.zones.map (·.1)).map fun name => ⟨name, name⟩ := by
  rw [List.map_map]
  exact List.map_congr_left fun held member => named held member

theorem get?_eq_none_of_absent (named : Named store) (creation : Creation)
    (absent : ∀ entry ∈ entriesOf store, Name.bare entry.name ≠ Name.bare creation.name) :
    store.zones.get? creation.name = none := by
  cases found : store.zones.get? creation.name with
  | none => rfl
  | some detail =>
    have held := Table.mem_of_get? found
    have own : entryOf detail = ⟨creation.name, creation.name⟩ := named _ held
    have member : entryOf detail ∈ entriesOf store :=
      List.mem_map_of_mem (f := fun held : String × Detail => entryOf held.2) held
    have same : Name.bare (entryOf detail).name = Name.bare creation.name := by rw [own]
    exact absurd same (absent _ member)

/-- A zone that is changed keeps its place under its name. -/
theorem entriesOf_changeZone (named : Named store) {change : Detail → Detail}
    (keeps : ∀ detail, entryOf (change detail) = entryOf detail) :
    Named (store.changeZone zone change) ∧
      entriesOf (store.changeZone zone change) = entriesOf store := by
  unfold Store.changeZone
  cases found : store.zones.get? zone with
  | none => exact ⟨named, rfl⟩
  | some detail =>
    have own : entryOf detail = ⟨zone, zone⟩ := named _ (Table.mem_of_get? found)
    have after : Named { store with zones := store.zones.put zone (change detail) } := by
      intro held member
      rcases Table.eq_or_mem_of_mem_put member with rfl | old
      · exact (keeps detail).trans own
      · exact named held old
    refine ⟨after, ?_⟩
    rw [entriesOf_eq after, entriesOf_eq named]
    exact congrArg (List.map _) (Table.names_put (by rw [found]; rfl))

theorem entriesOf_update (named : Named store) (operation : String) {change : Detail → Detail}
    (keeps : ∀ detail, entryOf (change detail) = entryOf detail) :
    Named (store.update operation zone change).2 ∧
      entriesOf (store.update operation zone change).2 = entriesOf store := by
  unfold Store.update
  split
  · exact entriesOf_changeZone named keeps
  · exact ⟨named, rfl⟩

/-- Calls that neither list, read nor create zones leave them alone. -/
theorem entriesOf_serve (named : Named store) (apart : concernsZones request = false) :
    Named (store.serve request).2 ∧ entriesOf (store.serve request).2 = entriesOf store := by
  cases request with
  | listZones | getZone | createZone => cases apart
  | patchZone | updateZone => exact entriesOf_update named _ fun _ => rfl
  | createKey zone key =>
    have keyed : Named { store with
        keys := store.keys.put zone (store.keysOf zone ++
          [Store.numbered key (store.lastKey + 1)])
        lastKey := store.lastKey + 1 } := named
    exact entriesOf_changeZone keyed fun _ => rfl
  | setKeyActive =>
    unfold Store.serve
    dsimp only
    split <;> exact ⟨named, rfl⟩
  | deleteKey =>
    unfold Store.serve
    dsimp only
    split <;> exact ⟨named, rfl⟩
  | createMetadata =>
    unfold Store.serve Store.addMetadata
    dsimp only
    split <;> exact ⟨named, rfl⟩
  | _ => exact ⟨named, rfl⟩

/-- The store carries out calls as a backend may, and holds its zones in some order. -/
theorem handles_of_serve (named : Named store) {zones : List Entry}
    (same : zones.Perm (entriesOf store))
    (absent : ∀ creation, request = .createZone creation →
      ∀ entry ∈ zones, Name.bare entry.name ≠ Name.bare creation.name)
    {value : Backend.Value request} (served : (store.serve request).1 = .ok value) :
    Named (store.serve request).2 ∧
      ∃ later, Handles zones request value later ∧
        later.Perm (entriesOf (store.serve request).2) := by
  by_cases apart : concernsZones request = false
  · obtain ⟨after, alike⟩ := entriesOf_serve named apart
    exact ⟨after, zones, .aside request value apart, alike ▸ same⟩
  cases request with
  | listZones =>
    cases served
    refine ⟨named, zones, .listed _ ?_, same⟩
    rw [List.map_map]
    refine .trans ?_ same.symm
    have listed := (Table.sorted_perm store.zones).map entryOf
    rw [List.map_map] at listed
    exact listed
  | getZone id =>
    have answer : Store.found (Backend.Call.getZone id).operation (store.zones.get? id) =
        .ok value := served
    cases found : store.zones.get? id with
    | none =>
      rw [found] at answer
      cases answer
    | some detail =>
      rw [found] at answer
      cases answer
      exact ⟨named, zones, .read _ (congrArg Entry.id (named _ (Table.mem_of_get? found))),
        same⟩
  | createZone creation =>
    cases served
    have missing := get?_eq_none_of_absent named creation fun entry member =>
      absent creation rfl entry (same.mem_iff.mpr member)
    have whole : store.zones.put creation.name (Store.created creation) =
        store.zones ++ [(creation.name, Store.created creation)] := by
      rw [Table.put, missing]
      rfl
    refine ⟨fun held member => ?_, _, .created creation (Store.created creation) rfl, ?_⟩
    · have member : held ∈ store.zones.put creation.name (Store.created creation) := member
      rw [whole] at member
      rcases List.mem_append.mp member with old | new
      · exact named held old
      · rw [List.mem_singleton.mp new]
        rfl
    · show (entryOf (Store.created creation) :: zones).Perm
        ((store.zones.put creation.name (Store.created creation)).map fun held => entryOf held.2)
      rw [whole, List.map_append]
      exact (same.cons _).trans (List.perm_append_singleton _ _).symm
  | _ => exact absurd rfl apart

end Serving

/-! ### Calls that are met -/

/-- What becomes of a call of upkeep: the store serves it, or it fails and does not come to the
store. -/
def Undertakes (store after : Store) : (request : Upkeep.Call) → Upkeep.Reply request → Prop
  | .backend request, reply => store.serve request = (reply, after) ∨
    after = store ∧ ∃ error, reply = .error error
  | _, _ => after = store

/-- The zones that the reply to a call shows. -/
def shownIn : (request : CachedCall Upkeep.Call) → (Cached Upkeep).Reply request → List Entry
  | .load (.backend request), .ok value => shownBy request value
  | _, _ => []

/-- The names of the zones that a call creates which is answered so. -/
def createdIn : (request : CachedCall Upkeep.Call) → (Cached Upkeep).Reply request → List String
  | .load (.backend request), .ok _ => namesCreated request
  | _, _ => []

/-- What a store undertakes is among what may become of a call, as long as no zone is created that
it already holds. -/
theorem answers_of_undertakes (number : Nat) {store after : Store} {commons : Commons}
    {request : Upkeep.Call} {reply : Upkeep.Reply request} (named : Named store)
    (same : commons.zones.Perm (entriesOf store))
    (absent : ∀ creation, request = .backend (.createZone creation) →
      ∀ entry ∈ commons.zones, Name.bare entry.name ≠ Name.bare creation.name)
    (undertakes : Undertakes store after request reply) :
    Named after ∧ ∃ zones, zones.Perm (entriesOf after) ∧
      Answers number (.load request) reply commons ⟨commons.memory, zones,
        shownIn (.load request) reply ++ commons.shown,
        createdIn (.load request) reply ++ commons.created⟩ := by
  cases request with
  | backend request =>
    change Except Backend.Error (Backend.Value request) at reply
    rcases undertakes with served | ⟨rfl, error, rfl⟩
    · cases reply with
      | ok value =>
        obtain ⟨held, zones, handles, alike⟩ := handles_of_serve named same
          (fun creation asks => absent creation (congrArg _ asks)) (congrArg Prod.fst served)
        obtain rfl : (store.serve request).2 = after := congrArg Prod.snd served
        exact ⟨held, zones, alike, .served handles⟩
      | error error =>
        obtain ⟨rfl, _⟩ := Upkeep.unchanged_of_serve served
        exact ⟨named, commons.zones, same, .refused commons request error⟩
    · exact ⟨named, commons.zones, same, .refused commons request error⟩
  | now =>
    obtain rfl : after = store := undertakes
    exact ⟨named, commons.zones, same, .read commons reply⟩
  | countFailure check =>
    obtain rfl : after = store := undertakes
    exact ⟨named, commons.zones, same, .countedFailure commons check⟩
  | countRectifyFailure =>
    obtain rfl : after = store := undertakes
    exact ⟨named, commons.zones, same, .countedRectifyFailure commons⟩

end Zonecast.Directory

namespace Zonecast.Rehearsal.World

open Directory

theorem trial_eq (world : World) (operation : String) :
    (world.trial operation).2.memory = world.memory ∧
      (world.trial operation).2.backend = world.backend := by
  unfold trial
  split <;> exact ⟨rfl, rfl⟩

/-- An attempt is served, fails or is never answered; until then memory and store are as before. -/
theorem attemptFor_cases {ρ : Type} {world : World} {millis : Int} {operation : String}
    {fail : Failure → ρ} {serve : World → Process.Outcome World ρ}
    {outcome : Process.Outcome World ρ}
    (met : world.attemptFor millis operation fail serve = outcome) :
    ∃ tried : World, tried.memory = world.memory ∧ tried.backend = world.backend ∧
      (outcome = serve tried ∨ outcome = .stalled tried ∨
        ∃ failure, outcome = .replied (fail failure) tried []) := by
  obtain ⟨memory, backend⟩ := world.trial_eq operation
  subst met
  unfold attemptFor
  generalize world.trial operation = trial at memory backend
  obtain ⟨_ | failure, tried⟩ := trial
  · exact ⟨tried.advance millis, memory, backend, .inl rfl⟩
  · by_cases stall : failure.kind = .stall
    · exact ⟨tried, memory, backend, .inr (.inl (if_pos stall))⟩
    · exact ⟨tried.advance millis, memory, backend, .inr (.inr ⟨failure, if_neg stall⟩)⟩

/-- A call to the backend is served at once, or at the end of the time that it takes, unless it is
made to fail. -/
theorem meetBackend_cases (request : Backend.Call) (world : World) :
    ∃ tried : World, tried.memory = world.memory ∧ tried.backend = world.backend ∧
      (world.meetBackend request =
          .replied (tried.serveBackend request).1 (tried.serveBackend request).2 [] ∨
        world.meetBackend request = .asleep creationTime tried (serveBackend request) ∨
        world.meetBackend request = .stalled tried ∨
        ∃ error, world.meetBackend request = .replied (.error error) tried []) := by
  generalize met : world.meetBackend request = outcome
  unfold meetBackend at met
  dsimp only at met
  obtain ⟨tried, memory, backend, served | stalled | ⟨failure, failed⟩⟩ := attemptFor_cases met
  · refine ⟨tried, memory, backend, ?_⟩
    cases request with
    | createZone => exact .inr (.inl served)
    | _ => exact .inl served
  · exact ⟨tried, memory, backend, .inr (.inr (.inl stalled))⟩
  · refine ⟨tried, memory, backend, .inr (.inr (.inr ?_))⟩
    by_cases missing : failure.kind = .notFound
    · rw [if_pos missing] at failed
      exact ⟨_, failed⟩
    · rw [if_neg missing] at failed
      exact ⟨_, failed⟩

section Upkeep

variable {world after : World} {number : Nat} {request : Upkeep.Call}

/-- A call of upkeep that is answered at once leaves the memory alone and does to the store what
becomes of the call. -/
theorem undertakes_of_replied {reply : Upkeep.Reply request} {woken : List Nat}
    (met : meetUpkeep number request world = .replied reply after woken) :
    after.memory = world.memory ∧ Undertakes world.backend after.backend request reply := by
  cases request with
  | backend request =>
    obtain ⟨tried, memory, backend, cases⟩ := world.meetBackend_cases request
    change world.meetBackend request = _ at met
    rw [met] at cases
    rcases cases with served | slow | stalled | ⟨error, failed⟩
    · cases served
      exact ⟨memory, .inl (backend ▸ rfl)⟩
    · cases slow
    · cases stalled
    · cases failed
      exact ⟨memory, .inr ⟨backend, error, rfl⟩⟩
  | _ =>
    cases met
    exact ⟨rfl, rfl⟩

/-- A call that takes a while does nothing until it is answered. -/
theorem undertakes_of_asleep {delay : Nat} {resume : World → Upkeep.Reply request × World}
    (met : meetUpkeep number request world = .asleep delay after resume) :
    (after.memory = world.memory ∧ after.backend = world.backend) ∧
      ∀ later, (resume later).2.memory = later.memory ∧
        Undertakes later.backend (resume later).2.backend request (resume later).1 := by
  cases request with
  | backend request =>
    obtain ⟨tried, memory, backend, cases⟩ := world.meetBackend_cases request
    change world.meetBackend request = _ at met
    rw [met] at cases
    rcases cases with served | slow | stalled | ⟨error, failed⟩
    · cases served
    · cases slow
      exact ⟨⟨memory, backend⟩, fun later => ⟨rfl, .inl rfl⟩⟩
    · cases stalled
    · cases failed
  | _ => cases met

end Upkeep

end Zonecast.Rehearsal.World
