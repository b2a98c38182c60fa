/-
The store in memory as a backend of whole zones. What it makes of a call of upkeep is among what a
backend may make of it, as long as the names of record sets are canonical, for it takes names as
they are written.
-/
import Mathlib.Tactic.MkIffOfInductiveProp
import Zonecast.Proofs.Estates
import Zonecast.Proofs.StoredKeys
import Zonecast.Proofs.UnfinishedPasses

namespace Zonecast.Upkeep

open Process Zone Backend

/-! ### Stores -/

/-- What a store holds for the upkeep of a zone. -/
def estateOf (store : Store) (zone : String) (detail : Detail) : Estate :=
  ⟨detail, ringOf store zone, store.transferKeys.map (·.1)⟩

/-- A store holds a zone under its id. -/
@[mk_iff]
structure Holds (store : Store) (zone : String) (detail : Detail) : Prop where
  found : store.zones.get? zone = some detail
  own : detail.id = zone
  canonical : ∀ set ∈ detail.recordSets, Name.canonical set.name = set.name
  distinct : ((store.keysOf zone).map (·.id)).Nodup
  room : store.lastKey.toNat + 1 < UInt32.size

instance (store : Store) (zone : String) (detail : Detail) :
    Decidable (Holds store zone detail) :=
  decidable_of_iff' _ (holds_iff store zone detail)

/-- A call that upkeep of a zone may make. -/
def Concerns (zone : String) : Backend.Call → Prop
  | .patchZone other sets => other = zone ∧ ∀ set ∈ sets, Name.canonical set.name = set.name
  | .updateZone other _ | .rectifyZone other | .listKeys other | .createKey other _
  | .setKeyActive other _ _ | .deleteKey other _ | .getMetadata other _
  | .createMetadata other _ => other = zone
  | .getTransferKey _ | .createTransferKey _ => True
  | .listZones | .getZone _ | .createZone _ => False

section Serving

variable {store after : Store} {zone : String} {detail later : Detail} {request : Backend.Call}
  {value : Backend.Value request}

theorem holdingOf_eq (found : store.zones.get? zone = some detail) :
    holdingOf store zone = (estateOf store zone detail).holding := by
  unfold holdingOf Estate.holding
  rw [found]
  rfl

/-- A call that patches nothing and creates no transfer key does what it does to the keys and the
account. -/
theorem obeys_of_holding (holds : Holds store zone detail)
    (found : after.zones.get? zone = some later) (id : later.id = detail.id)
    (name : later.name = detail.name) (sets : later.recordSets = detail.recordSets)
    (transferKeys : after.transferKeys = store.transferKeys)
    (signing : Serves zone request value (holdingOf store zone) (holdingOf after zone))
    (sends : setsSent zone request = []) (creates : transferKeyCreated? request = none)
    (asks : ∀ name, request ≠ .getTransferKey name) :
    Obeys request value (estateOf store zone detail) (estateOf after zone later) where
  id := id
  name := name
  signing := by
    rw [← holdingOf_eq holds.found, ← holdingOf_eq found]
    exact holds.own.symm ▸ signing
  recordSets := by
    have none : setsSent detail.id request = [] := holds.own.symm ▸ sends
    show StoresAll (setsSent detail.id request) detail.recordSets later.recordSets
    rw [none, sets]
    exact fun _ => Iff.rfl
  transferKeys := fun name => by
    show name ∈ after.transferKeys.map (·.1) ↔ name ∈ store.transferKeys.map (·.1) ∨ _
    rw [transferKeys, creates]
    exact (or_iff_left (Option.some_ne_none _).symm).symm
  found := fun name same => absurd same (asks name)

/-- A call about the keys of a zone leaves the transfer keys alone. -/
theorem transferKeys_of_keys (about : concernsKeys zone request = true)
    (served : store.serve request = (.ok value, after)) :
    after.transferKeys = store.transferKeys := by
  cases request with
  | listKeys =>
    injection served with answer same
    rw [same]
  | createKey =>
    injection served with answer same
    rw [← same]
    unfold Store.changeZone
    split <;> rfl
  | setKeyActive =>
    unfold Store.serve at served
    dsimp only at served
    split at served
    · injection served with answer same
      rw [← same]
    · injection served with answer same
      cases answer
  | deleteKey =>
    injection served with answer same
    rw [← same]
    split <;> rfl
  | _ => cases about

/-- A call about the keys of a zone does nothing else to it but mark it as signed. -/
theorem obeys_of_keys (holds : Holds store zone detail) (about : concernsKeys zone request = true)
    (served : store.serve request = (.ok value, after)) :
    ∃ later, after.zones.get? zone = some later ∧
      Obeys request value (estateOf store zone detail) (estateOf after zone later) := by
  have kept := transferKeys_of_keys about served
  have serves := serves_of_keys (Option.isSome_iff_exists.mpr ⟨detail, holds.found⟩) about
    holds.distinct holds.room served
  have stays (other : ∀ key, request ≠ .createKey zone key) :
      after.zones.get? zone = some detail :=
    (zones_of_serve about other served).symm ▸ holds.found
  cases request with
  | createKey name key =>
    obtain rfl : name = zone := eq_of_beq about
    have marked : after.zones.get? name = some { detail with signed := true } := by
      injection served with answer same
      rw [← same, get?_changeZone]
      exact congrArg (Option.map _) holds.found
    exact ⟨_, marked, obeys_of_holding holds marked rfl rfl rfl kept serves rfl rfl
      (by rintro _ ⟨⟩)⟩
  | listKeys | setKeyActive | deleteKey =>
    have same := stays (by rintro _ ⟨⟩)
    exact ⟨detail, same, obeys_of_holding holds same rfl rfl rfl kept serves rfl rfl
      (by rintro _ ⟨⟩)⟩
  | _ => cases about

/-- A call that leaves the zones, their keys and the transfer keys as they are. -/
theorem obeys_of_unchanged (holds : Holds store zone detail) (zones : after.zones = store.zones)
    (keys : after.keys = store.keys) (lastKey : after.lastKey = store.lastKey)
    (transferKeys : after.transferKeys = store.transferKeys)
    (aside : ∀ held, Serves zone request value held held) (sends : setsSent zone request = [])
    (creates : transferKeyCreated? request = none) (asks : ∀ name, request ≠ .getTransferKey name) :
    ∃ later, after.zones.get? zone = some later ∧
      Obeys request value (estateOf store zone detail) (estateOf after zone later) := by
  have found : after.zones.get? zone = some detail := zones ▸ holds.found
  have same : holdingOf after zone = holdingOf store zone := by
    unfold holdingOf ringOf Store.keysOf
    rw [zones, keys, lastKey]
  exact ⟨detail, found, obeys_of_holding holds found rfl rfl rfl transferKeys
    (same.symm ▸ aside _) sends creates asks⟩

/-- An account is stored. -/
theorem obeys_of_update {settings : Settings} (holds : Holds store zone detail)
    (served : store.serve (.updateZone zone settings) = (.ok (), after)) :
    ∃ later, after.zones.get? zone = some later ∧
      Obeys (.updateZone zone settings) () (estateOf store zone detail)
        (estateOf after zone later) := by
  have serves := serves_of_update served
  have changed : store.update (Backend.Call.updateZone zone settings).operation zone (fun detail =>
      { detail with account := settings.account.or detail.account }) = (.ok (), after) := served
  unfold Store.update at changed
  rw [holds.found] at changed
  injection changed with answer same
  have stored : after.zones.get? zone =
      some { detail with account := settings.account.or detail.account } := by
    rw [← same, get?_changeZone, holds.found]
    rfl
  have kept : after.transferKeys = store.transferKeys := by
    rw [← same]
    unfold Store.changeZone
    split <;> rfl
  exact ⟨_, stored, obeys_of_holding holds stored rfl rfl rfl kept serves rfl rfl (by rintro _ ⟨⟩)⟩

/-- A patch is stored. -/
theorem obeys_of_patch {sets : List RecordSet} (holds : Holds store zone detail)
    (named : ∀ set ∈ sets, Name.canonical set.name = set.name)
    (served : store.serve (.patchZone zone sets) = (.ok (), after)) :
    ∃ later, after.zones.get? zone = some later ∧
      Obeys (.patchZone zone sets) () (estateOf store zone detail)
        (estateOf after zone later) := by
  have changed : store.update (Backend.Call.patchZone zone sets).operation zone (fun detail =>
      { detail with recordSets := applyRecordSets detail.recordSets sets }) = (.ok (), after) :=
    served
  unfold Store.update at changed
  rw [holds.found] at changed
  injection changed with answer same
  have stored : after.zones.get? zone =
      some { detail with recordSets := applyRecordSets detail.recordSets sets } := by
    rw [← same, get?_changeZone, holds.found]
    rfl
  have keys : ringOf after zone = ringOf store zone := by
    rw [← same, ringOf_changeZone]
  have kept : after.transferKeys = store.transferKeys := by
    rw [← same]
    unfold Store.changeZone
    split <;> rfl
  have obeys : Obeys (.patchZone zone sets) () (estateOf store zone detail)
      { estateOf store zone detail with
        zone.recordSets := applyRecordSets detail.recordSets sets } :=
    obeys_patchZone holds.own.symm holds.canonical named
  refine ⟨_, stored, ?_⟩
  unfold estateOf at obeys ⊢
  rw [keys, kept]
  exact obeys

/-- A call that succeeds has done what it was asked, and told the truth. -/
theorem obeys_of_serve (holds : Holds store zone detail) (concerns : Concerns zone request)
    (served : store.serve request = (.ok value, after)) :
    ∃ later, after.zones.get? zone = some later ∧
      Obeys request value (estateOf store zone detail) (estateOf after zone later) := by
  cases request with
  | listKeys | createKey | setKeyActive | deleteKey =>
    exact obeys_of_keys holds (beq_iff_eq.mpr concerns) served
  | rectifyZone | getMetadata =>
    injection served with answer same
    subst same
    exact obeys_of_unchanged holds rfl rfl rfl rfl
      (fun _ => (serves_aside rfl (fun _ => rfl) fun _ => rfl).mpr rfl) rfl rfl (by rintro _ ⟨⟩)
  | createMetadata other metadata =>
    injection served with answer same
    have kept : after.zones = store.zones ∧ after.keys = store.keys ∧
        after.lastKey = store.lastKey ∧ after.transferKeys = store.transferKeys := by
      rw [← same]
      unfold Store.addMetadata
      split <;> exact ⟨rfl, rfl, rfl, rfl⟩
    obtain ⟨zones, keys, lastKey, transferKeys⟩ := kept
    exact obeys_of_unchanged holds zones keys lastKey transferKeys
      (fun _ => (serves_aside rfl (fun _ => rfl) fun _ => rfl).mpr rfl) rfl rfl (by rintro _ ⟨⟩)
  | updateZone other settings =>
    obtain rfl : other = zone := concerns
    exact obeys_of_update holds served
  | patchZone other sets =>
    obtain ⟨rfl, named⟩ := concerns
    exact obeys_of_patch holds named served
  | getTransferKey name =>
    injection served with answer same
    subst same
    have present : name ∈ store.transferKeys.map (·.1) := by
      cases found : store.transferKeys.get? name with
      | some key => exact Table.mem_names_of_get? found
      | none =>
        rw [found] at answer
        cases answer
    exact ⟨detail, holds.found, obeys_getTransferKey present⟩
  | createTransferKey key =>
    injection served with answer same
    subst same
    exact ⟨detail, holds.found, obeys_createTransferKey fun other =>
      Table.mem_names_put store.transferKeys key.name other _⟩
  | _ => exact concerns.elim

/-- A call that fails has done nothing, and if it looked for a transfer key, there is none. -/
theorem unchanged_of_serve {error : Backend.Error}
    (served : store.serve request = (.error error, after)) :
    after = store ∧ ∀ name, request = .getTransferKey name →
      name ∉ store.transferKeys.map (·.1) := by
  cases request with
  | getTransferKey name =>
    injection served with answer same
    refine ⟨same.symm, fun other named => ?_⟩
    injection named with named
    subst named
    cases missing : store.transferKeys.get? name with
    | none => exact Table.not_mem_names_of_get? missing
    | some key =>
      rw [missing] at answer
      cases answer
  | setKeyActive =>
    unfold Store.serve at served
    dsimp only at served
    split at served
    · injection served with answer same
      cases answer
    · injection served with answer same
      exact ⟨same.symm, by rintro _ ⟨⟩⟩
  | patchZone | updateZone =>
    unfold Store.serve Store.update at served
    dsimp only at served
    split at served
    · injection served with answer same
      cases answer
    · injection served with answer same
      exact ⟨same.symm, by rintro _ ⟨⟩⟩
  | getZone | getMetadata =>
    injection served with answer same
    exact ⟨same.symm, by rintro _ ⟨⟩⟩
  | _ =>
    injection served with answer same
    cases answer

/-- The store in memory meets the calls of upkeep as any backend may. -/
theorem meets_of_serve (holds : Holds store zone detail) (concerns : Concerns zone request)
    {reply : Except Backend.Error (Backend.Value request)}
    (served : store.serve request = (reply, after)) :
    ∃ later, after.zones.get? zone = some later ∧
      Meets (.backend request) reply (estateOf store zone detail) (estateOf after zone later) := by
  cases reply with
  | ok value =>
    obtain ⟨later, found, obeys⟩ := obeys_of_serve holds concerns served
    exact ⟨later, found, .served obeys⟩
  | error error =>
    obtain ⟨rfl, truthful⟩ := unchanged_of_serve served
    exact ⟨detail, holds.found, .refused _ _ _ fun name same _ => truthful name same⟩

/-- A process goes on from what the store says to its next call. -/
theorem proceeds_of_serve {α : Type} {next : Except Backend.Error (Backend.Value request) →
      Process Upkeep α}
    {reply : Except Backend.Error (Backend.Value request)} {exchanges : List (Exchange Upkeep)}
    {last : Estate} (holds : Holds store zone detail) (concerns : Concerns zone request)
    (served : store.serve request = (reply, after)) (found : after.zones.get? zone = some later)
    (rest : Proceeds Meets (next reply) (estateOf after zone later) exchanges last) :
    Proceeds Meets (.call (I := Upkeep) (.backend request) next) (estateOf store zone detail)
      (⟨.backend request, reply⟩ :: exchanges) last := by
  obtain ⟨other, same, meets⟩ := meets_of_serve holds concerns served
  obtain rfl := Option.some.inj (same.symm.trans found)
  exact .call meets rest

end Serving

end Zonecast.Upkeep
