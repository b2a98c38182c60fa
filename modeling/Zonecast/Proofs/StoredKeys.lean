/-
The store in memory as a backend of keys. What it makes of calls about the keys of a zone is among
what a backend may make of them: it lists keys in the order of their numbers, puts a new key at
the end, and counts numbers up, so none comes back before they run out. Nor is what it makes of the
signing state and the account of a zone: the first key marks the zone as signed, and an account
stays until another is stored.
-/
import Zonecast.Proofs.SigningPasses
import Zonecast.Proofs.StoredTables

namespace Zonecast.Upkeep

open Zone Backend

/-- The keys that a store holds for a zone. Numbers are counted over all zones. -/
def ringOf (store : Store) (zone : String) : Keyring where
  keys := store.keysOf zone
  used := ((List.range (store.lastKey.toNat + 1)).map UInt32.ofNat).reverse

/-- Changing the first key with a number changes the only one. -/
theorem setFirst_eq_map {number : UInt32} {active : Bool} {keys : List SigningKey}
    (distinct : (keys.map (·.id)).Nodup) :
    Store.setFirst number active keys = keys.map (Keyring.switch number active) := by
  induction keys with
  | nil => rfl
  | cons first rest inductionHypothesis =>
    obtain ⟨other, distinct⟩ := List.nodup_cons.mp distinct
    rw [Store.setFirst, List.map_cons]
    by_cases this : first.id = some number
    · rw [if_pos this, Keyring.switch, if_pos this]
      congr 1
      refine (List.map_id rest).symm.trans (List.map_congr_left fun key member => ?_)
      have apart : key.id ≠ some number := fun same =>
        other (List.mem_map.mpr ⟨key, member, same.trans this.symm⟩)
      rw [Keyring.switch, if_neg apart]
      rfl
    · rw [if_neg this, Keyring.switch, if_neg this, inductionHypothesis distinct]

/-- Changing a zone leaves the keys alone. -/
theorem ringOf_changeZone (store : Store) (name zone : String) (change : Detail → Detail) :
    ringOf (store.changeZone name change) zone = ringOf store zone := by
  unfold Store.changeZone
  split <;> rfl

theorem ringOf_put (store : Store) (zone : String) (keys : List SigningKey) :
    ringOf { store with keys := store.keys.put zone keys } zone =
      ⟨keys, (ringOf store zone).used⟩ := by
  unfold ringOf Store.keysOf
  rw [Table.get?_put]
  rfl

section Numbers

variable {store : Store} (room : store.lastKey.toNat + 1 < UInt32.size)

include room

/-- Numbers are counted up. -/
theorem toNat_lastKey_add_one : (store.lastKey + 1).toNat = store.lastKey.toNat + 1 := by
  rw [UInt32.toNat_add]
  exact Nat.mod_eq_of_lt room

/-- The next number is a new one. -/
theorem next_not_mem_used (zone : String) : store.lastKey + 1 ∉ (ringOf store zone).used := by
  intro member
  obtain ⟨number, low, same⟩ := List.mem_map.mp (List.mem_reverse.mp member)
  have small : number < store.lastKey.toNat + 1 := List.mem_range.mp low
  have equal := congrArg UInt32.toNat same
  rw [UInt32.toNat_ofNat_of_lt' (by omega), toNat_lastKey_add_one room] at equal
  omega

/-- After another key the next number is used as well. -/
theorem ringOf_number (zone : String) (keys : List SigningKey) :
    ringOf { store with keys := store.keys.put zone keys, lastKey := store.lastKey + 1 } zone =
      ⟨keys, (store.lastKey + 1) :: (ringOf store zone).used⟩ := by
  have last : UInt32.ofNat (store.lastKey.toNat + 1) = store.lastKey + 1 := by
    rw [← toNat_lastKey_add_one room]
    exact UInt32.ofNat_toNat
  unfold ringOf Store.keysOf
  rw [Table.get?_put, toNat_lastKey_add_one room, List.range_succ, List.map_append,
    List.reverse_append, List.map_cons, last]
  rfl

end Numbers

/-- The store in memory takes calls about the keys of a zone as any backend may, until its numbers
run out. -/
theorem takes_serve {store after : Store} {zone : String} {request : Backend.Call}
    {value : Backend.Value request} (about : concernsKeys zone request = true)
    (distinct : ((store.keysOf zone).map (·.id)).Nodup)
    (room : store.lastKey.toNat + 1 < UInt32.size)
    (served : store.serve request = (.ok value, after)) :
    Takes zone request value (ringOf store zone) (ringOf after zone) := by
  cases request with
  | listKeys other =>
    obtain rfl : other = zone := eq_of_beq about
    injection served with answer same
    injection answer with answer
    subst same answer
    exact .listed _ _ (.refl _)
  | createKey other key =>
    obtain rfl : other = zone := eq_of_beq about
    injection served with answer same
    injection answer with answer
    subst answer same
    have before : ringOf store other = ⟨store.keysOf other ++ [], (ringOf store other).used⟩ := by
      rw [List.append_nil]
      rfl
    rw [ringOf_changeZone, ringOf_number room, before]
    exact .created _ [] _ key _ _ (next_not_mem_used room other)
  | setKeyActive other number active =>
    obtain rfl : other = zone := eq_of_beq about
    unfold Store.serve at served
    dsimp only at served
    split at served
    · rename_i held
      obtain ⟨key, member, same⟩ := List.any_eq_true.mp held
      injection served with answer stored
      rw [← stored, ringOf_put, setFirst_eq_map distinct]
      exact .switched _ _ _ ⟨key, member, of_decide_eq_true same⟩
    · injection served with answer same
      cases answer
  | deleteKey other number =>
    obtain rfl : other = zone := eq_of_beq about
    injection served with answer stored
    have left : ringOf after other = (ringOf store other).without number := by
      rw [← stored]
      split
      · exact ringOf_put _ _ _
      · rename_i absent
        rw [Bool.not_eq_true, Option.isSome_eq_false_iff, Option.isNone_iff_eq_none] at absent
        unfold ringOf Keyring.without Store.keysOf
        rw [absent]
        rfl
    rw [left]
    exact .deleted _ _
  | _ => cases about

/-! ### Zones -/

/-- What a store holds of a zone as far as signing goes. -/
def holdingOf (store : Store) (zone : String) : Holding where
  ring := ringOf store zone
  signed := ((store.zones.get? zone).map (·.signed)).getD false
  account := (store.zones.get? zone).bind (·.account)

/-- A zone is changed where the store holds it. -/
theorem get?_changeZone (store : Store) (zone : String) (change : Detail → Detail) :
    (store.changeZone zone change).zones.get? zone = (store.zones.get? zone).map change := by
  unfold Store.changeZone
  cases found : store.zones.get? zone with
  | none => exact found
  | some detail => exact Table.get?_put _ _ _

/-- Calls about keys other than the creation of one leave the zones alone. -/
theorem zones_of_serve {store after : Store} {zone : String} {request : Backend.Call}
    {value : Backend.Value request} (about : concernsKeys zone request = true)
    (other : ∀ key, request ≠ .createKey zone key)
    (served : store.serve request = (.ok value, after)) : after.zones = store.zones := by
  cases request with
  | listKeys =>
    injection served with answer same
    rw [same]
  | createKey name key =>
    obtain rfl : name = zone := eq_of_beq about
    exact absurd rfl (other key)
  | setKeyActive name number active =>
    unfold Store.serve at served
    dsimp only at served
    split at served
    · injection served with answer same
      rw [← same]
    · injection served with answer same
      cases answer
  | deleteKey =>
    injection served with answer same
    rw [← same]
    split <;> rfl
  | _ => cases about

/-- The store in memory serves calls about the keys of a zone as any backend may. -/
theorem serves_of_keys {store after : Store} {zone : String} {request : Backend.Call}
    {value : Backend.Value request} (held : (store.zones.get? zone).isSome = true)
    (about : concernsKeys zone request = true)
    (distinct : ((store.keysOf zone).map (·.id)).Nodup)
    (room : store.lastKey.toNat + 1 < UInt32.size)
    (served : store.serve request = (.ok value, after)) :
    Serves zone request value (holdingOf store zone) (holdingOf after zone) := by
  have takes := takes_serve about distinct room served
  have unchanged (other : ∀ key, request ≠ .createKey zone key) :
      (holdingOf after zone).signed = (holdingOf store zone).signed ∧
        (holdingOf after zone).account = (holdingOf store zone).account := by
    unfold holdingOf
    rw [zones_of_serve about other served]
    exact ⟨rfl, rfl⟩
  cases request with
  | createKey name key =>
    obtain rfl : name = zone := eq_of_beq about
    obtain ⟨detail, found⟩ := Option.isSome_iff_exists.mp held
    have marked : after.zones.get? name = some { detail with signed := true } := by
      injection served with answer same
      rw [← same, get?_changeZone]
      exact congrArg (Option.map _) found
    refine serves_createKey.mpr ⟨_, takes, Holding.ext rfl ?_ ?_⟩
    · unfold holdingOf
      rw [marked]
      rfl
    · unfold holdingOf
      rw [marked, found]
      rfl
  | listKeys | setKeyActive | deleteKey =>
    obtain ⟨signed, account⟩ := unchanged nofun
    exact ⟨takes, signed, account⟩
  | _ => cases about

/-- The store in memory serves an update of a zone as any backend may. -/
theorem serves_of_update {store after : Store} {zone : String} {settings : Settings}
    (served : store.serve (.updateZone zone settings) = (.ok (), after)) :
    Serves zone (.updateZone zone settings) () (holdingOf store zone) (holdingOf after zone) := by
  have updated : store.update (Backend.Call.updateZone zone settings).operation zone (fun detail =>
      { detail with account := settings.account.or detail.account }) = (.ok (), after) := served
  unfold Store.update at updated
  cases found : store.zones.get? zone with
  | none =>
    rw [found] at updated
    injection updated with answer same
    cases answer
  | some detail =>
    rw [found] at updated
    injection updated with answer same
    subst same
    refine serves_updateZone.mpr (Holding.ext (ringOf_changeZone _ _ _ _) ?_ ?_)
    · unfold holdingOf
      rw [get?_changeZone, found]
      rfl
    · unfold holdingOf
      rw [get?_changeZone, found]
      rfl

end Zonecast.Upkeep
