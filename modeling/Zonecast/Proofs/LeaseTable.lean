/-
The table of leases, row by row. What an acquisition can do is said once, with its guards: it finds
the lock held and changes nothing, or every row of the lock has run out and its own row takes their
place. A release takes away the rows of its handle and no others. Neither makes two rows of one
lock.
-/
import Mathlib.Data.List.Nodup
import Zonecast.Lock.Table

namespace Zonecast.Lock

namespace Row

/-- The lock that a row is of. -/
def lock (row : Row) : String × String :=
  (row.resource, row.name)

/-- The handle that a row answers to. -/
def handle (row : Row) : Handle :=
  ⟨row.resource, row.name, row.owner⟩

theorem isOf_iff (row : Row) (resource name : String) :
    (row.resource == resource && row.name == name) = true ↔ row.lock = (resource, name) := by
  rw [Bool.and_eq_true, beq_iff_eq, beq_iff_eq, lock, Prod.mk.injEq]

end Row

/-- A lease runs from its first millisecond until so many later, if none of this is outside of what
a clock can show. -/
theorem lt_expiry {since now : Int} {millis : Nat} (early : Instant.firstMillis ≤ since)
    (late : now ≤ Instant.lastMillis) (running : now < since + millis) :
    now < expiry since millis := by
  unfold expiry lastMillis
  unfold Instant.firstMillis at early
  unfold Instant.lastMillis at late
  omega

namespace Table

/-- No two rows are of one lock. -/
def OnePerLock (table : Table) : Prop :=
  (table.map Row.lock).Nodup

theorem OnePerLock.eq_of_lock_eq {table : Table} (one : table.OnePerLock) {first second : Row}
    (inTable : first ∈ table) (alsoIn : second ∈ table) (same : first.lock = second.lock) :
    first = second :=
  List.inj_on_of_nodup_map one inTable alsoIn same

theorem lease?_eq_some {table : Table} {resource name : String} {row : Row}
    (found : table.lease? resource name = some row) :
    row ∈ table ∧ row.lock = (resource, name) := by
  have ofLock := List.find?_some found
  exact ⟨List.mem_of_find?_eq_some found, (row.isOf_iff resource name).mp ofLock⟩

theorem lease?_eq_none {table : Table} {resource name : String}
    (missing : table.lease? resource name = none) :
    ∀ row ∈ table, row.lock ≠ (resource, name) := by
  intro row inTable same
  have other := List.find?_eq_none.mp missing row inTable
  exact other ((row.isOf_iff resource name).mpr same)

/-- All that an acquisition can do. -/
theorem acquire_cases {table : Table} (one : table.OnePerLock) (resource name owner : String)
    (now : Int) (millis : Nat) :
    (table.acquire resource name owner now millis = (none, table) ∧
      ∃ held ∈ table, held.lock = (resource, name) ∧ now < held.expiresAt) ∨
    ((∀ held ∈ table, held.lock = (resource, name) → held.expiresAt ≤ now) ∧
      ∃ after : Table, table.acquire resource name owner now millis =
          (some ⟨resource, name, owner⟩, after) ∧
        after.OnePerLock ∧
        ∀ row, row ∈ after ↔ row = ⟨resource, name, owner, expiry now millis⟩ ∨
          row ∈ table ∧ row.lock ≠ (resource, name)) := by
  unfold acquire
  cases found : table.lease? resource name with
  | none =>
    have free := lease?_eq_none found
    refine Or.inr ⟨fun held inTable same => absurd same (free held inTable), _, rfl, ?_, ?_⟩
    · rw [OnePerLock, List.map_append, List.map_singleton, List.nodup_append]
      refine ⟨one, List.nodup_singleton _, ?_⟩
      intro lock listed other added same
      obtain ⟨held, inTable, rfl⟩ := List.mem_map.mp listed
      rw [List.mem_singleton.mp added] at same
      exact free held inTable same
    · intro row
      rw [List.mem_append, List.mem_singleton, or_comm]
      exact or_congr_right ⟨fun inTable => ⟨inTable, free row inTable⟩, And.left⟩
  | some held =>
    obtain ⟨inTable, ofLock⟩ := lease?_eq_some found
    by_cases expired : held.expiresAt ≤ now
    · refine Or.inr ⟨?_, _, if_pos expired, ?_, ?_⟩
      · intro other otherIn same
        rwa [one.eq_of_lock_eq otherIn inTable (same.trans ofLock.symm)]
      · have locks : (table.map fun other =>
            if other.resource == resource && other.name == name then
              (⟨resource, name, owner, expiry now millis⟩ : Row) else other).map Row.lock =
            table.map Row.lock := by
          rw [List.map_map]
          refine List.map_congr_left fun other _ => ?_
          rw [Function.comp_apply]
          split
          · rename_i same
            exact ((other.isOf_iff resource name).mp same).symm
          · rfl
        rw [OnePerLock, locks]
        exact one
      · intro row
        rw [List.mem_map]
        constructor
        · rintro ⟨other, otherIn, rfl⟩
          split
          · exact Or.inl rfl
          · rename_i apart
            exact Or.inr ⟨otherIn, fun same => apart ((other.isOf_iff resource name).mpr same)⟩
        · rintro (rfl | ⟨rowIn, apart⟩)
          · exact ⟨held, inTable, if_pos ((held.isOf_iff resource name).mpr ofLock)⟩
          · exact ⟨row, rowIn, if_neg fun same => apart ((row.isOf_iff resource name).mp same)⟩
    · exact Or.inl ⟨if_neg expired, held, inTable, ofLock, Int.lt_of_not_ge expired⟩

/-- A row that has not run out keeps its lock from everyone. -/
theorem acquire_eq_none {table : Table} (one : table.OnePerLock) {held : Row}
    (inTable : held ∈ table) {now : Int} (running : now < held.expiresAt) (owner : String)
    (millis : Nat) :
    table.acquire held.resource held.name owner now millis = (none, table) := by
  rcases acquire_cases one held.resource held.name owner now millis with ⟨refused, _⟩ | ⟨expired, _⟩
  · exact refused
  · have ended := expired held inTable rfl
    omega

theorem mem_release {table : Table} {handle : Handle} {row : Row} :
    row ∈ table.release handle ↔ row ∈ table ∧ row.handle ≠ handle := by
  rw [release, List.mem_filter, Bool.not_eq_true', ← Bool.not_eq_true, Bool.and_eq_true,
    Bool.and_eq_true, beq_iff_eq, beq_iff_eq, beq_iff_eq, Row.handle, ne_eq, Handle.mk.injEq,
    and_assoc]

theorem OnePerLock.release {table : Table} (one : table.OnePerLock) (handle : Handle) :
    (table.release handle).OnePerLock :=
  one.sublist (List.filter_sublist.map Row.lock)

end Table

end Zonecast.Lock
