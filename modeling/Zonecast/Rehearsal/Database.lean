/-
A rehearsal of the stored registry and the stored leases: the tables, a clock, and the leases that
were acquired, under the names they are kept by. Each lease gets a token of its own, numbered in
the order in which tokens are drawn.
-/
import Zonecast.Backend.Store
import Zonecast.Lock.Table
import Zonecast.Registry.Find

namespace Zonecast.Rehearsal

/-- The tables, a clock, and what was acquired. -/
structure Database where
  registry : Registry.Tables
  leases : Lock.Table
  now : Instant
  /-- How many tokens were drawn. -/
  drawn : Nat
  /-- Handles by the names they are kept by. -/
  handles : Backend.Table Lock.Handle

namespace Database

/-- Nothing stored, at a time. -/
def create (now : Instant) : Database := ⟨.empty, [], now, 0, []⟩

/-- Moves the clock. -/
def advance (millis : Int) (database : Database) : Database :=
  { database with now := database.now.addMillis millis }

/-- The sixteen bytes of a number, the highest first. -/
def bytesOf (number : Nat) : List UInt8 :=
  (List.range 16).reverse.map fun place => UInt8.ofNat (number / Nat.pow 256 place % 256)

/-- Acquires a lease and keeps its handle, unless the lock is held. -/
def acquire (resource name keptAs : String) (millis : Nat) (database : Database) :
    Option Lock.Handle × Database :=
  let owner := Lock.token (bytesOf database.drawn)
  let (handle, leases) :=
    database.leases.acquire resource name owner database.now.toMillis millis
  (handle, { database with
    leases := leases
    drawn := database.drawn + 1
    handles := handle.elim database.handles (database.handles.put keptAs) })

/-- Gives back the lease whose handle is kept by a name, if there is one. The handle is kept. -/
def release? (keptAs : String) (database : Database) : Option Database :=
  (database.handles.get? keptAs).map fun handle =>
    { database with leases := database.leases.release handle }

end Database

end Zonecast.Rehearsal
