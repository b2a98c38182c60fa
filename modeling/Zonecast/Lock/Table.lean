/-
Leases as rows of a table. A row keeps who holds a lock and until when. A lock is acquired where it
has no row, or where the lease of its row has run out; otherwise nothing changes. Giving a lease
back deletes the row only if its token is still the one in the handle, so a holder whose lease was
taken over cannot free its successor's.

Times are whole milliseconds in 64 bits; a lease too long for them ends with them.
-/
import Zonecast.Lock.Basic
import Zonecast.Text.Base64
import Zonecast.Time.Instant

namespace Zonecast.Lock

open Zonecast.Text

/-- A lease in the table. -/
structure Row where
  resource : String
  name : String
  owner : String
  /-- The first millisecond at which the lease has run out. -/
  expiresAt : Int
  deriving DecidableEq, Repr

/-- The leases; a resource and a name have one at most. -/
abbrev Table := List Row

/-- The last millisecond that a row can hold. -/
def lastMillis : Int := 9223372036854775807

/-- When a lease of so many milliseconds ends that starts at a reading of the clock. -/
def expiry (now : Int) (millis : Nat) : Int :=
  min (now + min (millis : Int) lastMillis) lastMillis

/-- The token made of 16 random bytes: base64 without padding, in the alphabet for addresses. -/
def token (random : List UInt8) : String :=
  String.ofList ((Base64.encode random).map fun c =>
    if c = '+' then '-' else if c = '/' then '_' else c)

namespace Table

/-- The lease on a lock. -/
def lease? (table : Table) (resource name : String) : Option Row :=
  table.find? fun row => row.resource == resource && row.name == name

/-- Acquires a lease under a fresh token, unless the lock is held. -/
def acquire (table : Table) (resource name owner : String) (now : Int) (millis : Nat) :
    Option Handle × Table :=
  let row : Row := ⟨resource, name, owner, expiry now millis⟩
  match table.lease? resource name with
  | none => (some ⟨resource, name, owner⟩, table ++ [row])
  | some held =>
    if held.expiresAt ≤ now then
      (some ⟨resource, name, owner⟩, table.map fun other =>
        if other.resource == resource && other.name == name then row else other)
    else (none, table)

/-- Gives a lease back. -/
def release (table : Table) (handle : Handle) : Table :=
  table.filter fun row =>
    !(row.resource == handle.resource && row.name == handle.name && row.owner == handle.owner)

end Table

end Zonecast.Lock
