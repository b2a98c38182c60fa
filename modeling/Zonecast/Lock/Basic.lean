/-
Leases on named locks. A lease belongs to whoever acquired it last: the token it was acquired with
is drawn anew each time, and giving a lease back removes it only where the token still matches.
-/

namespace Zonecast.Lock

/-- A lease that was acquired: what it is on, and the token it was acquired with. -/
structure Handle where
  resource : String
  name : String
  owner : String
  deriving DecidableEq, Repr

/-- The store of the locks fails, and says why. -/
structure Error where
  reason : String
  deriving DecidableEq, Repr

/-- The wording of a failure. -/
def Error.message (error : Error) : String :=
  "lock database error: " ++ error.reason

end Zonecast.Lock
