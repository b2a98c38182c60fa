/-
Instants of UTC. An instant is a whole second since 1970 and a part of it in nanoseconds; the
part of a leap second runs on from one to two seconds of the second before it, so a leap second
is told apart from the second that follows it. Clocks are read in whole milliseconds and never
show a leap second; timestamps written by others may.

Instants are representable from year -262143 to year 262142. Both ends matter, because a stored
rotation time outside them is no rotation time.
-/
import Zonecast.Time.Calendar

namespace Zonecast

/-- An instant of UTC. -/
structure Instant where
  /-- Whole seconds since 1970-01-01T00:00:00Z. -/
  second : Int
  /-- Nanoseconds into that second; from 1000000000 on, into the leap second after it. -/
  nano : Nat
  deriving DecidableEq, Repr, Inhabited

namespace Instant

/-- The earlier instant has the smaller second, or the same second and the smaller part. -/
def lt (first second : Instant) : Bool :=
  first.second < second.second ||
    (first.second == second.second && first.nano < second.nano)

/-- Not later. -/
def le (first second : Instant) : Bool :=
  !lt second first

/-! ### Milliseconds -/

/-- The instant of a count of milliseconds since 1970. -/
def ofMillis (millis : Int) : Instant :=
  ⟨millis / 1000, (millis % 1000).toNat * 1000000⟩

/-- Whole milliseconds since 1970, cut down. -/
def toMillis (instant : Instant) : Int :=
  instant.second * 1000 + (instant.nano / 1000000 : Nat)

/-- The first and the last representable millisecond. -/
def firstMillis : Int := -8334601228800000
def lastMillis : Int := 8210266876799999

/-- The instant of a count of milliseconds, if it is representable. -/
def ofMillis? (millis : Int) : Option Instant :=
  if firstMillis ≤ millis ∧ millis ≤ lastMillis then some (ofMillis millis) else none

theorem toMillis_ofMillis (millis : Int) : (ofMillis millis).toMillis = millis := by
  have part : (0 : Int) ≤ millis % 1000 := Int.emod_nonneg _ (by decide)
  have cut : (millis % 1000).toNat * 1000000 / 1000000 = (millis % 1000).toNat :=
    Nat.mul_div_cancel _ (by decide)
  simp only [ofMillis, toMillis, cut, Int.toNat_of_nonneg part]
  omega

/-- The instant so many milliseconds later. A part inside a leap second counts as its place in
the second that follows. -/
def addMillis (instant : Instant) (millis : Int) : Instant :=
  let nanos : Int := instant.nano + millis * 1000000
  ⟨instant.second + nanos / 1000000000, (nanos % 1000000000).toNat⟩

/-! ### Differences -/

/-- Nanoseconds from an earlier instant to a later one. A leap second that lies between the two
times of day, on either side, counts as the second it is. -/
def nanosSince (later earlier : Instant) : Int :=
  let laterOfDay := later.second % 86400
  let earlierOfDay := earlier.second % 86400
  let leap : Int :=
    if earlierOfDay < laterOfDay then if 1000000000 ≤ earlier.nano then 1 else 0
    else if laterOfDay < earlierOfDay then if 1000000000 ≤ later.nano then -1 else 0
    else 0
  (later.second - earlier.second + leap) * 1000000000 + (later.nano - earlier.nano : Int)

/-- Whole milliseconds from an earlier instant to a later one, cut toward zero. -/
def millisSince (later earlier : Instant) : Int :=
  (nanosSince later earlier).tdiv 1000000

end Instant

end Zonecast
