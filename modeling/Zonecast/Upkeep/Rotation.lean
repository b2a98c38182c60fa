/-
The rotation state of a zone's signing key and its tag. The state lives in the account field of
the zone on the backend, as a word and a count of milliseconds: `ZSK-EXPIRE:` names the time after
which the active key is to be replaced, `ZSK-ACTIVATE:` the time after which the published
successor takes over. Any other account, a time that no instant can hold included, is no rotation
state.
-/
import Zonecast.Text.Blank
import Zonecast.Text.Integer
import Zonecast.Time.Instant

namespace Zonecast.Upkeep

open Zonecast.Text

/-- Where a zone stands in the rotation of its zone signing key. -/
inductive Rotation
  /-- No recognised tag. -/
  | untracked
  /-- The active key is to be replaced once this time has come. -/
  | expiring (since : Instant)
  /-- A successor is published and takes over once this time has come. -/
  | activating (since : Instant)
  deriving DecidableEq, Repr

namespace Rotation

def expireTag : List Char := "ZSK-EXPIRE:".toList
def activateTag : List Char := "ZSK-ACTIVATE:".toList

/-- The instant after a tag, if the account starts with it. -/
def afterTag? (tag account : List Char) : Option Instant :=
  if tag.isPrefixOf account then
    match readInt64 (String.ofList (account.drop tag.length)) with
    | .ok millis => Instant.ofMillis? millis.toInt
    | .error _ => none
  else none

/-- The state that an account field records. -/
def ofAccount (account : Option String) : Rotation :=
  match account with
  | none => untracked
  | some account =>
    let text := trimChars account.toList
    match afterTag? expireTag text with
    | some since => expiring since
    | none =>
      match afterTag? activateTag text with
      | some since => activating since
      | none => untracked

/-- The account field that records a state. -/
def toAccount : Rotation → String
  | untracked => ""
  | expiring since => String.ofList expireTag ++ toString since.toMillis
  | activating since => String.ofList activateTag ++ toString since.toMillis

end Rotation

end Zonecast.Upkeep
