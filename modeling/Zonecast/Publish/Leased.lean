/-
The part of a delivery that is done under the lease: the batch's names are staged on a fresh
writer, names outside the TLD are counted and left out, and the writer commits. A batch for a
writer that nobody knows goes back through the refresh path.
-/
import Zonecast.Metrics.Basic
import Zonecast.Publish.Batch
import Zonecast.Registry.Lookup
import Zonecast.Writer.Zone

namespace Zonecast

namespace Publish

/-! ### Outcomes -/

/-- How many names of a kind belong to the TLD and how many do not. -/
structure Counts where
  accepted : Nat
  rejected : Nat
  deriving DecidableEq, Repr

/-- Why names went back through the refresh path. -/
inductive RequeueReason
  | badShard
  | unknownWriter
  deriving DecidableEq, Repr

/-- How a delivery that is done ends. -/
inductive Outcome
  | succeeded (domains hosts : Counts)
  /-- The names went back through the refresh path. -/
  | requeued (reason : RequeueReason)
  /-- Two smaller batches were enqueued in place of this one. -/
  | split
  /-- Given up; the registrar has been told. -/
  | permanentlyFailed
  deriving DecidableEq, Repr

/-- Why what is done under the lease fails. -/
inductive LeasedError
  | commit (source : Writer.Error)
  | registry (source : Registry.Error)
  deriving DecidableEq, Repr

/-! ### Calls -/

/-- A call that is made under the lease. -/
inductive LeasedCall
  /-- A fresh writer of this name for a TLD; answered by whether there is one. -/
  | createWriter (writer tld : String)
  | stageDomain (name : String)
  | stageHost (name : String)
  | commit
  | requestRefresh (domains hosts : List String) (now : Instant)
  | now
  | count (event : Metrics.Event)

/-- Whether a call is waited for. -/
def LeasedCall.isAwaited : LeasedCall → Bool
  | .commit | .requestRefresh _ _ _ => true
  | _ => false

end Publish

open Publish in
/-- The interface of what is done under the lease. -/
def Leased : Interface where
  Call := LeasedCall
  Reply
    | .createWriter _ _ => Bool
    | .stageDomain _ => Unit
    | .stageHost _ => Unit
    | .commit => Except Writer.Error Unit
    | .requestRefresh _ _ _ => Except Registry.Error Unit
    | .now => Instant
    | .count _ => Unit

namespace Publish

/-- The event that a delivery ends in some way, at a reading of the clock. -/
def ended (batch : Batch) (tld : String) (ending : Metrics.Ending) (now : Instant) :
    Metrics.Event :=
  .delivery tld batch.writer ending (now.millisSince batch.itemsCreatedAt)
    (now.millisSince batch.enqueuedAt)

/-- The ending that a return to the refresh path counts as. -/
def RequeueReason.ending : RequeueReason → Metrics.Ending
  | .badShard => .badLockIndex
  | .unknownWriter => .badWriter

namespace Leased

/-- A call under the lease. -/
def perform (request : LeasedCall) : Process Leased (Zonecast.Leased.Reply request) :=
  Process.perform (I := Leased) request

/-- The reading of the clock. -/
def now : Process Leased Instant := perform .now

/-- Counts an event. -/
def count (event : Metrics.Event) : Process Leased Unit := perform (.count event)

/-- Counts how the delivery ends. -/
def countEnding (batch : Batch) (tld : String) (ending : Metrics.Ending) :
    Process Leased Unit := do
  count (ended batch tld ending (← now))

/-- Stages the names that lie under the TLD, in order. -/
def stageAll (tld : String) (stage : String → LeasedCall) : List String → Process Leased Unit
  | [] => return ()
  | name :: rest => do
    if Name.isStrictlyUnder name tld then
      let _ ← perform (stage name)
    stageAll tld stage rest

/-- How many names lie under the TLD and how many do not. -/
def tally (tld : String) (names : List String) : Counts :=
  ⟨names.countP fun name => Name.isStrictlyUnder name tld,
    names.countP fun name => !Name.isStrictlyUnder name tld⟩

/-- Commits the writer, and counts how that ends and how long it takes. -/
def commit (batch : Batch) (tld : String) : Process Leased (Except Writer.Error Unit) := do
  let started ← now
  let committed : Except Writer.Error Unit ← perform .commit
  let elapsed := (← now).millisSince started
  match committed with
  | .ok () =>
    count (.commit tld batch.writer .success elapsed)
    countEnding batch tld .success
  | .error _ =>
    count (.commit tld batch.writer .failure elapsed)
    countEnding batch tld .commitFailure
  return committed

/-- Stages the batch on its writer and commits. -/
def publish (batch : Batch) (tld : String) : Process Leased (Except LeasedError Outcome) := do
  stageAll tld .stageDomain batch.domains
  stageAll tld .stageHost batch.hosts
  let domains := tally tld batch.domains
  let hosts := tally tld batch.hosts
  count (.domains tld .accepted (UInt64.ofNat domains.accepted))
  count (.domains tld .rejected (UInt64.ofNat domains.rejected))
  count (.hosts tld .accepted (UInt64.ofNat hosts.accepted))
  count (.hosts tld .rejected (UInt64.ofNat hosts.rejected))
  match ← commit batch tld with
  | .ok () => return .ok (.succeeded domains hosts)
  | .error source => return .error (.commit source)

/-- Sends the names back through the refresh path. -/
def requeue (batch : Batch) (tld : String) : Process Leased (Except LeasedError Outcome) := do
  countEnding batch tld RequeueReason.unknownWriter.ending
  let refreshed : Except Registry.Error Unit ←
    perform (.requestRefresh batch.domains batch.hosts (← now))
  match refreshed with
  | .ok () => return .ok (.requeued .unknownWriter)
  | .error source => return .error (.registry source)

/-- What is done with a batch under the lease. -/
def work (batch : Batch) (tld : String) : Process Leased (Except LeasedError Outcome) := do
  let known : Bool ← perform (.createWriter batch.writer tld)
  if known then publish batch tld else requeue batch tld

end Leased

end Publish

end Zonecast
