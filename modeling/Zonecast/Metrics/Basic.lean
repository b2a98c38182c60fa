/-
What publishing counts: the names staged and those turned away, how deliveries end, how commits
end and how long they take, how old names are when a delivery ends, and the failures of upkeep.
Counters are kept by labels; looking at a counter makes it exist.
-/
import Zonecast.Metrics.Histogram
import Zonecast.Upkeep.Basic

namespace Zonecast

namespace Metrics

/-! ### Events -/

/-- Whether a staged name belongs to the TLD of its batch. -/
inductive Admission
  | accepted
  | rejected
  deriving DecidableEq, Repr

def Admission.label : Admission → String
  | .accepted => "accepted"
  | .rejected => "rejected"

/-- How a delivery ends. -/
inductive Ending
  | success
  | commitFailure
  | lockFailure
  | badLockIndex
  | badWriter
  | maxRetriesExceeded
  deriving DecidableEq, Repr

def Ending.label : Ending → String
  | .success => "success"
  | .commitFailure => "commit_failure"
  | .lockFailure => "lock_failure"
  | .badLockIndex => "bad_lock_index"
  | .badWriter => "bad_writer"
  | .maxRetriesExceeded => "max_retries_exceeded"

/-- How a commit ends. -/
inductive CommitEnding
  | success
  | failure
  deriving DecidableEq, Repr

def CommitEnding.label : CommitEnding → String
  | .success => "success"
  | .failure => "failure"

/-- Something to count. Durations are in milliseconds. -/
inductive Event
  | domains (tld : String) (admission : Admission) (count : UInt64)
  | hosts (tld : String) (admission : Admission) (count : UInt64)
  | delivery (tld writer : String) (ending : Ending) (age delay : Int)
  | commit (tld writer : String) (ending : CommitEnding) (duration : Int)
  | failedCheck (check : Upkeep.Check)
  | failedRectify
  deriving DecidableEq, Repr

/-! ### Labelled values -/

/-- Label names and their values, in written order. -/
abbrev Labels := List (String × String)

/-- Values by their labels. -/
abbrev Family (α : Type) := List (Labels × α)

namespace Family

variable {α : Type}

/-- The value with these labels, if it exists. -/
def get? (family : Family α) (labels : Labels) : Option α :=
  (family.find? fun sample => sample.1 == labels).map (·.2)

/-- Makes the value with these labels exist. -/
def touch (fresh : α) (labels : Labels) (family : Family α) : Family α :=
  if (family.get? labels).isSome then family else family ++ [(labels, fresh)]

/-- Changes the value with these labels, which comes to exist if it does not. -/
def update (fresh : α) (change : α → α) (labels : Labels) (family : Family α) : Family α :=
  (family.touch fresh labels).map fun sample =>
    if sample.1 == labels then (sample.1, change sample.2) else sample

end Family

def tldLabels (tld status : String) : Labels := [("tld", tld), ("status", status)]

def writerLabels (tld writer : String) : Labels := [("tld", tld), ("writer", writer)]

def endingLabels (tld writer status : String) : Labels :=
  writerLabels tld writer ++ [("status", status)]

def checkLabels (check : Upkeep.Check) : Labels := [("check", check.label)]

end Metrics

open Metrics in
/-- Everything that is counted. -/
structure Metrics where
  domains : Family UInt64
  hosts : Family UInt64
  deliveries : Family UInt64
  commits : Family UInt64
  commitDuration : Family Histogram
  itemAge : Family Histogram
  queueDelay : Family Histogram
  failedChecks : Family UInt64
  failedRectifies : UInt64

namespace Metrics

/-- Nothing counted. -/
def empty : Metrics := ⟨[], [], [], [], [], [], [], [], 0⟩

/-- Counts an event. -/
def record (event : Event) (metrics : Metrics) : Metrics :=
  match event with
  | .domains tld admission count =>
    { metrics with domains := metrics.domains.update 0 (· + count) (tldLabels tld admission.label) }
  | .hosts tld admission count =>
    { metrics with hosts := metrics.hosts.update 0 (· + count) (tldLabels tld admission.label) }
  | .delivery tld writer ending age delay =>
    let observed (millis : Int) (family : Family Histogram) :=
      family.update (.create Histogram.ageBounds) (.observe millis) (writerLabels tld writer)
    { metrics with
      deliveries := metrics.deliveries.update 0 (· + 1) (endingLabels tld writer ending.label)
      itemAge := observed age metrics.itemAge
      queueDelay := observed delay metrics.queueDelay }
  | .commit tld writer ending duration =>
    { metrics with
      commits := metrics.commits.update 0 (· + 1) (endingLabels tld writer ending.label)
      commitDuration := metrics.commitDuration.update (.create Histogram.latencyBounds)
        (.observe duration) (writerLabels tld writer) }
  | .failedCheck check =>
    { metrics with failedChecks := metrics.failedChecks.update 0 (· + 1) (checkLabels check) }
  | .failedRectify => { metrics with failedRectifies := metrics.failedRectifies + 1 }

/-! ### Looking at a counter -/

/-- A counter with labels. -/
inductive Reading
  | deliveries (tld writer : String) (ending : Ending)
  | domains (tld : String) (admission : Admission)
  | failedChecks (check : Upkeep.Check)
  | failedRectifies
  deriving DecidableEq, Repr

/-- The value of a counter, which comes to exist if it does not. -/
def look (reading : Reading) (metrics : Metrics) : UInt64 × Metrics :=
  match reading with
  | .deliveries tld writer ending =>
    let labels := endingLabels tld writer ending.label
    ((metrics.deliveries.get? labels).getD 0,
      { metrics with deliveries := metrics.deliveries.touch 0 labels })
  | .domains tld admission =>
    let labels := tldLabels tld admission.label
    ((metrics.domains.get? labels).getD 0,
      { metrics with domains := metrics.domains.touch 0 labels })
  | .failedChecks check =>
    let labels := checkLabels check
    ((metrics.failedChecks.get? labels).getD 0,
      { metrics with failedChecks := metrics.failedChecks.touch 0 labels })
  | .failedRectifies => (metrics.failedRectifies, metrics)

end Metrics

end Zonecast
