/-
The collaborators of publishing, in memory: a registry, locks, a zone backend, a queue and a mail
relay, with a clock that moves only when told to, or with each answered call to the backend. Every
call is noted as an event. Calls can be made to fail, or to stay unanswered, by the name of their
operation.

Time of its own passes where a call takes a while: the creation of a zone takes ten milliseconds,
at the end of which the zone is there.
-/
import Zonecast.Api.Respond
import Zonecast.Backend.Store
import Zonecast.Configuration.Basic
import Zonecast.Directory.Memory
import Zonecast.Metrics.Exposition
import Zonecast.Rehearsal.Event

namespace Zonecast.Rehearsal

open Backend (Store Table)

/-! ### Failures -/

/-- How a call is made to fail. -/
inductive FailureKind
  | status
  | notFound
  /-- The call is never answered. -/
  | stall
  deriving DecidableEq, Repr

/-- A failure of the calls of one operation. -/
structure Failure where
  kind : FailureKind
  status : Nat
  message : String
  /-- How many calls still succeed before calls fail. -/
  skip : Nat
  /-- How many calls still fail after that; all, if there is no number. -/
  times : Option Nat
  deriving DecidableEq, Repr

/-- Whether the next call fails, and what remains of the failure after it. -/
def Failure.next (failure : Failure) : Bool × Failure :=
  if 0 < failure.skip then (false, { failure with skip := failure.skip - 1 })
  else
    match failure.times with
    | none => (true, failure)
    | some 0 => (false, failure)
    | some (left + 1) => (true, { failure with times := some left })

/-! ### The world -/

/-- Everything in memory. -/
structure World where
  configuration : Configuration
  now : Instant
  /-- What each call to the backend moves the clock by, in milliseconds. -/
  latency : Int
  failures : Table Failure
  shards : Table Nat
  domains : Table Domain
  hosts : Table Host
  registrars : Table Registrar
  backend : Store
  locks : List (String × String)
  memory : Directory.Memory
  metrics : Metrics
  /-- The latest first. -/
  events : List Event
  /-- The time that calls have taken since the work at hand began, in milliseconds. -/
  elapsed : Nat

namespace World

/-- Nothing there, at a time. -/
def create (configuration : Configuration) (now : Instant) : World where
  configuration := configuration
  now := now
  latency := 0
  failures := []
  shards := []
  domains := []
  hosts := []
  registrars := []
  backend := .empty
  locks := []
  memory := .create configuration.backend.horizonMillis
  metrics := .empty
  events := []
  elapsed := 0

/-- Notes a call. -/
def note (event : Event) (world : World) : World :=
  { world with events := event :: world.events }

/-- The locks that are held, in the order of resource and name. -/
def sortedLocks (world : World) : List (String × String) :=
  world.locks.mergeSort fun first second =>
    decide (first.1 < second.1) || (first.1 == second.1 && decide (first.2 ≤ second.2))

/-- Moves the clock. -/
def advance (millis : Int) (world : World) : World :=
  { world with now := world.now.addMillis millis }

/-- Counts an event of the metrics. -/
def count (event : Metrics.Event) (world : World) : World :=
  { world with metrics := world.metrics.record event }

/-- The failure that the next call of an operation meets, if it meets one. -/
def trial (operation : String) (world : World) : Option Failure × World :=
  match world.failures.get? operation with
  | none => (none, world)
  | some failure =>
    let (fails, left) := failure.next
    (if fails then some failure else none,
      { world with failures := world.failures.put operation left })

/-! ### Meeting calls -/

/-- Answers a call that moves the clock by so much, unless a failure stands in its way. A failing
call moves the clock too, one that is never answered does not. -/
def attemptFor {ρ : Type} (millis : Int) (operation : String) (fail : Failure → ρ)
    (serve : World → Process.Outcome World ρ) (world : World) : Process.Outcome World ρ :=
  match world.trial operation with
  | (none, world) => serve (world.advance millis)
  | (some failure, world) =>
    if failure.kind = .stall then .stalled world
    else .replied (fail failure) (world.advance millis) []

/-- Answers a call, unless a failure stands in its way. -/
def attempt {ρ : Type} : String → (Failure → ρ) → (World → Process.Outcome World ρ) → World →
    Process.Outcome World ρ :=
  attemptFor 0

/-- How long the creation of a zone takes, in milliseconds. -/
def creationTime : Nat := 10

/-- A call to the backend, with what the store says to it. -/
def serveBackend (request : Backend.Call) (world : World) :
    Except Backend.Error (Backend.Value request) × World :=
  let (reply, store) := world.backend.serve request
  (reply, { world with backend := store })

/-- Meets a call to the backend. -/
def meetBackend (request : Backend.Call) (world : World) :
    Process.Outcome World (Except Backend.Error (Backend.Value request)) :=
  let operation := request.operation
  let fail (failure : Failure) : Except Backend.Error (Backend.Value request) :=
    if failure.kind = .notFound then .error (.notFound operation)
    else .error (.status operation failure.status failure.message)
  (world.note (.backend request)).attemptFor world.latency operation fail fun world =>
    match request with
    | .createZone creation =>
      .asleep creationTime world (serveBackend (.createZone creation))
    | request =>
      let (reply, world) := world.serveBackend request
      .replied reply world []

/-- The name of a registry call's operation, and what a failure is told of. -/
def registryOperation : Registry.Call → String × String
  | .shardCount tld => ("publish_shard_count", tld)
  | .domain name => ("load_domain", name)
  | .host name => ("load_host", name)
  | .registrar id => ("load_registrar", id)
  | .requestRefresh _ _ _ => ("request_refresh", "refresh")

/-- What the registry says to a call. -/
def serveRegistry (world : World) : (request : Registry.Call) → Registry.Value request
  | .shardCount tld => world.shards.get? tld
  | .domain name => world.domains.get? name
  | .host name => world.hosts.get? name
  | .registrar id => world.registrars.get? id
  | .requestRefresh _ _ _ => ()

/-- Meets a call to the registry. Lookups are no events. -/
def meetRegistry (request : Registry.Call) (world : World) :
    Process.Outcome World (Except Registry.Error (Registry.Value request)) :=
  let noted :=
    match request with
    | .requestRefresh domains hosts now => world.note (.refresh domains hosts now)
    | _ => world
  let (operation, subject) := registryOperation request
  noted.attempt operation (fun failure => .error (.corrupt subject failure.message)) fun world =>
    .replied (.ok (world.serveRegistry request)) world []

/-- What a failing store of locks says. -/
def lockFailure : Lock.Error := ⟨"attempted to acquire a connection on a closed pool"⟩

/-- Meets the wish for a lease. Leases do not run out. -/
def meetAcquire (resource name : String) (millis : Nat) (world : World) :
    Process.Outcome World (Except Lock.Error (Option Lock.Handle)) :=
  (world.note (.acquire resource name millis)).attempt "try_acquire"
    (fun _ => .error lockFailure) fun world =>
      if (resource, name) ∈ world.locks then .replied (.ok none) world []
      else .replied (.ok (some ⟨resource, name, ""⟩))
        { world with locks := world.locks ++ [(resource, name)] } []

/-- Meets the return of a lease. -/
def meetRelease (handle : Lock.Handle) (world : World) :
    Process.Outcome World (Except Lock.Error Unit) :=
  (world.note (.release handle.resource handle.name)).attempt "release"
    (fun _ => .error lockFailure) fun world =>
      .replied (.ok ())
        { world with locks := world.locks.filter (· != (handle.resource, handle.name)) } []

/-- Meets a batch for the queue. -/
def meetEnqueue (batch : Publish.Batch) (world : World) :
    Process.Outcome World (Except Publish.Refusal Unit) :=
  (world.note (.enqueue batch)).attempt "enqueue"
    (fun failure => .error (.rejected failure.status failure.message))
    fun world => .replied (.ok ()) world []

/-- Meets a mail. -/
def meetSend (mail : Publish.Mail) (world : World) :
    Process.Outcome World (Except Publish.Refusal Unit) :=
  (world.note (.send mail)).attempt "send"
    (fun failure => .error (.rejected failure.status failure.message))
    fun world => .replied (.ok ()) world []

/-- Meets the commit of a scripted writer, which only takes time. -/
def meetScriptedCommit (world : World) : Process.Outcome World (Except Writer.Error Unit) :=
  (world.note .commit).attemptFor world.latency "commit"
    (fun failure => .error (.patch (.status "patch_zone" failure.status failure.message)))
    fun world => .replied (.ok ()) world []

/-- Meets a call of upkeep. -/
def meetUpkeep : Process.Handler World Upkeep
  | _, .backend request, world => world.meetBackend request
  | _, .now, world => .replied world.now world []
  | _, .countFailure check, world => .replied () (world.count (.failedCheck check)) []
  | _, .countRectifyFailure, world => .replied () (world.count .failedRectify) []

/-- Meets a call of resolving a zone. -/
def meetCached : Process.Handler World (Cached Upkeep) :=
  Directory.meet World.memory (fun memory world => { world with memory := memory }) World.now
    meetUpkeep

end World

end Zonecast.Rehearsal
