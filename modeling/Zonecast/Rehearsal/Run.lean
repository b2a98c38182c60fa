/-
Work in the world of a rehearsal: each process of publishing, with its calls met one after the
other. Work may be limited in time. A call that is not answered in time ends the work at that
call: under a lease, the deadline comes first if it is not later than the other limit, and then
only the work under the lease ends. Work that ends while it holds a lease gives it back.
-/
import Zonecast.Rehearsal.World

namespace Zonecast.Rehearsal

open Writer (ZoneWriter)

/-! ### Limits -/

/-- What comes of a call when work may take so long, in milliseconds since it began. -/
def settle {ρ : Type} (limit : Option Nat) : Process.Outcome World ρ → Option ρ × World
  | .replied reply world _ => (some reply, world)
  | .asleep delay world resume =>
    let due := world.elapsed + delay
    if limit.all (due ≤ ·) then
      let (reply, world) := resume { world with elapsed := due }
      (some reply, world)
    else (none, { world with elapsed := limit.getD due })
  | .parked world _ => (none, { world with elapsed := limit.getD world.elapsed })
  | .stalled world => (none, { world with elapsed := limit.getD world.elapsed })

/-- The earlier of two limits. -/
def earlier : Option Nat → Option Nat → Option Nat
  | some first, some second => some (min first second)
  | some first, none => some first
  | none, second => second

/-- The world in which work that did not end has left its place in every line. -/
def abandoned (world : World) : World :=
  { world with memory := world.memory.abandon 0 }

/-! ### Single processes -/

/-- Answers a call of upkeep. -/
def answerUpkeep (request : Upkeep.Call) (world : World) :
    Option (Zonecast.Upkeep.Reply request) × World :=
  settle none (World.meetUpkeep 0 request world)

/-- Runs the upkeep pass on a zone as it is stored. -/
def maintain (zone : Zone.Detail) (world : World) : World :=
  ((Upkeep.pass world.configuration.defaults zone).follow answerUpkeep world).2

/-- Resolves zone names together, started in their order. -/
def resolveAll (names : List String) (world : World) :
    List (Option (Except Directory.Error String)) × World :=
  Process.together World.meetCached 2
    (names.map (Directory.resolve world.configuration.defaults)) world

/-- Answers a call of a commit. -/
def answerCommit (limit : Option Nat) :
    (request : Writer.CommitCall) → World → Option (Commit.Reply request) × World
  | .registry request, world => settle limit (world.meetRegistry request)
  | .directory request, world => settle limit (World.meetCached 0 request world)
  | .patch zone recordSets, world => settle limit (world.meetBackend (.patchZone zone recordSets))

/-! ### Writers -/

/-- A writer that names are staged on. -/
inductive StagedWriter
  | zone (writer : ZoneWriter)
  /-- Only notes what is done with it. -/
  | scripted
  deriving DecidableEq, Repr

/-- The name by which batches know the zone writer. -/
def zoneWriterName : String := "PowerDnsWriter"

/-- The name by which batches know the scripted writer. -/
def scriptedWriterName : String := "Scripted"

/-- The names of all writers. -/
def writerNames : List String := [zoneWriterName, scriptedWriterName]

/-- A fresh writer. -/
def createWriter (name tld : String) (world : World) : Option StagedWriter × World :=
  if name = zoneWriterName then (some (.zone (.create tld)), world)
  else if name = scriptedWriterName then (some .scripted, world.note (.createWriter tld))
  else (none, world)

/-- Stages a domain. -/
def stageDomain (name : String) (writer : StagedWriter) (world : World) : StagedWriter × World :=
  match writer with
  | .zone writer => (.zone (writer.stageDomain name), world)
  | .scripted => (.scripted, world.note (.stageDomain name))

/-- Stages a host. -/
def stageHost (name : String) (writer : StagedWriter) (world : World) : StagedWriter × World :=
  match writer with
  | .zone writer => (.zone (writer.stageHost name), world)
  | .scripted => (.scripted, world.note (.stageHost name))

/-- Commits. -/
def commitWriter (limit : Option Nat) (writer : StagedWriter) (world : World) :
    Option (Except Writer.Error Unit × StagedWriter) × World :=
  match writer with
  | .zone writer =>
    let (ended, world) :=
      (writer.commit world.configuration.writer).follow (answerCommit limit) world
    (ended.map fun (result, writer) => (result, .zone writer), world)
  | .scripted =>
    let (ended, world) := settle limit world.meetScriptedCommit
    (ended.map (·, .scripted), world)

/-! ### Deliveries -/

/-- A delivery under way. -/
structure Course where
  world : World
  writer : Option StagedWriter
  held : Option Lock.Handle
  /-- When the work under the lease must be done. -/
  deadline : Option Nat

namespace Course

/-- A delivery that begins now. -/
def begin (world : World) : Course :=
  ⟨{ world with elapsed := 0 }, none, none, none⟩

/-- The course with what became of its world. -/
def moved {ρ : Type} (course : Course) (result : ρ × World) : ρ × Course :=
  (result.1, { course with world := result.2 })

/-- Does something with the writer. -/
def withWriter (act : StagedWriter → World → StagedWriter × World) (course : Course) : Course :=
  match course.writer with
  | some writer =>
    let (writer, world) := act writer course.world
    { course with writer := some writer, world := world }
  | none => course

/-- Answers a call under the lease. -/
def answerLeased (limit : Option Nat) :
    (request : Publish.LeasedCall) → Course → Option (Leased.Reply request) × Course
  | .createWriter name tld, course =>
    let (writer, world) := createWriter name tld course.world
    (some writer.isSome, { course with writer := writer, world := world })
  | .stageDomain name, course => (some (), course.withWriter (stageDomain name))
  | .stageHost name, course => (some (), course.withWriter (stageHost name))
  | .commit, course =>
    match course.writer with
    | some writer =>
      let (ended, world) := commitWriter limit writer course.world
      (ended.map (·.1), { course with
        writer := ended.map (·.2)
        world := world })
    | none => (none, course)
  | .requestRefresh domains hosts now, course =>
    course.moved (settle limit (course.world.meetRegistry (.requestRefresh domains hosts now)))
  | .now, course => (some course.world.now, course)
  | .count event, course => (some (), { course with world := course.world.count event })

/-- Answers a call of a delivery that may take so long. -/
def answerCall (limit : Option Nat) :
    (request : Publish.DeliveryCall) → Course → Option (Delivery.Reply request) × Course
  | .registry request, course => course.moved (settle limit (course.world.meetRegistry request))
  | .acquire resource name millis, course =>
    course.moved (settle limit (course.world.meetAcquire resource name millis))
  | .release handle, course => course.moved (settle limit (course.world.meetRelease handle))
  | .startDeadline seconds, course =>
    (some (), { course with deadline := some (course.world.elapsed + seconds * 1000) })
  | .leased request, course =>
    match course.answerLeased (earlier course.deadline limit) request with
    | (some reply, course) => (some ⟨some reply, nofun⟩, course)
    | (none, course) =>
      let course := { course with world := abandoned course.world }
      match course.deadline with
      | some deadline =>
        if late : request.isAwaited = true ∧ limit.all (deadline ≤ ·) then
          (some ⟨none, fun _ => late.1⟩, course)
        else (none, course)
      | none => (none, course)
  | .enqueue batch, course => course.moved (settle limit (course.world.meetEnqueue batch))
  | .send mail, course => course.moved (settle limit (course.world.meetSend mail))
  | .now, course => (some course.world.now, course)
  | .count event, course => (some (), { course with world := course.world.count event })

/-- Answers a call of a delivery, and keeps track of the lease. -/
def answer (limit : Option Nat) (request : Publish.DeliveryCall) (course : Course) :
    Option (Delivery.Reply request) × Course :=
  let held := Publish.Delivery.holdingAfterCall course.held request
  match answerCall limit request { course with held := held } with
  | (some reply, course) =>
    (some reply,
      { course with held := Publish.Delivery.holdingAfterReply course.held request reply })
  | (none, course) => (none, course)

/-- Gives back a lease that is still held. -/
def close (course : Course) : World :=
  match course.held with
  | some handle => (settle none (course.world.meetRelease handle)).2
  | none => course.world

/-- Answers a call that answering a request makes. -/
def answerApi :
    (request : Api.ApiCall) → Course → Option (Zonecast.Api.Reply request) × Course
  | .delivery request, course => course.answer none request
  | .exposition, course => (some course.world.metrics.exposition, course)

end Course

/-- A delivery, which may be limited in time; ends with nothing if the limit comes first. -/
def publish (batch : Publish.Batch) (attempt : Nat) (limit : Option Nat) (world : World) :
    Option (Except Publish.Error Publish.Outcome) × World :=
  let process := Publish.Delivery.publish world.configuration.delivery batch attempt
  let (result, course) := process.follow (Course.answer limit) (Course.begin world)
  (result, course.close)

/-- Tells the registrar of a batch's first item. -/
def notify (batch : Publish.Batch) (world : World) : World :=
  let process := Publish.Delivery.notify world.configuration.delivery.mail batch
  (process.follow (Course.answer none) (Course.begin world)).2.close

/-- Answers a request. -/
def respond (request : Api.Request) (world : World) : Option Api.Response × World :=
  let (response, course) :=
    (Api.respond world.configuration request).follow Course.answerApi (Course.begin world)
  (response, course.close)

/-! ### Leases -/

/-- How long a lease that is only tried lasts, in milliseconds. -/
def trialLease : Nat := 180000

/-- Acquires a lease and at once gives it back; answers whether it could be acquired. A lease that
is dropped is given back too, but whether that succeeds is not told. -/
def tryLease (resource name : String) (dropped : Bool) (world : World) :
    Option (Except Lock.Error Bool) × World :=
  match settle none ((world.meetAcquire resource name trialLease)) with
  | (some (.ok (some handle)), world) =>
    let (released, world) := settle none (world.meetRelease handle)
    if dropped then (some (.ok true), world)
    else (released.map fun released => released.map fun _ => true, world)
  | (some (.ok none), world) => (some (.ok false), world)
  | (some (.error error), world) => (some (.error error), world)
  | (none, world) => (none, world)

end Zonecast.Rehearsal
