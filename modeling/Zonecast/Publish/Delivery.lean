/-
One delivery of a batch by the queue. The shard is validated against the registry's count, its
lock is acquired, the batch is worked on under the lease, and the lease is given back. The work
has a deadline, which lies before the end of the lease; work that misses it is abandoned and
counts as a failed commit. A failed commit is settled after the lease is given back: left to the
queue to deliver again, cut in two, or given up with a mail to the registrar.

A failure asks the queue to deliver the same batch again.
-/
import Zonecast.Lock.Basic
import Zonecast.Publish.Leased
import Zonecast.Publish.Mail

namespace Zonecast

namespace Publish

/-! ### Errors -/

/-- Why the queue or the mail relay did not take something. -/
inductive Refusal
  | transport
  | rejected (status : Nat) (message : String)
  deriving DecidableEq, Repr

/-- The wording of a failure of the queue. What the transport said is not part of it. -/
def Refusal.queueMessage : Refusal → String
  | .transport => "task queue request failed"
  | .rejected status message =>
    "task queue rejected task with " ++ toString status ++ ": " ++ message

/-- The wording of a failure of the mail relay. What the transport said is not part of it. -/
def Refusal.mailMessage : Refusal → String
  | .transport => "mail relay request failed"
  | .rejected status message =>
    "mail relay rejected message with " ++ toString status ++ ": " ++ message

/-- Why a delivery is not done. -/
inductive Error
  | lockUnavailable (tld name : String)
  | lock (source : Lock.Error)
  | commit (attempt : Nat) (source : Writer.Error)
  | requeue (source : Refusal)
  | registry (source : Registry.Error)
  deriving DecidableEq, Repr

/-- The wording of a failure. -/
def Error.message : Error → String
  | .lockUnavailable tld name =>
    "publish lock '" ++ name ++ "' for " ++ tld ++ " is held elsewhere"
  | .lock source => source.message
  | .commit attempt source =>
    "commit failed on attempt " ++ toString attempt ++ ": " ++ source.message
  | .requeue source => "failed to re-enqueue batch: " ++ source.queueMessage
  | .registry source => source.message

/-! ### Calls -/

/-- What publishing is set up with. Attempts count deliveries by the queue, from zero. -/
structure Settings where
  leaseSeconds : Nat
  retriesBeforeSplit : Nat
  retriesBeforeGivingUp : Nat
  mail : MailSettings
  deriving DecidableEq, Repr

/-- What remains of a lease when the deadline comes, in seconds. -/
def leaseMargin : Nat := 15

/-- The time allowed for the work under the lease, in seconds. -/
def Settings.deadline (settings : Settings) : Nat :=
  settings.leaseSeconds - leaseMargin

/-- A call that a delivery makes. -/
inductive DeliveryCall
  | registry (request : Registry.Call)
  /-- Answered by nothing if the lock is held elsewhere. -/
  | acquire (resource name : String) (millis : Nat)
  | release (handle : Lock.Handle)
  /-- From now on, work under the lease may take so many seconds. -/
  | startDeadline (seconds : Nat)
  /-- A call under the lease. -/
  | leased (request : LeasedCall)
  | enqueue (batch : Batch)
  | send (mail : Mail)
  | now
  | count (event : Metrics.Event)

/-- What a call under the lease is answered with: its reply, or nothing if the deadline comes
first, which it can only while the call is waited for. -/
structure Timely (request : LeasedCall) where
  reply? : Option (Leased.Reply request)
  missed : reply? = none → request.isAwaited = true

end Publish

open Publish in
/-- The interface of a delivery. -/
def Delivery : Interface where
  Call := DeliveryCall
  Reply
    | .registry request => Except Registry.Error (Registry.Value request)
    | .acquire _ _ _ => Except Lock.Error (Option Lock.Handle)
    | .release _ => Except Lock.Error Unit
    | .startDeadline _ => Unit
    | .leased request => Timely request
    | .enqueue _ => Except Refusal Unit
    | .send _ => Except Refusal Unit
    | .now => Instant
    | .count _ => Unit

namespace Publish

namespace Delivery

/-- A call of a delivery. -/
def perform (request : DeliveryCall) : Process Delivery (Zonecast.Delivery.Reply request) :=
  Process.perform (I := Delivery) request

/-- A call to the registry. -/
def registry (request : Registry.Call) :
    Process Delivery (Except Registry.Error (Registry.Value request)) :=
  perform (.registry request)

/-- The reading of the clock. -/
def now : Process Delivery Instant := perform .now

/-- Counts how the delivery ends. -/
def countEnding (batch : Batch) (tld : String) (ending : Metrics.Ending) :
    Process Delivery Unit := do
  let _ ← perform (.count (ended batch tld ending (← now)))

/-- Does work under the deadline; ends with nothing if the deadline comes first. -/
def underDeadline {α : Type} : Process Leased α → Process Delivery (Option α)
  | .done value => .done (some value)
  | .call request next =>
    .call (.leased request) fun timely : Timely request =>
      match timely.reply? with
      | some reply => underDeadline (next reply)
      | none => .done none

/-! ### Telling the registrar -/

/-- The registrar of an item, if item and registrar are there. -/
def sponsor (kind : ItemKind) (name : String) :
    Process Delivery (Except Registry.Error (Option Registrar)) := do
  let found : Except Registry.Error (Option String) ←
    match kind with
    | .domain => (fun reply => reply.map fun domain : Option Domain =>
        domain.map (·.registrarId)) <$> registry (.domain name)
    | .host => (fun reply => reply.map fun host : Option Host =>
        host.map (·.registrarId)) <$> registry (.host name)
  match found with
  | .error error => return .error error
  | .ok none => return .ok none
  | .ok (some id) => registry (.registrar id)

/-- Mails the registrar of an item. Where the item or the registrar is missing, or a call fails,
nothing is sent and nothing else happens. -/
def notifyAbout (settings : MailSettings) (kind : ItemKind) (name : String) :
    Process Delivery Unit := do
  match ← sponsor kind name with
  | .ok (some registrar) =>
    let _ ← perform (.send (Mail.compose settings registrar kind name))
  | _ => return ()

/-- Mails the registrar of the first domain of a batch, or else of its first host. -/
def notify (settings : MailSettings) (batch : Batch) : Process Delivery Unit :=
  match batch.domains, batch.hosts with
  | domain :: _, _ => notifyAbout settings .domain domain
  | [], host :: _ => notifyAbout settings .host host
  | [], [] => return ()

/-! ### Settling a failed commit -/

/-- Enqueues the two halves of a batch. -/
def enqueueHalves (batch : Batch) : Process Delivery (Except Error Outcome) := do
  let halves := batch.split (← now)
  let first : Except Refusal Unit ← perform (.enqueue halves.1)
  match first with
  | .error source => return .error (.requeue source)
  | .ok () =>
    let second : Except Refusal Unit ← perform (.enqueue halves.2)
    match second with
    | .error source => return .error (.requeue source)
    | .ok () => return .ok .split

/-- What becomes of a batch whose commit failed. -/
def settle (settings : Settings) (batch : Batch) (attempt : Nat) (source : Writer.Error) :
    Process Delivery (Except Error Outcome) := do
  if attempt < settings.retriesBeforeSplit then return .error (.commit attempt source)
  else if batch.canSplit then enqueueHalves batch
  else if attempt < settings.retriesBeforeGivingUp then return .error (.commit attempt source)
  else
    notify settings.mail batch
    countEnding batch (Name.bare batch.tld) .maxRetriesExceeded
    return .ok .permanentlyFailed

/-! ### A delivery -/

/-- Sends the names of a batch with a bad shard back through the refresh path. -/
def requeue (batch : Batch) (tld : String) : Process Delivery (Except Error Outcome) := do
  countEnding batch tld RequeueReason.badShard.ending
  match ← registry (.requestRefresh batch.domains batch.hosts (← now)) with
  | .ok _ => return .ok (.requeued .badShard)
  | .error source => return .error (.registry source)

/-- Works on a batch under a lease and gives the lease back, whatever came of the work. -/
def workUnderLease (settings : Settings) (batch : Batch) (tld : String) (handle : Lock.Handle) :
    Process Delivery (Except LeasedError Outcome) := do
  perform (.startDeadline settings.deadline)
  let result ←
    match ← underDeadline (Leased.work batch tld) with
    | some result => pure result
    | none => do
      countEnding batch tld .commitFailure
      pure (.error (.commit (.timedOut settings.deadline)))
  let _ ← perform (.release handle)
  return result

/-- A delivery of a batch whose shard is the configured one. -/
def publishShard (settings : Settings) (batch : Batch) (attempt : Nat) (tld : String)
    (shard : Shard) : Process Delivery (Except Error Outcome) := do
  let acquired : Except Lock.Error (Option Lock.Handle) ←
    perform (.acquire tld shard.lockName (settings.leaseSeconds * 1000))
  match acquired with
  | .error source => return .error (.lock source)
  | .ok none =>
    countEnding batch tld .lockFailure
    return .error (.lockUnavailable tld shard.lockName)
  | .ok (some handle) =>
    match ← workUnderLease settings batch tld handle with
    | .ok outcome => return .ok outcome
    | .error (.registry source) => return .error (.registry source)
    | .error (.commit source) => settle settings batch attempt source

/-- One delivery of a batch. -/
def publish (settings : Settings) (batch : Batch) (attempt : Nat) :
    Process Delivery (Except Error Outcome) := do
  let tld := Name.bare batch.tld
  let configured : Except Registry.Error (Option Nat) ← registry (.shardCount tld)
  match configured, Shard.resolve batch.lockIndex batch.lockCount with
  | .error source, _ => return .error (.registry source)
  | .ok configured, .ok shard =>
    if some shard.count = configured then publishShard settings batch attempt tld shard
    else requeue batch tld
  | .ok _, .error _ => requeue batch tld

/-! ### The lease in hand -/

/-- The lease that a delivery holds after making a call: one that is being given back is no longer
held. -/
def holdingAfterCall (held : Option Lock.Handle) : DeliveryCall → Option Lock.Handle
  | .release _ => none
  | _ => held

/-- The lease that a delivery holds after the reply to a call. -/
def holdingAfterReply (held : Option Lock.Handle) :
    (request : DeliveryCall) → Zonecast.Delivery.Reply request → Option Lock.Handle
  | .acquire _ _ _, (reply : Except Lock.Error (Option Lock.Handle)) =>
    match reply with
    | .ok (some handle) => some handle
    | _ => held
  | _, _ => held

end Delivery

end Publish

end Zonecast
