/-
The parts of a delivery around its lease. A call is one of the work that the lease is there for, or
asks for the lease, or gives it back, or hands something on: a batch to the queue, a mail to the
relay. The others, lookups, readings of the clock and counts, may be made anywhere.

A delivery goes through its phases in one order, which is said on what remains of it. While it seeks
the lease, it hands nothing on. Once the lease is granted, the deadline is started, and what follows
is the work, call by call, up to the return of the lease. What follows the return is the same
whatever the return was answered, and only there something is handed on.
-/
import Zonecast.Proofs.Deeds

namespace Zonecast.Publish

open Process

variable {α β : Type}

/-! ### Parts -/

/-- What a call is, in view of the lease. -/
inductive Part
  | neutral
  /-- The lease is asked for. -/
  | asking
  /-- The work that the lease is there for, its deadline included. -/
  | work
  /-- The lease is given back. -/
  | giving
  /-- A batch goes to the queue, or a mail to the relay. -/
  | handover
  deriving DecidableEq

/-- The part that a call belongs to. -/
def DeliveryCall.part : DeliveryCall → Part
  | .registry _ | .now | .count _ => .neutral
  | .acquire _ _ _ => .asking
  | .startDeadline _ | .leased _ => .work
  | .release _ => .giving
  | .enqueue _ | .send _ => .handover

/-- A call that may be made anywhere. -/
def isNeutral (request : DeliveryCall) : Prop :=
  request.part = .neutral

/-- A call that has nothing to do with the lease. -/
def isAside : DeliveryCall → Prop
  | .registry _ | .enqueue _ | .send _ | .now | .count _ => True
  | _ => False

theorem isAside_of_isNeutral {request : DeliveryCall} (neutral : isNeutral request) :
    isAside request := by
  cases request <;> trivial

theorem part_of_isAside {request : DeliveryCall} (aside : isAside request) :
    request.part = .neutral ∨ request.part = .handover := by
  cases request <;> first | exact .inl rfl | exact .inr rfl | exact aside.elim

/-! ### Phases -/

/-- The lease is given back, after calls that may be made anywhere. What follows does not depend on
what the return was answered. -/
inductive Returning (handle : Lock.Handle) : Process Delivery α → Prop
  | neutral {request : DeliveryCall} {next : Zonecast.Delivery.Reply request → Process Delivery α}
      (kind : isNeutral request) (rest : ∀ reply, Returning handle (next reply)) :
      Returning handle (.call (I := Delivery) request next)
  | release {next : Zonecast.Delivery.Reply (.release handle) → Process Delivery α}
      (heedless : ∀ reply other, next reply = next other)
      (rest : ∀ reply, (next reply).Only isAside) :
      Returning handle (.call (I := Delivery) (.release handle) next)

/-- Calls are made under the lease until it is given back. -/
inductive Protecting (handle : Lock.Handle) : Process Delivery α → Prop
  | leased {request : LeasedCall}
      {next : Zonecast.Delivery.Reply (.leased request) → Process Delivery α}
      (rest : ∀ timely, Protecting handle (next timely)) :
      Protecting handle (.call (I := Delivery) (.leased request) next)
  | returning {process : Process Delivery α} (returning : Returning handle process) :
      Protecting handle process

/-- The deadline is started, and the work begins. -/
inductive Granted (settings : Settings) (handle : Lock.Handle) : Process Delivery α → Prop
  | start {next : Zonecast.Delivery.Reply (.startDeadline settings.deadline) → Process Delivery α}
      (rest : Protecting handle (next ())) :
      Granted settings handle (.call (I := Delivery) (.startDeadline settings.deadline) next)

/-- The lease is asked for, if at all after calls that may be made anywhere. -/
inductive Seeking (settings : Settings) : Process Delivery α → Prop
  | done (value : α) : Seeking settings (.done value)
  | neutral {request : DeliveryCall} {next : Zonecast.Delivery.Reply request → Process Delivery α}
      (kind : isNeutral request) (rest : ∀ reply, Seeking settings (next reply)) :
      Seeking settings (.call (I := Delivery) request next)
  | acquire {resource name : String}
      {next : Zonecast.Delivery.Reply (.acquire resource name (settings.leaseSeconds * 1000)) →
        Process Delivery α}
      (granted : ∀ handle, Granted settings handle (next (.ok (some handle))))
      (excluded : (next (.ok none)).Only isNeutral)
      (failed : ∀ error, (next (.error error)).Only isNeutral) :
      Seeking settings
        (.call (I := Delivery) (.acquire resource name (settings.leaseSeconds * 1000)) next)

/-! ### Calls aside -/

theorem only_perform {kind : DeliveryCall → Prop} {request : DeliveryCall} (isKind : kind request) :
    (Delivery.perform request).Only kind :=
  ⟨isKind, fun _ => trivial⟩

theorem neutral_countEnding (batch : Batch) (tld : String) (ending : Metrics.Ending) :
    (Delivery.countEnding batch tld ending).Only isNeutral :=
  only_bind (only_perform rfl) fun _ => only_bind (only_perform rfl) fun _ => trivial

theorem neutral_requeue (batch : Batch) (tld : String) :
    (Delivery.requeue batch tld).Only isNeutral := by
  refine only_bind (neutral_countEnding _ _ _) fun _ => ?_
  refine only_bind (only_perform rfl) fun now => ?_
  refine only_bind (only_perform rfl) fun reply => ?_
  rcases reply with source | _
  · trivial
  · trivial

theorem only_sponsor (kind : ItemKind) (name : String) :
    (Delivery.sponsor kind name).Only isAside := by
  unfold Delivery.sponsor
  cases kind with
  | domain | host =>
    refine only_bind (only_bind (only_perform trivial) fun _ => trivial) fun found => ?_
    rcases found with error | (_ | id)
    · trivial
    · trivial
    · exact only_perform trivial

theorem only_notify (settings : MailSettings) (batch : Batch) :
    (Delivery.notify settings batch).Only isAside := by
  have about (kind : ItemKind) (name : String) :
      (Delivery.notifyAbout settings kind name).Only isAside := by
    refine only_bind (only_sponsor kind name) fun found => ?_
    rcases found with error | (_ | registrar)
    · trivial
    · trivial
    · exact only_bind (only_perform trivial) fun _ => trivial
  unfold Delivery.notify
  split
  · exact about _ _
  · exact about _ _
  · trivial

theorem only_settle (settings : Settings) (batch : Batch) (attempt : Nat) (source : Writer.Error) :
    (Delivery.settle settings batch attempt source).Only isAside := by
  unfold Delivery.settle
  split
  · trivial
  · split
    · refine only_bind (only_perform trivial) fun now => ?_
      refine only_bind (only_perform trivial) fun first => ?_
      rcases first with refusal | _
      · trivial
      · refine only_bind (only_perform trivial) fun second => ?_
        rcases second with refusal | _
        · trivial
        · trivial
    · split
      · trivial
      · exact only_bind (only_notify _ _) fun _ =>
          only_bind (only_mono (neutral_countEnding _ _ _) fun _ => isAside_of_isNeutral)
            fun _ => trivial

/-! ### Phases of sequences -/

theorem seeking_of_only {settings : Settings} {process : Process Delivery α}
    (only : process.Only isNeutral) : Seeking settings process := by
  induction process with
  | done value => exact .done value
  | call request next inductionHypothesis =>
    exact .neutral only.1 fun reply => inductionHypothesis reply (only.2 reply)

theorem returning_of_only_bind {handle : Lock.Handle} {process : Process Delivery α}
    {next : α → Process Delivery β} (only : process.Only isNeutral)
    (rest : ∀ value, Returning handle (next value)) : Returning handle (process.bind next) := by
  induction process with
  | done value => exact rest value
  | call request more inductionHypothesis =>
    exact .neutral only.1 fun reply => inductionHypothesis reply (only.2 reply)

/-- What follows the return of the lease is aside. -/
theorem Returning.bind {handle : Lock.Handle} {process : Process Delivery α}
    {next : α → Process Delivery β} (returning : Returning handle process)
    (rest : ∀ value, (next value).Only isAside) : Returning handle (process.bind next) := by
  induction returning with
  | neutral kind _ inductionHypothesis => exact .neutral kind inductionHypothesis
  | release heedless after =>
    exact .release (fun reply other => congrArg (Process.bind · next) (heedless reply other))
      fun reply => only_bind (after reply) rest

theorem Protecting.bind {handle : Lock.Handle} {process : Process Delivery α}
    {next : α → Process Delivery β} (protecting : Protecting handle process)
    (rest : ∀ value, (next value).Only isAside) : Protecting handle (process.bind next) := by
  induction protecting with
  | leased _ inductionHypothesis => exact .leased inductionHypothesis
  | returning returning => exact .returning (returning.bind rest)

/-- Work under the deadline, whether it is done in time or not, and then the return. -/
theorem protecting_underDeadline {handle : Lock.Handle} {process : Process Leased α}
    {next : Option α → Process Delivery β} (rest : ∀ value?, Returning handle (next value?)) :
    Protecting handle ((Delivery.underDeadline process).bind next) := by
  induction process with
  | done value => exact .returning (rest (some value))
  | call request more inductionHypothesis =>
    have started := congrArg (Process.bind · next) (underDeadline_call request more)
    refine (congrArg (Protecting handle) started).mpr ?_
    refine .leased fun timely => ?_
    obtain ⟨reply?, missed⟩ := timely
    cases reply? with
    | none => exact .returning (rest none)
    | some reply => exact inductionHypothesis reply

/-! ### Deliveries -/

theorem granted_workUnderLease (settings : Settings) (batch : Batch) (tld : String)
    (handle : Lock.Handle) {next : Except LeasedError Outcome → Process Delivery β}
    (rest : ∀ result, (next result).Only isAside) :
    Granted settings handle ((Delivery.workUnderLease settings batch tld handle).bind next) := by
  refine .start (Protecting.bind (protecting_underDeadline fun result? => ?_) rest)
  have returned (result : Except LeasedError Outcome) : Returning handle
      ((Delivery.perform (.release handle)).bind fun _ => .done result) :=
    .release (fun _ _ => rfl) fun _ => trivial
  cases result? with
  | some result => exact returned result
  | none => exact returning_of_only_bind (neutral_countEnding _ _ _) fun _ => returned _

theorem seeking_publish (settings : Settings) (batch : Batch) (attempt : Nat) :
    Seeking settings (Delivery.publish settings batch attempt) := by
  have requeued : Seeking settings (Delivery.requeue batch (Name.bare batch.tld)) :=
    seeking_of_only (neutral_requeue batch (Name.bare batch.tld))
  unfold Delivery.publish
  cases Shard.resolve batch.lockIndex batch.lockCount with
  | error fault =>
    refine .neutral rfl fun configured => ?_
    rcases configured with source | configured
    · exact .done _
    · exact requeued
  | ok shard =>
    have resolved (count : Option Nat) : Seeking settings (if some shard.count = count then
        Delivery.publishShard settings batch attempt (Name.bare batch.tld) shard
        else Delivery.requeue batch (Name.bare batch.tld)) := by
      split
      · refine .acquire (fun handle => ?_) ?_ fun error => ?_
        · refine granted_workUnderLease settings batch _ handle fun result => ?_
          rcases result with (source | source) | outcome
          · exact only_settle _ _ _ _
          · trivial
          · trivial
        · show ((Delivery.countEnding batch (Name.bare batch.tld) .lockFailure).bind fun _ =>
            Process.done (Except.error
              (Error.lockUnavailable (Name.bare batch.tld) shard.lockName))).Only isNeutral
          exact only_bind (neutral_countEnding _ _ _) fun _ => trivial
        · trivial
      · exact requeued
    refine .neutral rfl fun configured => ?_
    rcases configured with source | configured
    · exact .done _
    · exact resolved configured

end Zonecast.Publish
