/-
How a delivery keeps to its lease. It first makes calls that have nothing to do with the lease, then
wants one. If it is granted one, it starts its deadline at once, and the deadline leaves the margin
of the lease; then it works, call by call under the lease, until the work is done or the deadline
comes; and then it gives this lease back, once. Before and after, it makes no call under a lease
and gives none back.

The phases are said on what remains of a delivery, so that whoever follows a delivery call by call
can tell its phase from what remains. They are coarser than the phases they come from: what is asked
here is only what keeps two deliveries from holding one lease, and the margin is added.
-/
import Zonecast.Proofs.LeasePhases

namespace Zonecast.Publish

open Process

variable {α : Type}

/-! ### Phases -/

/-- The lease is given back, after calls aside. -/
inductive Leaving (handle : Lock.Handle) : Process Delivery α → Prop
  | aside {request : DeliveryCall} {next : Zonecast.Delivery.Reply request → Process Delivery α}
      (kind : isAside request) (rest : ∀ reply, Leaving handle (next reply)) :
      Leaving handle (.call (I := Delivery) request next)
  | release {next : Zonecast.Delivery.Reply (.release handle) → Process Delivery α}
      (rest : ∀ reply, (next reply).Only isAside) :
      Leaving handle (.call (I := Delivery) (.release handle) next)

/-- Calls are made under the lease until it is given back. -/
inductive Working (handle : Lock.Handle) : Process Delivery α → Prop
  | leased {request : LeasedCall}
      {next : Zonecast.Delivery.Reply (.leased request) → Process Delivery α}
      (rest : ∀ timely, Working handle (next timely)) :
      Working handle (.call (I := Delivery) (.leased request) next)
  | leaving {process : Process Delivery α} (leaving : Leaving handle process) :
      Working handle process

/-- The deadline is started, with the margin left of a lease of so many milliseconds. -/
inductive Holding (handle : Lock.Handle) (millis : Nat) : Process Delivery α → Prop
  | start {seconds : Nat}
      {next : Zonecast.Delivery.Reply (.startDeadline seconds) → Process Delivery α}
      (fits : (seconds + leaseMargin) * 1000 ≤ millis) (rest : Working handle (next ())) :
      Holding handle millis (.call (I := Delivery) (.startDeadline seconds) next)

/-- A lease is wanted, if at all after calls aside. -/
inductive Approaching : Process Delivery α → Prop
  | done (value : α) : Approaching (.done value)
  | aside {request : DeliveryCall} {next : Zonecast.Delivery.Reply request → Process Delivery α}
      (kind : isAside request) (rest : ∀ reply, Approaching (next reply)) :
      Approaching (.call (I := Delivery) request next)
  | acquire {resource name : String} {millis : Nat}
      {next : Zonecast.Delivery.Reply (.acquire resource name millis) → Process Delivery α}
      (granted : ∀ handle, Holding handle millis (next (.ok (some handle))))
      (excluded : (next (.ok none)).Only isAside)
      (failed : ∀ error, (next (.error error)).Only isAside) :
      Approaching (.call (I := Delivery) (.acquire resource name millis) next)

/-! ### From the finer phases -/

variable {settings : Settings} {handle : Lock.Handle} {process : Process Delivery α}

theorem Returning.leaving (returning : Returning handle process) : Leaving handle process := by
  induction returning with
  | neutral kind _ inductionHypothesis =>
    exact .aside (isAside_of_isNeutral kind) inductionHypothesis
  | release _ rest => exact .release rest

theorem Protecting.working (protecting : Protecting handle process) : Working handle process := by
  induction protecting with
  | leased _ inductionHypothesis => exact .leased inductionHypothesis
  | returning returning => exact .leaving returning.leaving

/-- Settings that leave room for the margin have a deadline that leaves it. -/
theorem Granted.holding (granted : Granted settings handle process)
    (roomy : leaseMargin ≤ settings.leaseSeconds) :
    Holding handle (settings.leaseSeconds * 1000) process := by
  obtain ⟨protecting⟩ := granted
  have fits : (settings.deadline + leaseMargin) * 1000 ≤ settings.leaseSeconds * 1000 := by
    unfold Settings.deadline
    omega
  exact .start fits protecting.working

theorem Seeking.approaching (seeking : Seeking settings process)
    (roomy : leaseMargin ≤ settings.leaseSeconds) : Approaching process := by
  have aside {rest : Process Delivery α} (only : rest.Only isNeutral) : rest.Only isAside :=
    only_mono only fun _ => isAside_of_isNeutral
  induction seeking with
  | done value => exact .done value
  | neutral kind _ inductionHypothesis =>
    exact .aside (isAside_of_isNeutral kind) inductionHypothesis
  | acquire granted excluded failed =>
    exact .acquire (fun handle => (granted handle).holding roomy) (aside excluded)
      fun error => aside (failed error)

/-- The phases of a delivery whose settings leave room for the margin. -/
theorem approaching_publish (settings : Settings) (batch : Batch) (attempt : Nat)
    (roomy : leaseMargin ≤ settings.leaseSeconds) :
    Approaching (Delivery.publish settings batch attempt) :=
  (seeking_publish settings batch attempt).approaching roomy

end Zonecast.Publish
