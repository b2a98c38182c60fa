/-
A lease that a delivery is granted is given back once, also when the delivery is dropped. A delivery
is dropped while it waits for the reply to some call, and nothing of it goes on. The lease is in the
hands of a guard: it is taken from the guard when the delivery gives it back, and a guard that still
has it when the delivery is gone gives it back in the background, where the reply is seen by nobody.

What a delivery went through is the list of the calls that were made, each with its reply if the
delivery lived to see it, and the result if it came to one.
-/
import Zonecast.Proofs.LeasePhases
import Zonecast.Proofs.ShardLocks

namespace Zonecast.Publish

open Process

variable {α : Type}

/-! ### Calls that were made -/

/-- A call that was made, and its reply if the delivery lived to see it. -/
structure Issued where
  request : DeliveryCall
  reply? : Option (Zonecast.Delivery.Reply request)

namespace Issued

def part (call : Issued) : Part :=
  call.request.part

/-- The lease that was granted in reply to a call. -/
def granted? (call : Issued) : Option Lock.Handle :=
  call.reply?.bind (Delivery.holdingAfterReply none call.request)

/-- The lease that a call gives back. -/
def returned? (call : Issued) : Option Lock.Handle :=
  match call.request with
  | .release handle => some handle
  | _ => none

/-- The same call, only that a return that was answered was answered so. -/
def withReturn (reply : Except Lock.Error Unit) : Issued → Issued
  | ⟨.release handle, some _⟩ => ⟨.release handle, some reply⟩
  | made => made

theorem granted?_eq_none {call : Issued} (other : call.part ≠ .asking) : call.granted? = none := by
  obtain ⟨request, reply?⟩ := call
  cases request <;> cases reply? <;> first | rfl | exact absurd rfl other

theorem returned?_eq_none {call : Issued} (other : call.part ≠ .giving) :
    call.returned? = none := by
  obtain ⟨request, reply?⟩ := call
  cases request <;> first | rfl | exact absurd rfl other

theorem withReturn_eq_self {request : DeliveryCall} (other : request.part ≠ .giving)
    (reply? : Option (Zonecast.Delivery.Reply request)) (reply : Except Lock.Error Unit) :
    withReturn reply ⟨request, reply?⟩ = ⟨request, reply?⟩ := by
  cases request <;> first | rfl | exact absurd rfl other

/-- There is nothing to answer otherwise in a call that was not answered. -/
theorem withReturn_none (request : DeliveryCall) (reply : Except Lock.Error Unit) :
    withReturn reply ⟨request, none⟩ = ⟨request, none⟩ := by
  cases request <;> rfl

end Issued

/-! ### A delivery that may be dropped -/

/-- What the guard of a lease does once the delivery is gone. -/
def givenBack (held : Option Lock.Handle) : List Issued :=
  held.toList.map fun handle => ⟨.release handle, none⟩

/-- A delivery that holds a lease, or none, makes these calls and comes to this result, or is
dropped and comes to none. -/
inductive Goes : Option Lock.Handle → Process Delivery α → List Issued → Option α → Prop
  | ended {held : Option Lock.Handle} (value : α) :
      Goes held (.done value) (givenBack held) (some value)
  | dropped {held : Option Lock.Handle} {request : DeliveryCall}
      {next : Zonecast.Delivery.Reply request → Process Delivery α} :
      Goes held (.call (I := Delivery) request next)
        (⟨request, none⟩ :: givenBack (Delivery.holdingAfterCall held request)) none
  | answered {held : Option Lock.Handle} {request : DeliveryCall}
      {next : Zonecast.Delivery.Reply request → Process Delivery α}
      {reply : Zonecast.Delivery.Reply request} {issued : List Issued} {result? : Option α}
      (rest : Goes (Delivery.holdingAfterReply (Delivery.holdingAfterCall held request) request
        reply) (next reply) issued result?) :
      Goes held (.call (I := Delivery) request next) (⟨request, some reply⟩ :: issued) result?

theorem steady_of_isAside {request : DeliveryCall} (aside : isAside request) :
    request.part ≠ .asking ∧ request.part ≠ .giving := by
  rcases part_of_isAside aside with part | part <;> rw [part] <;> decide

/-- A lease is only taken by asking for it, and only left by giving it back. -/
theorem holding_of_part {request : DeliveryCall} (unasked : request.part ≠ .asking)
    (kept : request.part ≠ .giving) (held : Option Lock.Handle) :
    Delivery.holdingAfterCall held request = held ∧
      ∀ reply, Delivery.holdingAfterReply held request reply = held := by
  cases request with
  | acquire | release => first | exact absurd rfl unasked | exact absurd rfl kept
  | registry | startDeadline | leased | enqueue | send | now | count =>
    exact ⟨rfl, fun _ => rfl⟩

/-- A call that neither asks for a lease nor gives one back leaves the guard as it is. -/
theorem goes_call {held : Option Lock.Handle} {request : DeliveryCall}
    {next : Zonecast.Delivery.Reply request → Process Delivery α} {issued : List Issued}
    {result? : Option α} (unasked : request.part ≠ .asking) (kept : request.part ≠ .giving)
    (went : Goes held (.call (I := Delivery) request next) issued result?) :
    (∃ reply rest, issued = ⟨request, some reply⟩ :: rest ∧ Goes held (next reply) rest result?) ∨
      issued = ⟨request, none⟩ :: givenBack held := by
  obtain ⟨afterCall, afterReply⟩ := holding_of_part unasked kept held
  cases went with
  | dropped => exact .inr (by rw [afterCall])
  | answered rest =>
    rw [afterCall, afterReply] at rest
    exact .inl ⟨_, _, rfl, rest⟩

/-- What a delivery went through says what it came to. -/
theorem Goes.unique {held : Option Lock.Handle} {process : Process Delivery α}
    {issued : List Issued} {result? other? : Option α} (went : Goes held process issued result?)
    (again : Goes held process issued other?) : other? = result? := by
  induction went with
  | ended value =>
    cases again
    rfl
  | dropped =>
    cases again
    rfl
  | answered _ inductionHypothesis =>
    cases again with
    | answered rest => exact inductionHypothesis rest

/-! ### The lease is given back -/

/-- The lease is given back after some of its work, and what follows is not of its work. -/
def Discharged (handle : Lock.Handle) (issued : List Issued) : Prop :=
  ∃ work reply? after, issued = work ++ ⟨.release handle, reply?⟩ :: after ∧
    (∀ call ∈ work, call.part = .neutral ∨ call.part = .work) ∧
    ∀ call ∈ after, call.part = .neutral ∨ call.part = .handover

/-- The lease is asked for and granted, and given back after its work. Neither is its work begun
nor anything handed on before it is granted. -/
def Bracketed (handle : Lock.Handle) (issued : List Issued) : Prop :=
  ∃ before asked rest, issued = before ++ asked :: rest ∧
    (∀ call ∈ before, call.part = .neutral) ∧ asked.granted? = some handle ∧
    Discharged handle rest

theorem discharged_return {handle : Lock.Handle}
    {reply? : Option (Zonecast.Delivery.Reply (.release handle))} {after : List Issued}
    (aside : ∀ call ∈ after, isAside call.request) :
    Discharged handle (⟨.release handle, reply?⟩ :: after) :=
  ⟨[], reply?, after, rfl, List.forall_mem_nil _,
    fun call member => part_of_isAside (aside call member)⟩

theorem Discharged.cons {handle : Lock.Handle} {issued : List Issued} {call : Issued}
    (discharged : Discharged handle issued) (kind : call.part = .neutral ∨ call.part = .work) :
    Discharged handle (call :: issued) := by
  obtain ⟨work, reply?, after, rfl, before, behind⟩ := discharged
  exact ⟨call :: work, reply?, after, rfl, List.forall_mem_cons.mpr ⟨kind, before⟩, behind⟩

theorem Bracketed.cons {handle : Lock.Handle} {issued : List Issued} {call : Issued}
    (bracketed : Bracketed handle issued) (kind : call.part = .neutral) :
    Bracketed handle (call :: issued) := by
  obtain ⟨before, asked, rest, rfl, neutral, granted, discharged⟩ := bracketed
  exact ⟨call :: before, asked, rest, rfl, List.forall_mem_cons.mpr ⟨kind, neutral⟩, granted,
    discharged⟩

/-- Without a lease in hand, only calls of the kind are made. -/
theorem kind_of_goes {kind : DeliveryCall → Prop} {process : Process Delivery α}
    {issued : List Issued} {result? : Option α} (only : process.Only kind)
    (aside : ∀ request, kind request → isAside request) (went : Goes none process issued result?) :
    ∀ call ∈ issued, kind call.request := by
  induction process generalizing issued with
  | done value =>
    cases went
    exact List.forall_mem_nil _
  | call request next inductionHypothesis =>
    obtain ⟨unasked, kept⟩ := steady_of_isAside (aside request only.1)
    rcases goes_call unasked kept went with ⟨reply, rest, rfl, gone⟩ | rfl
    · exact List.forall_mem_cons.mpr ⟨only.1, inductionHypothesis reply (only.2 reply) gone⟩
    · exact List.forall_mem_cons.mpr ⟨only.1, List.forall_mem_nil _⟩

theorem discharged_of_returning {handle : Lock.Handle} {process : Process Delivery α}
    {issued : List Issued} {result? : Option α} (returning : Returning handle process)
    (went : Goes (some handle) process issued result?) : Discharged handle issued := by
  induction returning generalizing issued with
  | @neutral request next kind _ inductionHypothesis =>
    obtain ⟨unasked, kept⟩ := steady_of_isAside (isAside_of_isNeutral kind)
    rcases goes_call unasked kept went with ⟨reply, rest, rfl, gone⟩ | rfl
    · exact (inductionHypothesis reply gone).cons (.inl kind)
    · exact (discharged_return (List.forall_mem_nil _)).cons (.inl kind)
  | release heedless rest =>
    cases went with
    | dropped => exact discharged_return (List.forall_mem_nil _)
    | answered gone => exact discharged_return (kind_of_goes (rest _) (fun _ aside => aside) gone)

theorem discharged_of_protecting {handle : Lock.Handle} {process : Process Delivery α}
    {issued : List Issued} {result? : Option α} (protecting : Protecting handle process)
    (went : Goes (some handle) process issued result?) : Discharged handle issued := by
  induction protecting generalizing issued with
  | leased _ inductionHypothesis =>
    rcases goes_call (by nofun) (by nofun) went with ⟨reply, rest, rfl, gone⟩ | rfl
    · exact (inductionHypothesis reply gone).cons (.inr rfl)
    · exact (discharged_return (List.forall_mem_nil _)).cons (.inr rfl)
  | returning returning => exact discharged_of_returning returning went

theorem discharged_of_granted {settings : Settings} {handle : Lock.Handle}
    {process : Process Delivery α} {issued : List Issued} {result? : Option α}
    (granted : Granted settings handle process)
    (went : Goes (some handle) process issued result?) : Discharged handle issued := by
  obtain ⟨protecting⟩ := granted
  rcases goes_call (by nofun) (by nofun) went with ⟨reply, rest, rfl, gone⟩ | rfl
  · exact (discharged_of_protecting protecting gone).cons (.inr rfl)
  · exact (discharged_return (List.forall_mem_nil _)).cons (.inr rfl)

/-- No lease was granted, and nothing was done that one is there for. -/
def Ungranted (issued : List Issued) : Prop :=
  ∀ call ∈ issued, (call.part = .neutral ∨ call.part = .asking) ∧ call.granted? = none

theorem ungranted_of_neutral {issued : List Issued}
    (neutral : ∀ call ∈ issued, isNeutral call.request) : Ungranted issued := by
  intro call member
  have part : call.part = .neutral := neutral call member
  exact ⟨.inl part, Issued.granted?_eq_none (by rw [part]; decide)⟩

theorem Ungranted.cons {issued : List Issued} {call : Issued} (ungranted : Ungranted issued)
    (kind : call.part = .neutral ∨ call.part = .asking) (refused : call.granted? = none) :
    Ungranted (call :: issued) :=
  List.forall_mem_cons.mpr ⟨⟨kind, refused⟩, ungranted⟩

/-- A delivery that seeks a lease is granted none, or one that it gives back. -/
theorem bracketed_of_seeking {settings : Settings} {process : Process Delivery α}
    {issued : List Issued} {result? : Option α} (seeking : Seeking settings process)
    (went : Goes none process issued result?) :
    Ungranted issued ∨ ∃ handle, Bracketed handle issued := by
  have refused {rest : Process Delivery α} {issued : List Issued} (only : rest.Only isNeutral)
      (gone : Goes none rest issued result?) : Ungranted issued :=
    ungranted_of_neutral (kind_of_goes only (fun _ => isAside_of_isNeutral) gone)
  induction seeking generalizing issued with
  | done value =>
    cases went
    exact .inl (List.forall_mem_nil _)
  | @neutral request next kind _ inductionHypothesis =>
    obtain ⟨unasked, kept⟩ := steady_of_isAside (isAside_of_isNeutral kind)
    rcases goes_call unasked kept went with ⟨reply, rest, rfl, gone⟩ | rfl
    · rcases inductionHypothesis reply gone with ungranted | ⟨handle, bracketed⟩
      · exact .inl (ungranted.cons (.inl kind) (Issued.granted?_eq_none unasked))
      · exact .inr ⟨handle, bracketed.cons kind⟩
    · exact .inl (Ungranted.cons (List.forall_mem_nil _) (.inl kind)
        (Issued.granted?_eq_none unasked))
  | acquire granted excluded failed =>
    cases went with
    | dropped => exact .inl (Ungranted.cons (List.forall_mem_nil _) (.inr rfl) rfl)
    | @answered _ _ _ reply _ _ gone =>
      rcases reply with error | (_ | handle)
      · exact .inl ((refused (failed error) gone).cons (.inr rfl) rfl)
      · exact .inl ((refused excluded gone).cons (.inr rfl) rfl)
      · exact .inr ⟨handle, [], _, _, rfl, List.forall_mem_nil _, rfl,
          discharged_of_granted (granted handle) gone⟩

/-! ### One lease, one return -/

/-- Only one lease is granted. -/
theorem Bracketed.eq_of_granted {handle other : Lock.Handle} {issued : List Issued} {call : Issued}
    (bracketed : Bracketed handle issued) (member : call ∈ issued)
    (granted : call.granted? = some other) : other = handle := by
  obtain ⟨before, asked, _, rfl, neutral, asks, work, reply?, after, rfl, working, aside⟩ :=
    bracketed
  have asking : call.part = .asking := by
    by_contra unasked
    rw [Issued.granted?_eq_none unasked] at granted
    cases granted
  simp only [List.mem_append, List.mem_cons] at member
  rcases member with early | rfl | under | rfl | late
  · rw [neutral call early] at asking
    cases asking
  · exact Option.some.inj (granted.symm.trans asks)
  · rcases working call under with part | part <;> rw [part] at asking <;> cases asking
  · cases asking
  · rcases aside call late with part | part <;> rw [part] at asking <;> cases asking

/-- It is given back, and nothing else is. -/
theorem Bracketed.returned {handle : Lock.Handle} {issued : List Issued}
    (bracketed : Bracketed handle issued) : issued.filterMap Issued.returned? = [handle] := by
  obtain ⟨before, asked, _, rfl, neutral, asks, work, reply?, after, rfl, working, aside⟩ :=
    bracketed
  have none_of {calls : List Issued} (kept : ∀ call ∈ calls, call.part ≠ .giving) :
      calls.filterMap Issued.returned? = [] :=
    List.filterMap_eq_nil_iff.mpr fun call member => Issued.returned?_eq_none (kept call member)
  have asksOnly : asked.returned? = none := by
    refine Issued.returned?_eq_none fun giving => ?_
    rw [Issued.granted?_eq_none (by rw [giving]; decide)] at asks
    cases asks
  have first : before.filterMap Issued.returned? = [] :=
    none_of fun call member => by rw [neutral call member]; decide
  have second : work.filterMap Issued.returned? = [] :=
    none_of fun call member => by
      rcases working call member with part | part <;> rw [part] <;> decide
  have third : after.filterMap Issued.returned? = [] :=
    none_of fun call member => by
      rcases aside call member with part | part <;> rw [part] <;> decide
  have self : Issued.returned? ⟨.release handle, reply?⟩ = some handle := rfl
  rw [List.filterMap_append, first, List.nil_append, List.filterMap_cons_none asksOnly,
    List.filterMap_append, second, List.nil_append, List.filterMap_cons_some self, third]

/-! ### The reply to the return -/

/-- What follows a return does not depend on what the return was answered. -/
inductive Heedless : Process Delivery α → Prop
  | done (value : α) : Heedless (.done value)
  | release {handle : Lock.Handle}
      {next : Zonecast.Delivery.Reply (.release handle) → Process Delivery α}
      (heedless : ∀ reply other, next reply = next other) (rest : ∀ reply, Heedless (next reply)) :
      Heedless (.call (I := Delivery) (.release handle) next)
  | other {request : DeliveryCall} {next : Zonecast.Delivery.Reply request → Process Delivery α}
      (kept : request.part ≠ .giving) (rest : ∀ reply, Heedless (next reply)) :
      Heedless (.call (I := Delivery) request next)

theorem heedless_of_only {process : Process Delivery α} (only : process.Only isAside) :
    Heedless process := by
  induction process with
  | done value => exact .done value
  | call request next inductionHypothesis =>
    exact .other (steady_of_isAside only.1).2 fun reply => inductionHypothesis reply (only.2 reply)

theorem Returning.heedless {handle : Lock.Handle} {process : Process Delivery α}
    (returning : Returning handle process) : Heedless process := by
  induction returning with
  | neutral kind _ inductionHypothesis =>
    exact .other (steady_of_isAside (isAside_of_isNeutral kind)).2 inductionHypothesis
  | release heedless rest => exact .release heedless fun reply => heedless_of_only (rest reply)

theorem Protecting.heedless {handle : Lock.Handle} {process : Process Delivery α}
    (protecting : Protecting handle process) : Heedless process := by
  induction protecting with
  | leased _ inductionHypothesis => exact .other nofun inductionHypothesis
  | returning returning => exact returning.heedless

theorem Granted.heedless {settings : Settings} {handle : Lock.Handle}
    {process : Process Delivery α} (granted : Granted settings handle process) :
    Heedless process := by
  obtain ⟨protecting⟩ := granted
  exact .other nofun fun _ => protecting.heedless

theorem Seeking.heedless {settings : Settings} {process : Process Delivery α}
    (seeking : Seeking settings process) : Heedless process := by
  have neutral {rest : Process Delivery α} (only : rest.Only isNeutral) : Heedless rest :=
    heedless_of_only (only_mono only fun _ => isAside_of_isNeutral)
  induction seeking with
  | done value => exact .done value
  | neutral kind _ inductionHypothesis =>
    exact .other (steady_of_isAside (isAside_of_isNeutral kind)).2 inductionHypothesis
  | acquire granted excluded failed =>
    refine .other nofun fun reply => ?_
    rcases reply with error | (_ | handle)
    · exact neutral (failed error)
    · exact neutral excluded
    · exact (granted handle).heedless

theorem map_withReturn_givenBack (reply : Except Lock.Error Unit) (held : Option Lock.Handle) :
    (givenBack held).map (Issued.withReturn reply) = givenBack held := by
  cases held <;> rfl

/-- If the return had been answered in another way, the rest would have been the same. -/
theorem Heedless.goes {held : Option Lock.Handle} {process : Process Delivery α}
    {issued : List Issued} {result? : Option α} (heedless : Heedless process)
    (went : Goes held process issued result?) (reply : Except Lock.Error Unit) :
    Goes held process (issued.map (Issued.withReturn reply)) result? := by
  induction went with
  | ended value =>
    rw [map_withReturn_givenBack]
    exact .ended value
  | dropped =>
    rw [List.map_cons, Issued.withReturn_none, map_withReturn_givenBack]
    exact .dropped
  | answered _ inductionHypothesis =>
    rw [List.map_cons]
    cases heedless with
    | release same rest =>
      refine .answered ?_
      rw [same reply]
      exact inductionHypothesis (rest _)
    | other kept rest =>
      rw [Issued.withReturn_eq_self kept]
      exact .answered (inductionHypothesis (rest _))

/-! ### Deliveries -/

/-- Whatever a delivery is answered and wherever it is dropped, a lease that it was granted is given
back once, around all of its work and before anything is handed on; without a lease nothing is
worked on, handed on or given back; and what the return is answered makes no difference. -/
theorem lease_returned_once (settings : Settings) (batch : Batch) (attempt : Nat)
    {issued : List Issued} {result? : Option (Except Error Outcome)}
    (went : Goes none (Delivery.publish settings batch attempt) issued result?) :
    (∀ call ∈ issued, ∀ handle, call.granted? = some handle →
        Bracketed handle issued ∧ issued.filterMap Issued.returned? = [handle]) ∧
      ((∀ call ∈ issued, call.granted? = none) →
        ∀ call ∈ issued, call.part = .neutral ∨ call.part = .asking) ∧
      ∀ reply, Goes none (Delivery.publish settings batch attempt)
          (issued.map (Issued.withReturn reply)) result? ∧
        ∀ other?, Goes none (Delivery.publish settings batch attempt)
          (issued.map (Issued.withReturn reply)) other? → other? = result? := by
  have seeking := seeking_publish settings batch attempt
  have outcome := bracketed_of_seeking seeking went
  refine ⟨fun call member handle granted => ?_, fun none call member => ?_, fun reply => ?_⟩
  · rcases outcome with ungranted | ⟨other, bracketed⟩
    · rw [(ungranted call member).2] at granted
      cases granted
    · obtain rfl := bracketed.eq_of_granted member granted
      exact ⟨bracketed, bracketed.returned⟩
  · rcases outcome with ungranted | ⟨handle, before, asked, rest, rfl, _, granted, _⟩
    · exact (ungranted call member).1
    · rw [none asked (List.mem_append_right _ List.mem_cons_self)] at granted
      cases granted
  · have again := seeking.heedless.goes went reply
    exact ⟨again, fun other? other => again.unique other⟩

/-! ### A delivery that is dropped -/

/-- What a delivery goes through that is answered in one way throughout and dropped once it has
been answered so often. -/
def cutShort (answer : (request : DeliveryCall) → Zonecast.Delivery.Reply request) :
    Nat → Option Lock.Handle → Process Delivery α → List Issued × Option α
  | _, held, .done value => (givenBack held, some value)
  | 0, held, .call request _ =>
    (⟨request, none⟩ :: givenBack (Delivery.holdingAfterCall held request), none)
  | count + 1, held, .call request next =>
    let rest := cutShort answer count (Delivery.holdingAfterReply
      (Delivery.holdingAfterCall held request) request (answer request)) (next (answer request))
    (⟨request, some (answer request)⟩ :: rest.1, rest.2)

theorem goes_cutShort (answer : (request : DeliveryCall) → Zonecast.Delivery.Reply request)
    (count : Nat) (held : Option Lock.Handle) (process : Process Delivery α) :
    Goes held process (cutShort answer count held process).1
      (cutShort answer count held process).2 := by
  induction process generalizing count held with
  | done value =>
    cases count <;> exact .ended value
  | call request next inductionHypothesis =>
    cases count with
    | zero => exact .dropped
    | succ count => exact .answered (inductionHypothesis _ count _)

/-- A delivery of one domain, dropped while its writer commits. -/
def droppedInCommit : List Issued :=
  (cutShort exampleReply 10 none (exampleDelivery "test")).1

theorem droppedInCommit_returned :
    Goes none (exampleDelivery "test") droppedInCommit none ∧
      droppedInCommit.map Issued.part =
        [.neutral, .asking] ++ List.replicate 9 .work ++ [.giving] ∧
      ∃ handle, (∃ call ∈ droppedInCommit, call.granted? = some handle) ∧
        Bracketed handle droppedInCommit ∧
        droppedInCommit.filterMap Issued.returned? = [handle] := by
  have undone : (cutShort exampleReply 10 none (exampleDelivery "test")).2 = none :=
    Option.isNone_iff_eq_none.mp (by decide +kernel)
  have went : Goes none (exampleDelivery "test") droppedInCommit none :=
    undone ▸ goes_cutShort exampleReply 10 none (exampleDelivery "test")
  have granted : droppedInCommit.filterMap Issued.granted? =
      [⟨"test", "DNS updates-lock 1 of 1", ""⟩] := by decide +kernel
  obtain ⟨call, member, grants⟩ :=
    List.mem_filterMap.mp (granted.symm ▸ List.mem_cons_self)
  exact ⟨went, by decide +kernel, _, ⟨call, member, grants⟩,
    (lease_returned_once _ _ _ went).1 call member _ grants⟩

end Zonecast.Publish
