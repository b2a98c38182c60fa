/-
What a delivery does, apart from how it is written. Of its calls those are kept that ask, move or
tell something: they are its deeds, and each carries what the call was answered with. Readings of
the clock, counts of how things ended, and lookups for a mail are left out. A deed under the lease
may lack an answer, because the deadline came first.

`Does` says which deeds a process can do and what it then ends with. It is taken apart along the
way a process is written: a single call, a sequence, and work under the deadline.
-/
import Zonecast.Proofs.Processes
import Zonecast.Publish.Delivery

namespace Zonecast.Publish

open Process

/-- Something that a delivery does, with what it was answered. -/
inductive Deed
  | asked (tld : String) (reply : Except Registry.Error (Option Nat))
  | acquired (resource name : String) (millis : Nat)
      (reply : Except Lock.Error (Option Lock.Handle))
  | created (writer tld : String) (known : Bool)
  | stagedDomain (name : String)
  | stagedHost (name : String)
  /-- Names were counted as accepted or as rejected. -/
  | counted (event : Metrics.Event)
  | committed (reply? : Option (Except Writer.Error Unit))
  | refreshed (domains hosts : List String) (reply? : Option (Except Registry.Error Unit))
  | released (handle : Lock.Handle) (reply : Except Lock.Error Unit)
  | enqueued (batch : Batch) (reply : Except Refusal Unit)
  | mailed (mail : Mail) (reply : Except Refusal Unit)

/-- The deed that a call under the lease is, with its reply or without one. -/
def leasedDeed? : (request : LeasedCall) → Option (Leased.Reply request) → Option Deed
  | .createWriter writer tld, some (known : Bool) => some (.created writer tld known)
  | .stageDomain name, _ => some (.stagedDomain name)
  | .stageHost name, _ => some (.stagedHost name)
  | .commit, (reply? : Option (Except Writer.Error Unit)) => some (.committed reply?)
  | .requestRefresh domains hosts _, (reply? : Option (Except Registry.Error Unit)) =>
    some (.refreshed domains hosts reply?)
  | .count (.domains tld admission count), _ => some (.counted (.domains tld admission count))
  | .count (.hosts tld admission count), _ => some (.counted (.hosts tld admission count))
  | _, _ => none

/-- The deed that a call and its reply are. -/
def deed? : (request : DeliveryCall) → Zonecast.Delivery.Reply request → Option Deed
  | .registry (.shardCount tld), (reply : Except Registry.Error (Option Nat)) =>
    some (.asked tld reply)
  | .registry (.requestRefresh domains hosts _), (reply : Except Registry.Error Unit) =>
    some (.refreshed domains hosts (some reply))
  | .acquire resource name millis, (reply : Except Lock.Error (Option Lock.Handle)) =>
    some (.acquired resource name millis reply)
  | .release handle, (reply : Except Lock.Error Unit) => some (.released handle reply)
  | .leased request, (timely : Timely request) => leasedDeed? request timely.reply?
  | .enqueue batch, (reply : Except Refusal Unit) => some (.enqueued batch reply)
  | .send mail, (reply : Except Refusal Unit) => some (.mailed mail reply)
  | _, _ => none

/-- The deeds among some calls. -/
def ledger (exchanges : List (Exchange Delivery)) : List Deed :=
  exchanges.filterMap fun exchange => deed? exchange.request exchange.reply

/-- The process can do these deeds and then ends with this value. -/
def Does {α : Type} (process : Process Delivery α) (deeds : List Deed) (result : α) : Prop :=
  ∃ exchanges, Runs process exchanges result ∧ ledger exchanges = deeds

variable {α β : Type}

/-! ### Calls and sequences -/

theorem does_done {value result : α} {deeds : List Deed} :
    Does (.done value) deeds result ↔ deeds = [] ∧ result = value := by
  constructor
  · rintro ⟨exchanges, run, rfl⟩
    obtain ⟨rfl, rfl⟩ := runs_done.mp run
    exact ⟨rfl, rfl⟩
  · rintro ⟨rfl, rfl⟩
    exact ⟨[], .done _, rfl⟩

theorem does_call {request : DeliveryCall}
    {next : Zonecast.Delivery.Reply request → Process Delivery α} {result : α}
    {deeds : List Deed} :
    Does (.call (I := Delivery) request next) deeds result ↔
      ∃ reply rest, deeds = (deed? request reply).toList ++ rest ∧
        Does (next reply) rest result := by
  have front : ∀ (reply : Zonecast.Delivery.Reply request) (others : List (Exchange Delivery)),
      ledger (⟨request, reply⟩ :: others) = (deed? request reply).toList ++ ledger others := by
    intro reply others
    unfold ledger
    rw [List.filterMap_cons]
    dsimp only
    cases deed? request reply <;> rfl
  constructor
  · rintro ⟨exchanges, run, rfl⟩
    obtain ⟨reply, others, rfl, rest⟩ := runs_call.mp run
    exact ⟨reply, ledger others, front reply others, others, rest, rfl⟩
  · rintro ⟨reply, rest, rfl, others, run, rfl⟩
    exact ⟨⟨request, reply⟩ :: others, .call run, front reply others⟩

theorem does_bind {process : Process Delivery α} {next : α → Process Delivery β} {result : β}
    {deeds : List Deed} :
    Does (process.bind next) deeds result ↔
      ∃ before value after, deeds = before ++ after ∧ Does process before value ∧
        Does (next value) after result := by
  constructor
  · rintro ⟨exchanges, run, rfl⟩
    obtain ⟨before, value, after, rfl, first, second⟩ := runs_bind.mp run
    exact ⟨ledger before, value, ledger after, List.filterMap_append, ⟨before, first, rfl⟩,
      after, second, rfl⟩
  · rintro ⟨_, value, _, rfl, ⟨before, first, rfl⟩, after, second, rfl⟩
    exact ⟨before ++ after, runs_bind.mpr ⟨before, value, after, rfl, first, second⟩,
      List.filterMap_append⟩

/-- A single call. -/
theorem does_perform {request : DeliveryCall} {result : Zonecast.Delivery.Reply request}
    {deeds : List Deed} :
    Does (Delivery.perform request) deeds result ↔ deeds = (deed? request result).toList := by
  unfold Delivery.perform Process.perform
  rw [does_call]
  constructor
  · rintro ⟨reply, rest, rfl, ended⟩
    obtain ⟨rfl, rfl⟩ := does_done.mp ended
    exact List.append_nil _
  · rintro rfl
    exact ⟨result, [], (List.append_nil _).symm, does_done.mpr ⟨rfl, rfl⟩⟩

/-! ### Silence -/

/-- The process does nothing that is a deed. -/
def Silent (process : Process Delivery α) : Prop :=
  ∀ deeds result, Does process deeds result → deeds = []

theorem silent_done (value : α) : Silent (.done value) :=
  fun _ _ done => (does_done.mp done).1

theorem silent_bind {process : Process Delivery α} {next : α → Process Delivery β}
    (first : Silent process) (second : ∀ value, Silent (next value)) :
    Silent (process.bind next) := by
  intro deeds result done
  obtain ⟨before, value, after, rfl, start, rest⟩ := does_bind.mp done
  rw [first before value start, second value after result rest]
  rfl

theorem silent_perform {request : DeliveryCall} (none : ∀ reply, deed? request reply = none) :
    Silent (Delivery.perform request) := by
  intro deeds result done
  rw [does_perform.mp done, none]
  rfl

theorem silent_countEnding (batch : Batch) (tld : String) (ending : Metrics.Ending) :
    Silent (Delivery.countEnding batch tld ending) :=
  silent_bind (silent_perform fun _ => rfl) fun _ =>
    silent_bind (silent_perform fun _ => rfl) fun _ => silent_done ()

/-! ### Work under the deadline -/

theorem underDeadline_call (request : LeasedCall)
    (next : Zonecast.Leased.Reply request → Process Zonecast.Leased α) :
    Delivery.underDeadline (.call (I := Zonecast.Leased) request next) =
      .call (I := Zonecast.Delivery) (.leased request) fun timely : Timely request =>
        match timely.reply? with
        | some reply => Delivery.underDeadline (next reply)
        | none => .done none := by
  rw [Delivery.underDeadline.eq_def]
  dsimp only
  refine congrArg _ (funext fun timely => ?_)
  obtain ⟨reply?, missed⟩ := timely
  cases reply? <;> rfl

/-- What goes on under the deadline from a value, and ends where there is none. -/
def timelyNext (next : α → Process Leased β) : Option α → Process Delivery (Option β)
  | some value => Delivery.underDeadline (next value)
  | none => .done none

theorem underDeadline_bind (process : Process Leased α) (next : α → Process Leased β) :
    Delivery.underDeadline (process.bind next) =
      (Delivery.underDeadline process).bind (timelyNext next) := by
  induction process with
  | done value => rfl
  | call request rest inductionHypothesis =>
    refine (underDeadline_call request _).trans ?_
    refine Eq.trans ?_ (congrArg (Process.bind · _) (underDeadline_call request rest).symm)
    refine congrArg _ (funext fun timely => ?_)
    obtain ⟨reply?, missed⟩ := timely
    cases reply? with
    | none => rfl
    | some reply => exact inductionHypothesis reply

/-- A sequence under the deadline ends where its first part misses the deadline, or goes on. -/
theorem does_underDeadline_bind {process : Process Leased α} {next : α → Process Leased β}
    {result : Option β} {deeds : List Deed} :
    Does (Delivery.underDeadline (process.bind next)) deeds result ↔
      (Does (Delivery.underDeadline process) deeds none ∧ result = none) ∨
        ∃ before value after, deeds = before ++ after ∧
          Does (Delivery.underDeadline process) before (some value) ∧
          Does (Delivery.underDeadline (next value)) after result := by
  rw [underDeadline_bind, does_bind]
  constructor
  · rintro ⟨before, value?, after, rfl, first, second⟩
    cases value? with
    | none =>
      obtain ⟨rfl, rfl⟩ := does_done.mp second
      rw [List.append_nil]
      exact Or.inl ⟨first, rfl⟩
    | some value => exact Or.inr ⟨before, value, after, rfl, first, second⟩
  · rintro (⟨first, rfl⟩ | ⟨before, value, after, rfl, first, second⟩)
    · exact ⟨deeds, none, [], (List.append_nil _).symm, first, does_done.mpr ⟨rfl, rfl⟩⟩
    · exact ⟨before, some value, after, rfl, first, second⟩

/-- A single call under the deadline, which is answered in time unless it is waited for. -/
theorem does_underDeadline_perform {request : LeasedCall}
    {result : Option (Zonecast.Leased.Reply request)} {deeds : List Deed} :
    Does (Delivery.underDeadline (Leased.perform request)) deeds result ↔
      deeds = (leasedDeed? request result).toList ∧ (result = none → request.isAwaited = true) := by
  unfold Leased.perform Process.perform
  refine (iff_of_eq (congrArg (Does · deeds result) (underDeadline_call request _))).trans ?_
  refine does_call.trans ?_
  constructor
  · rintro ⟨timely, rest, rfl, ended⟩
    obtain ⟨reply?, missed⟩ := timely
    cases reply? with
    | none =>
      obtain ⟨rfl, rfl⟩ := does_done.mp ended
      exact ⟨List.append_nil _, missed⟩
    | some reply =>
      obtain ⟨rfl, rfl⟩ := does_done.mp ended
      exact ⟨List.append_nil _, missed⟩
  · rintro ⟨rfl, missed⟩
    refine ⟨(⟨result, missed⟩ : Timely request), [], (List.append_nil _).symm, ?_⟩
    cases result with
    | none => exact does_done.mpr ⟨rfl, rfl⟩
    | some reply => exact does_done.mpr ⟨rfl, rfl⟩

/-- A call that is not waited for is answered, and what follows goes on from its reply. -/
theorem does_underDeadline_step {request : LeasedCall} (prompt : request.isAwaited = false)
    {next : Zonecast.Leased.Reply request → Process Leased β} {result : Option β}
    {deeds : List Deed} :
    Does (Delivery.underDeadline ((Leased.perform request).bind next)) deeds result ↔
      ∃ reply rest, deeds = (leasedDeed? request (some reply)).toList ++ rest ∧
        Does (Delivery.underDeadline (next reply)) rest result := by
  rw [does_underDeadline_bind]
  simp only [does_underDeadline_perform]
  constructor
  · rintro (⟨⟨_, missed⟩, _⟩ | ⟨_, reply, rest, rfl, ⟨rfl, _⟩, done⟩)
    · rw [prompt] at missed
      exact absurd (missed trivial) Bool.false_ne_true
    · exact ⟨reply, rest, rfl, done⟩
  · rintro ⟨reply, rest, rfl, done⟩
    refine Or.inr ⟨_, reply, rest, rfl, ⟨rfl, fun missed => ?_⟩, done⟩
    exact absurd missed (Option.some_ne_none _)

/-! ### Steady collaborators -/

/-- How collaborators answer that answer in the same way throughout: the shard count, whether the
writer is known, and what a commit and a refresh request under the lease are answered with before
the deadline, if anything. -/
structure Climate where
  shards : Nat
  known : Bool
  committed? : Option (Except Writer.Error Unit)
  refreshed? : Option (Except Registry.Error Unit)

namespace Climate

/-- Answers to calls under the lease. -/
def timely (climate : Climate) : (request : LeasedCall) → Timely request
  | .createWriter _ _ => ⟨some climate.known, nofun⟩
  | .stageDomain _ => ⟨some (), nofun⟩
  | .stageHost _ => ⟨some (), nofun⟩
  | .commit => ⟨climate.committed?, fun _ => rfl⟩
  | .requestRefresh _ _ _ => ⟨climate.refreshed?, fun _ => rfl⟩
  | .now => ⟨some (.ofMillis 0), nofun⟩
  | .count _ => ⟨some (), nofun⟩

/-- Answers to a delivery: the lock is free, nothing is registered, and everything offered is
taken. -/
def reply (climate : Climate) : (request : DeliveryCall) → Zonecast.Delivery.Reply request
  | .registry (.shardCount _) => (.ok (some climate.shards) : Except Registry.Error (Option Nat))
  | .registry (.domain _) => (.ok none : Except Registry.Error (Option Domain))
  | .registry (.host _) => (.ok none : Except Registry.Error (Option Host))
  | .registry (.registrar _) => (.ok none : Except Registry.Error (Option Registrar))
  | .registry (.requestRefresh _ _ _) => (.ok () : Except Registry.Error Unit)
  | .acquire resource name _ =>
    (.ok (some ⟨resource, name, ""⟩) : Except Lock.Error (Option Lock.Handle))
  | .release _ => (.ok () : Except Lock.Error Unit)
  | .startDeadline _ => ()
  | .leased request => climate.timely request
  | .enqueue _ => (.ok () : Except Refusal Unit)
  | .send _ => (.ok () : Except Refusal Unit)
  | .now => Instant.ofMillis 0
  | .count _ => ()

end Climate

/-- What holds of every deed that steady answers can bring about holds along a whole delivery. -/
theorem forall_mem_ledger_trace {climate : Climate} {holds : Deed → Prop}
    (each : ∀ request, ∀ deed, deed? request (climate.reply request) = some deed → holds deed)
    {process : Process Delivery α} :
    ∀ deed ∈ ledger (process.trace climate.reply), holds deed := by
  intro deed member
  obtain ⟨exchange, listed, made⟩ := List.mem_filterMap.mp member
  rw [reply_of_mem_trace listed] at made
  exact each exchange.request deed made

end Zonecast.Publish
