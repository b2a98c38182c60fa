/-
Leases keep workers apart. Any number of workers make deliveries over one table of leases, one call
after the other in any order, under a clock that never goes back. Calls may fail, with or without
taking effect, workers may be abandoned at any call, and leases that no worker stands for any more
may be given back at any time, as well as leases that never were.

Two things are asked of the time that passes: a worker starts its deadline within the margin of its
acquisition, and no time passes for a worker that works under its lease once its deadline is there.

What carries the proof is that an acquired lease that was not given back has its row in the table
for as long as it runs. A row keeps others from acquiring the lock, it answers to no handle but its
own, and a worker under its lease is within it, since the deadline lies before its end.
-/
import Zonecast.Proofs.LeaseDiscipline
import Zonecast.Proofs.LeaseTable

namespace Zonecast.Publish

open Process

/-! ### Workers over one table -/

/-- A lease as it was acquired, at a reading of the clock and for so many milliseconds. -/
structure Grant where
  handle : Lock.Handle
  since : Int
  millis : Nat

namespace Grant

/-- The row that the acquisition left in the table. -/
def row (grant : Grant) : Lock.Row :=
  ⟨grant.handle.resource, grant.handle.name, grant.handle.owner,
    Lock.expiry grant.since grant.millis⟩

/-- The lease runs at a reading of the clock. -/
def Runs (grant : Grant) (clock : Int) : Prop :=
  clock < grant.since + grant.millis

end Grant

/-- A worker: what remains of its delivery, the lease that it stands for, and the time at which its
deadline comes. -/
structure Worker where
  rest : Process Delivery (Except Error Outcome)
  grant? : Option Grant
  deadline? : Option Int

namespace Worker

/-- The worker works under its lease: its next call is made there. -/
def IsInside (worker : Worker) : Prop :=
  ∃ request next, worker.rest = .call (I := Delivery) (.leased request) next

/-- The lock that the worker has. -/
def lock? (worker : Worker) : Option (String × String) :=
  worker.grant?.map fun grant => grant.row.lock

end Worker

/-- The table, the tokens drawn so far, the leases acquired so far, the handles given back since
they were acquired, and the workers. -/
structure Scene where
  clock : Int
  table : Lock.Table
  drawn : List String
  acquired : List Grant
  returned : List Lock.Handle
  workers : List Worker

/-- What can happen next. -/
inductive Step : Scene → Scene → Prop
  /-- A worker starts a delivery. -/
  | start (scene : Scene) (settings : Settings) (batch : Batch) (attempt : Nat)
      (roomy : leaseMargin ≤ settings.leaseSeconds) :
      Step scene { scene with
        workers := scene.workers ++ [⟨Delivery.publish settings batch attempt, none, none⟩] }
  /-- A worker acquires a lease under a fresh token. -/
  | acquire {scene : Scene} {earlier later : List Worker} {resource name : String} {millis : Nat}
      {next : Zonecast.Delivery.Reply (.acquire resource name millis) →
        Process Delivery (Except Error Outcome)}
      {grant? : Option Grant} {deadline? : Option Int} {owner : String} {handle : Lock.Handle}
      {after : Lock.Table}
      (worker : scene.workers =
        earlier ++
          ⟨.call (I := Delivery) (.acquire resource name millis) next, grant?, deadline?⟩ :: later)
      (fresh : owner ∉ scene.drawn)
      (taken : scene.table.acquire resource name owner scene.clock millis = (some handle, after)) :
      Step scene { scene with
        table := after
        drawn := owner :: scene.drawn
        acquired := ⟨handle, scene.clock, millis⟩ :: scene.acquired
        returned := scene.returned.filter (· ≠ handle)
        workers := earlier ++
          ⟨next (.ok (some handle)), some ⟨handle, scene.clock, millis⟩, none⟩ :: later }
  /-- The lock is held elsewhere. -/
  | exclude {scene : Scene} {earlier later : List Worker} {resource name : String} {millis : Nat}
      {next : Zonecast.Delivery.Reply (.acquire resource name millis) →
        Process Delivery (Except Error Outcome)}
      {grant? : Option Grant} {deadline? : Option Int} {owner : String}
      (worker : scene.workers =
        earlier ++
          ⟨.call (I := Delivery) (.acquire resource name millis) next, grant?, deadline?⟩ :: later)
      (held : (scene.table.acquire resource name owner scene.clock millis).1 = none) :
      Step scene { scene with workers := earlier ++ ⟨next (.ok none), none, none⟩ :: later }
  /-- A worker is told that the store failed, where the statement may have taken effect. -/
  | loseAcquire {scene : Scene} {earlier later : List Worker} {resource name : String}
      {millis : Nat}
      {next : Zonecast.Delivery.Reply (.acquire resource name millis) →
        Process Delivery (Except Error Outcome)}
      {grant? : Option Grant} {deadline? : Option Int} {owner : String} (error : Lock.Error)
      {after : Lock.Table}
      (worker : scene.workers =
        earlier ++
          ⟨.call (I := Delivery) (.acquire resource name millis) next, grant?, deadline?⟩ :: later)
      (fresh : owner ∉ scene.drawn)
      (effect : after = scene.table ∨
        after = (scene.table.acquire resource name owner scene.clock millis).2) :
      Step scene { scene with
        table := after
        drawn := owner :: scene.drawn
        workers := earlier ++ ⟨next (.error error), none, none⟩ :: later }
  /-- A worker gives a lease back, whatever it is told. -/
  | release {scene : Scene} {earlier later : List Worker} {handle : Lock.Handle}
      {next : Zonecast.Delivery.Reply (.release handle) →
        Process Delivery (Except Error Outcome)}
      {grant? : Option Grant} {deadline? : Option Int}
      (reply : Zonecast.Delivery.Reply (.release handle))
      (worker : scene.workers =
        earlier ++ ⟨.call (I := Delivery) (.release handle) next, grant?, deadline?⟩ :: later) :
      Step scene { scene with
        table := scene.table.release handle
        returned := handle :: scene.returned
        workers := earlier ++ ⟨next reply, none, deadline?⟩ :: later }
  /-- The return of a lease fails without effect, and is not tried again. -/
  | loseRelease {scene : Scene} {earlier later : List Worker} {handle : Lock.Handle}
      {next : Zonecast.Delivery.Reply (.release handle) →
        Process Delivery (Except Error Outcome)}
      {grant? : Option Grant} {deadline? : Option Int} (error : Lock.Error)
      (worker : scene.workers =
        earlier ++ ⟨.call (I := Delivery) (.release handle) next, grant?, deadline?⟩ :: later) :
      Step scene { scene with
        workers := earlier ++ ⟨next (.error error), none, deadline?⟩ :: later }
  /-- A worker starts its deadline, within the margin of its acquisition. -/
  | startDeadline {scene : Scene} {earlier later : List Worker} {seconds : Nat}
      {next : Zonecast.Delivery.Reply (.startDeadline seconds) →
        Process Delivery (Except Error Outcome)}
      {grant : Grant} {deadline? : Option Int}
      (worker : scene.workers =
        earlier ++ ⟨.call (I := Delivery) (.startDeadline seconds) next, some grant, deadline?⟩ ::
          later)
      (prompt : scene.clock < grant.since + leaseMargin * 1000) :
      Step scene { scene with
        workers := earlier ++ ⟨next (), some grant, some (scene.clock + seconds * 1000)⟩ :: later }
  /-- A worker makes a call under its lease, or misses its deadline there. -/
  | leased {scene : Scene} {earlier later : List Worker} {request : LeasedCall}
      {next : Zonecast.Delivery.Reply (.leased request) →
        Process Delivery (Except Error Outcome)}
      {grant? : Option Grant} {deadline? : Option Int} (timely : Timely request)
      (worker : scene.workers =
        earlier ++ ⟨.call (I := Delivery) (.leased request) next, grant?, deadline?⟩ :: later) :
      Step scene { scene with workers := earlier ++ ⟨next timely, grant?, deadline?⟩ :: later }
  /-- A worker makes a call that has nothing to do with leases. -/
  | aside {scene : Scene} {earlier later : List Worker} {request : DeliveryCall}
      {next : Zonecast.Delivery.Reply request → Process Delivery (Except Error Outcome)}
      {grant? : Option Grant} {deadline? : Option Int}
      (reply : Zonecast.Delivery.Reply request) (kind : isAside request)
      (worker : scene.workers =
        earlier ++ ⟨.call (I := Delivery) request next, grant?, deadline?⟩ :: later) :
      Step scene { scene with workers := earlier ++ ⟨next reply, grant?, deadline?⟩ :: later }
  /-- A worker is done, or abandoned wherever it is. -/
  | leave {scene : Scene} {earlier later : List Worker} {worker : Worker}
      (found : scene.workers = earlier ++ worker :: later) :
      Step scene { scene with workers := earlier ++ later }
  /-- A handle is given back that no worker stands for: an abandoned, a stale or a foreign one. -/
  | stray {scene : Scene} {handle : Lock.Handle}
      (unheld : ∀ worker ∈ scene.workers, ∀ grant, worker.grant? = some grant →
        grant.handle ≠ handle) :
      Step scene { scene with
        table := scene.table.release handle
        returned := handle :: scene.returned }
  /-- Time passes, up to the deadlines of those who work under a lease. -/
  | tick {scene : Scene} {later : Int} (forward : scene.clock ≤ later)
      (shown : later ≤ Instant.lastMillis)
      (inTime : ∀ worker ∈ scene.workers, worker.IsInside → ∀ deadline,
        worker.deadline? = some deadline → later ≤ deadline) :
      Step scene { scene with clock := later }

/-- What can come of a scene. -/
inductive Reaches (first : Scene) : Scene → Prop
  | refl : Reaches first first
  | step {scene after : Scene} (reached : Reaches first scene) (step : Step scene after) :
      Reaches first after

/-- Before any worker started: the table may hold rows of the past. -/
structure Scene.Opens (scene : Scene) : Prop where
  shown : Instant.firstMillis ≤ scene.clock ∧ scene.clock ≤ Instant.lastMillis
  one : scene.table.OnePerLock
  acquired : scene.acquired = []
  workers : scene.workers = []

/-! ### Leases and their rows -/

/-- Acquired leases have tokens of their own, and their rows in the table while they run. -/
structure Ledger (clock : Int) (table : Lock.Table) (drawn : List String) (acquired : List Grant)
    (returned : List Lock.Handle) : Prop where
  one : table.OnePerLock
  drawn : ∀ grant ∈ acquired, grant.handle.owner ∈ drawn
  distinct : (acquired.map fun grant => grant.handle.owner).Nodup
  early : ∀ grant ∈ acquired, Instant.firstMillis ≤ grant.since
  kept : ∀ grant ∈ acquired, grant.handle ∉ returned → grant.Runs clock → grant.row ∈ table

namespace Ledger

variable {clock : Int} {table after : Lock.Table} {drawn : List String} {acquired : List Grant}
  {returned : List Lock.Handle} {resource name owner : String} {millis : Nat} {handle : Lock.Handle}

/-- The row of a lease that runs has not run out. -/
theorem lt_expiresAt (ledger : Ledger clock table drawn acquired returned)
    (late : clock ≤ Instant.lastMillis) {grant : Grant} (listed : grant ∈ acquired)
    (runs : grant.Runs clock) : clock < grant.row.expiresAt :=
  Lock.lt_expiry (ledger.early grant listed) late runs

/-- An acquisition leaves the rows of leases that run. -/
theorem mem_acquired (ledger : Ledger clock table drawn acquired returned)
    (late : clock ≤ Instant.lastMillis)
    (taken : table.acquire resource name owner clock millis = (some handle, after)) {grant : Grant}
    (listed : grant ∈ acquired) (unreturned : grant.handle ∉ returned) (runs : grant.Runs clock) :
    grant.row ∈ after := by
  have inTable := ledger.kept grant listed unreturned runs
  rcases Lock.Table.acquire_cases ledger.one resource name owner clock millis with
    ⟨refused, _⟩ | ⟨expired, _, found, _, rows⟩
  · rw [refused] at taken
    cases taken
  · rw [found] at taken
    obtain rfl := (Prod.mk.inj taken).2
    refine (rows grant.row).mpr (Or.inr ⟨inTable, fun same => ?_⟩)
    have ended := expired grant.row inTable same
    have running := ledger.lt_expiresAt late listed runs
    omega

/-- A lease is acquired. -/
theorem acquire (ledger : Ledger clock table drawn acquired returned)
    (shown : Instant.firstMillis ≤ clock ∧ clock ≤ Instant.lastMillis) (fresh : owner ∉ drawn)
    (taken : table.acquire resource name owner clock millis = (some handle, after)) :
    handle.owner = owner ∧ Ledger clock after (owner :: drawn) (⟨handle, clock, millis⟩ :: acquired)
      (returned.filter (· ≠ handle)) := by
  have survives : ∀ grant ∈ acquired, grant.handle ∉ returned → grant.Runs clock →
      grant.row ∈ after := fun _ => ledger.mem_acquired shown.2 taken
  rcases Lock.Table.acquire_cases ledger.one resource name owner clock millis with
    ⟨refused, _⟩ | ⟨_, _, found, one, rows⟩
  · rw [refused] at taken
    cases taken
  · rw [found] at taken
    obtain ⟨granted, rfl⟩ := Prod.mk.inj taken
    obtain rfl := Option.some.inj granted
    have unused : ∀ grant ∈ acquired, grant.handle.owner ≠ owner :=
      fun grant listed same => fresh (same ▸ ledger.drawn grant listed)
    refine ⟨rfl, one, ?_, ?_, ?_, ?_⟩
    · intro grant listed
      rcases List.mem_cons.mp listed with rfl | before
      · exact List.mem_cons_self
      · exact List.mem_cons_of_mem _ (ledger.drawn grant before)
    · refine List.nodup_cons.mpr ⟨fun again => ?_, ledger.distinct⟩
      obtain ⟨grant, listed, same⟩ := List.mem_map.mp again
      exact unused grant listed same
    · intro grant listed
      rcases List.mem_cons.mp listed with rfl | before
      · exact shown.1
      · exact ledger.early grant before
    · intro grant listed unreturned runs
      rcases List.mem_cons.mp listed with rfl | before
      · exact (rows _).mpr (Or.inl rfl)
      · refine survives grant before (fun given => unreturned ?_) runs
        refine List.mem_filter.mpr ⟨given, decide_eq_true fun same => ?_⟩
        exact unused grant before (congrArg Lock.Handle.owner same)

/-- An acquisition takes effect, and nobody is told. -/
theorem loseAcquire (ledger : Ledger clock table drawn acquired returned)
    (late : clock ≤ Instant.lastMillis) : Ledger clock
      (table.acquire resource name owner clock millis).2 (owner :: drawn) acquired returned := by
  have known : ∀ grant ∈ acquired, grant.handle.owner ∈ owner :: drawn :=
    fun grant listed => List.mem_cons_of_mem _ (ledger.drawn grant listed)
  rcases Lock.Table.acquire_cases ledger.one resource name owner clock millis with
    ⟨refused, _⟩ | ⟨_, after, found, one, _⟩
  · rw [refused]
    exact ⟨ledger.one, known, ledger.distinct, ledger.early, ledger.kept⟩
  · rw [found]
    exact ⟨one, known, ledger.distinct, ledger.early,
      fun grant listed unreturned runs => ledger.mem_acquired late found listed unreturned runs⟩

/-- Any handle is given back. -/
theorem release (ledger : Ledger clock table drawn acquired returned) (handle : Lock.Handle) :
    Ledger clock (table.release handle) drawn acquired (handle :: returned) := by
  refine ⟨ledger.one.release handle, ledger.drawn, ledger.distinct, ledger.early, ?_⟩
  intro grant listed unreturned runs
  rw [List.mem_cons, not_or] at unreturned
  exact Lock.Table.mem_release.mpr
    ⟨ledger.kept grant listed unreturned.2 runs, unreturned.1⟩

theorem tick (ledger : Ledger clock table drawn acquired returned) {later : Int}
    (forward : clock ≤ later) : Ledger later table drawn acquired returned := by
  refine ⟨ledger.one, ledger.drawn, ledger.distinct, ledger.early, ?_⟩
  intro grant listed unreturned runs
  exact ledger.kept grant listed unreturned (Int.lt_of_le_of_lt forward runs)

end Ledger

/-! ### Workers and their phases -/

namespace Worker

/-- The phase of a worker: it stands for no lease yet, for one whose deadline is still to be
started, for one that ends after its deadline, or for none any more. -/
inductive InPhase (clock : Int) : Worker → Prop
  | approaching {rest : Process Delivery (Except Error Outcome)} (phase : Approaching rest) :
    InPhase clock ⟨rest, none, none⟩
  | holding {rest : Process Delivery (Except Error Outcome)} {grant : Grant}
      (phase : Holding grant.handle grant.millis rest) : InPhase clock ⟨rest, some grant, none⟩
  | working {rest : Process Delivery (Except Error Outcome)} {grant : Grant} {deadline : Int}
      (phase : Working grant.handle rest) (within : deadline < grant.since + grant.millis)
      (inTime : IsInside ⟨rest, some grant, some deadline⟩ → clock ≤ deadline) :
    InPhase clock ⟨rest, some grant, some deadline⟩
  | apart {rest : Process Delivery (Except Error Outcome)} {deadline? : Option Int}
      (phase : rest.Only isAside) : InPhase clock ⟨rest, none, deadline?⟩

variable {clock : Int} {grant? : Option Grant} {deadline? : Option Int}

/-- Before an acquisition, no lease is stood for. -/
theorem InPhase.of_acquire {resource name : String} {millis : Nat}
    {next : Zonecast.Delivery.Reply (.acquire resource name millis) →
      Process Delivery (Except Error Outcome)}
    (phase : InPhase clock
      ⟨.call (I := Delivery) (.acquire resource name millis) next, grant?, deadline?⟩) :
    (∀ handle, Holding handle millis (next (.ok (some handle)))) ∧
      (next (.ok none)).Only isAside ∧ ∀ error, (next (.error error)).Only isAside := by
  cases phase with
  | approaching phase =>
    cases phase with
    | aside kind => exact kind.elim
    | acquire granted excluded failed => exact ⟨granted, excluded, failed⟩
  | holding phase => cases phase
  | working phase =>
    cases phase with
    | leaving leaving =>
      cases leaving with
      | aside kind => exact kind.elim
  | apart phase => exact phase.1.elim

/-- Only the lease that is stood for is given back, and none is stood for afterwards. -/
theorem InPhase.of_release {handle : Lock.Handle}
    {next : Zonecast.Delivery.Reply (.release handle) → Process Delivery (Except Error Outcome)}
    (phase : InPhase clock ⟨.call (I := Delivery) (.release handle) next, grant?, deadline?⟩) :
    (∃ grant, grant? = some grant ∧ grant.handle = handle) ∧
      ∀ reply, (next reply).Only isAside := by
  cases phase with
  | approaching phase =>
    cases phase with
    | aside kind => exact kind.elim
  | holding phase => cases phase
  | working phase =>
    cases phase with
    | leaving leaving =>
      cases leaving with
      | aside kind => exact kind.elim
      | release rest => exact ⟨⟨_, rfl, rfl⟩, rest⟩
  | apart phase => exact phase.1.elim

theorem InPhase.of_startDeadline {seconds : Nat} {grant : Grant}
    {next : Zonecast.Delivery.Reply (.startDeadline seconds) →
      Process Delivery (Except Error Outcome)}
    (phase : InPhase clock
      ⟨.call (I := Delivery) (.startDeadline seconds) next, some grant, deadline?⟩) :
    (seconds + leaseMargin) * 1000 ≤ grant.millis ∧ Working grant.handle (next ()) := by
  cases phase with
  | holding phase =>
    cases phase with
    | start fits rest => exact ⟨fits, rest⟩
  | working phase =>
    cases phase with
    | leaving leaving =>
      cases leaving with
      | aside kind => exact kind.elim

/-- A call under the lease is made by a worker that stands for it, before its deadline. -/
theorem InPhase.of_leased {request : LeasedCall}
    {next : Zonecast.Delivery.Reply (.leased request) → Process Delivery (Except Error Outcome)}
    (phase : InPhase clock ⟨.call (I := Delivery) (.leased request) next, grant?, deadline?⟩) :
    ∃ grant deadline, grant? = some grant ∧ deadline? = some deadline ∧
      deadline < grant.since + grant.millis ∧ clock ≤ deadline ∧
      ∀ timely, Working grant.handle (next timely) := by
  cases phase with
  | approaching phase =>
    cases phase with
    | aside kind => exact kind.elim
  | holding phase => cases phase
  | working phase within inTime =>
    cases phase with
    | leased rest => exact ⟨_, _, rfl, rfl, within, inTime ⟨_, _, rfl⟩, rest⟩
    | leaving leaving =>
      cases leaving with
      | aside kind => exact kind.elim
  | apart phase => exact phase.1.elim

/-- A worker that is about to give its lease back works under it no more. -/
theorem outside_of_leaving {rest : Process Delivery (Except Error Outcome)} {handle : Lock.Handle}
    (leaving : Leaving handle rest) : ¬ IsInside ⟨rest, grant?, deadline?⟩ := by
  rintro ⟨request, next, inside⟩
  dsimp only at inside
  subst inside
  cases leaving with
  | aside kind => exact kind.elim

/-- A call aside leads to no call under the lease. -/
theorem InPhase.after_aside {request : DeliveryCall}
    {next : Zonecast.Delivery.Reply request → Process Delivery (Except Error Outcome)}
    (kind : isAside request)
    (phase : InPhase clock ⟨.call (I := Delivery) request next, grant?, deadline?⟩)
    (reply : Zonecast.Delivery.Reply request) :
    InPhase clock ⟨next reply, grant?, deadline?⟩ := by
  cases phase with
  | approaching phase =>
    cases phase with
    | aside _ rest => exact .approaching (rest reply)
    | acquire => exact kind.elim
  | holding phase =>
    cases phase with
    | start => exact kind.elim
  | working phase within inTime =>
    cases phase with
    | leased => exact kind.elim
    | leaving leaving =>
      cases leaving with
      | release => exact kind.elim
      | aside _ rest =>
        exact .working (.leaving (rest reply)) within fun inside =>
          absurd inside (outside_of_leaving (rest reply))
  | apart phase => exact .apart (phase.2 reply)

end Worker

/-- Workers stand for leases that were not given back, each for its own, and keep to their
phases. -/
structure Team (clock : Int) (acquired : List Grant) (returned : List Lock.Handle)
    (workers : List Worker) : Prop where
  held : ∀ worker ∈ workers, ∀ grant, worker.grant? = some grant →
    grant ∈ acquired ∧ grant.handle ∉ returned
  apart : workers.Pairwise fun first second => ∀ grant other, first.grant? = some grant →
    second.grant? = some other → grant.handle ≠ other.handle
  phases : ∀ worker ∈ workers, worker.InPhase clock

namespace Team

variable {clock : Int} {acquired : List Grant} {returned : List Lock.Handle}
  {earlier later : List Worker} {worker : Worker}

theorem mem_middle {other : Worker} :
    other ∈ earlier ++ worker :: later ↔ other = worker ∨ other ∈ earlier ++ later := by
  rw [List.perm_middle.mem_iff, List.mem_cons]

theorem leave (team : Team clock acquired returned (earlier ++ worker :: later)) :
    Team clock acquired returned (earlier ++ later) := by
  have fewer : List.Sublist (earlier ++ later) (earlier ++ worker :: later) :=
    (List.sublist_cons_self worker later).append_left earlier
  exact ⟨fun other listed => team.held other (fewer.subset listed), team.apart.sublist fewer,
    fun other listed => team.phases other (fewer.subset listed)⟩

/-- Two workers do not stand for one handle, whichever comes first. -/
theorem symmetric {first second : Worker}
    (apart : ∀ grant other, first.grant? = some grant → second.grant? = some other →
      grant.handle ≠ other.handle) (grant other : Grant) (held : second.grant? = some grant)
    (alsoHeld : first.grant? = some other) : grant.handle ≠ other.handle :=
  (apart other grant alsoHeld held).symm

/-- What the others stand for is not what this worker stands for. -/
theorem apart_of_mem (team : Team clock acquired returned (earlier ++ worker :: later))
    {other : Worker} (among : other ∈ earlier ++ later) :
    ∀ grant lease, worker.grant? = some grant → other.grant? = some lease →
      grant.handle ≠ lease.handle :=
  (List.pairwise_cons.mp ((List.pairwise_middle symmetric).mp team.apart)).1 other among

/-- A worker comes to the others. -/
theorem join (others : Team clock acquired returned (earlier ++ later))
    (held : ∀ grant, worker.grant? = some grant → grant ∈ acquired ∧ grant.handle ∉ returned)
    (apart : ∀ other ∈ earlier ++ later, ∀ grant lease, worker.grant? = some grant →
      other.grant? = some lease → grant.handle ≠ lease.handle) (phase : worker.InPhase clock) :
    Team clock acquired returned (earlier ++ worker :: later) := by
  refine ⟨?_, (List.pairwise_middle symmetric).mpr
    (List.pairwise_cons.mpr ⟨apart, others.apart⟩), ?_⟩
  · intro other listed
    rcases mem_middle.mp listed with rfl | among
    · exact held
    · exact others.held other among
  · intro other listed
    rcases mem_middle.mp listed with rfl | among
    · exact phase
    · exact others.phases other among

/-- A worker goes on with what it stands for, or with nothing. -/
theorem goOn (team : Team clock acquired returned (earlier ++ worker :: later)) {next : Worker}
    (stays : ∀ grant, next.grant? = some grant → worker.grant? = some grant)
    (phase : next.InPhase clock) : Team clock acquired returned (earlier ++ next :: later) := by
  refine team.leave.join (fun grant held => ?_) (fun other among grant lease held => ?_) phase
  · exact team.held worker (mem_middle.mpr (Or.inl rfl)) grant (stays grant held)
  · exact team.apart_of_mem among grant lease (stays grant held)

/-- Nobody stands for a handle that is given back. -/
theorem release {workers : List Worker} (team : Team clock acquired returned workers)
    {handle : Lock.Handle} (unheld : ∀ worker ∈ workers, ∀ grant, worker.grant? = some grant →
      grant.handle ≠ handle) : Team clock acquired (handle :: returned) workers := by
  refine ⟨fun worker listed grant held => ?_, team.apart, team.phases⟩
  obtain ⟨known, unreturned⟩ := team.held worker listed grant held
  refine ⟨known, fun given => ?_⟩
  rcases List.mem_cons.mp given with same | before
  · exact unheld worker listed grant held same
  · exact unreturned before

/-- A lease is acquired that none of the workers stands for. -/
theorem acquire {workers : List Worker} (team : Team clock acquired returned workers)
    (grant : Grant) (kept : Lock.Handle → Bool) :
    Team clock (grant :: acquired) (returned.filter kept) workers := by
  refine ⟨fun worker listed lease held => ?_, team.apart, team.phases⟩
  obtain ⟨known, unreturned⟩ := team.held worker listed lease held
  exact ⟨List.mem_cons_of_mem _ known, fun given => unreturned (List.mem_filter.mp given).1⟩

/-- Time passes, but not beyond the deadline of a worker under its lease. -/
theorem tick {workers : List Worker} (team : Team clock acquired returned workers) {later : Int}
    (inTime : ∀ worker ∈ workers, worker.IsInside → ∀ deadline,
      worker.deadline? = some deadline → later ≤ deadline) :
    Team later acquired returned workers := by
  refine ⟨team.held, team.apart, fun worker listed => ?_⟩
  have prompt := inTime worker listed
  cases team.phases worker listed with
  | approaching phase => exact .approaching phase
  | holding phase => exact .holding phase
  | working phase within _ => exact .working phase within fun inside => prompt inside _ rfl
  | apart phase => exact .apart phase

end Team

/-! ### Scenes -/

/-- What holds of every scene that is reached. -/
structure Scene.Sound (scene : Scene) : Prop where
  shown : Instant.firstMillis ≤ scene.clock ∧ scene.clock ≤ Instant.lastMillis
  ledger : Ledger scene.clock scene.table scene.drawn scene.acquired scene.returned
  team : Team scene.clock scene.acquired scene.returned scene.workers

theorem Scene.Opens.sound {scene : Scene} (opens : scene.Opens) : scene.Sound := by
  refine ⟨opens.shown, ⟨opens.one, ?_, ?_, ?_, ?_⟩, ?_, ?_, ?_⟩
  all_goals simp only [opens.acquired, opens.workers]
  · exact fun grant listed => absurd listed List.not_mem_nil
  · exact List.nodup_nil
  · exact fun grant listed => absurd listed List.not_mem_nil
  · exact fun grant listed => absurd listed List.not_mem_nil
  · exact fun worker listed => absurd listed List.not_mem_nil
  · exact List.Pairwise.nil
  · exact fun worker listed => absurd listed List.not_mem_nil

theorem Scene.Sound.step {scene after : Scene} (sound : scene.Sound) (step : Step scene after) :
    after.Sound := by
  obtain ⟨shown, ledger, team⟩ := sound
  cases step with
  | start settings batch attempt roomy =>
    refine ⟨shown, ledger, Team.join (by rwa [List.append_nil]) nofun (fun _ _ => nofun) ?_⟩
    exact .approaching (approaching_publish settings batch attempt roomy)
  | acquire worker fresh taken =>
    rw [worker] at team
    obtain ⟨rfl, acquired⟩ := ledger.acquire shown fresh taken
    refine ⟨shown, acquired, (team.leave.acquire _ _).join ?_ ?_ ?_⟩
    · rintro grant ⟨⟩
      exact ⟨List.mem_cons_self, fun given => of_decide_eq_true (List.mem_filter.mp given).2 rfl⟩
    · rintro other among grant lease ⟨⟩ held same
      have known := ledger.drawn lease (team.leave.held other among lease held).1
      rw [← congrArg Lock.Handle.owner same] at known
      exact fresh known
    · have phase := team.phases _ (Team.mem_middle.mpr (Or.inl rfl))
      exact .holding (phase.of_acquire.1 _)
  | exclude worker held =>
    rw [worker] at team
    have phase := team.phases _ (Team.mem_middle.mpr (Or.inl rfl))
    exact ⟨shown, ledger, team.goOn nofun (.apart phase.of_acquire.2.1)⟩
  | loseAcquire error worker fresh effect =>
    rw [worker] at team
    have phase := team.phases _ (Team.mem_middle.mpr (Or.inl rfl))
    refine ⟨shown, ?_, team.goOn nofun (.apart (phase.of_acquire.2.2 error))⟩
    rcases effect with rfl | rfl
    · exact ⟨ledger.one, fun grant listed => List.mem_cons_of_mem _ (ledger.drawn grant listed),
        ledger.distinct, ledger.early, ledger.kept⟩
    · exact ledger.loseAcquire shown.2
  | release reply worker =>
    rw [worker] at team
    have phase := team.phases _ (Team.mem_middle.mpr (Or.inl rfl))
    obtain ⟨⟨grant, stood, own⟩, aside⟩ := phase.of_release
    refine ⟨shown, ledger.release _, (team.leave.release ?_).join nofun (fun _ _ _ _ => nofun)
      (.apart (aside reply))⟩
    intro other among lease held same
    exact team.apart_of_mem among grant lease stood held (own.trans same.symm)
  | loseRelease error worker =>
    rw [worker] at team
    have phase := team.phases _ (Team.mem_middle.mpr (Or.inl rfl))
    exact ⟨shown, ledger, team.goOn nofun (.apart (phase.of_release.2 _))⟩
  | startDeadline worker prompt =>
    rw [worker] at team
    have phase := team.phases _ (Team.mem_middle.mpr (Or.inl rfl))
    obtain ⟨fits, working⟩ := phase.of_startDeadline
    refine ⟨shown, ledger, team.goOn (fun grant held => held) (.working working ?_ fun _ => ?_)⟩
    · omega
    · omega
  | leased timely worker =>
    rw [worker] at team
    have phase := team.phases _ (Team.mem_middle.mpr (Or.inl rfl))
    obtain ⟨grant, deadline, rfl, rfl, within, early, working⟩ := phase.of_leased
    exact ⟨shown, ledger, team.goOn (fun grant held => held)
      (.working (working timely) within fun _ => early)⟩
  | aside reply kind worker =>
    rw [worker] at team
    have phase := team.phases _ (Team.mem_middle.mpr (Or.inl rfl))
    exact ⟨shown, ledger, team.goOn (fun grant held => held) (phase.after_aside kind reply)⟩
  | leave found =>
    rw [found] at team
    exact ⟨shown, ledger, team.leave⟩
  | stray unheld => exact ⟨shown, ledger.release _, team.release unheld⟩
  | tick forward late inTime =>
    exact ⟨⟨Int.le_trans shown.1 forward, late⟩, ledger.tick forward, team.tick inTime⟩

theorem Scene.Sound.of_reaches {first last : Scene} (opens : first.Opens)
    (reached : Reaches first last) : last.Sound := by
  induction reached with
  | refl => exact opens.sound
  | step _ step inductionHypothesis => exact inductionHypothesis.step step

/-- A worker under its lease is within it, and has its row in the table. -/
theorem Scene.Sound.row_of_inside {scene : Scene} (sound : scene.Sound) {worker : Worker}
    (listed : worker ∈ scene.workers) (inside : worker.IsInside) :
    ∃ grant, worker.grant? = some grant ∧ grant ∈ scene.acquired ∧
      grant.handle ∉ scene.returned ∧ grant.Runs scene.clock ∧ grant.row ∈ scene.table := by
  obtain ⟨rest, grant?, deadline?⟩ := worker
  obtain ⟨request, next, same⟩ := inside
  dsimp only at same
  subst same
  obtain ⟨grant, deadline, rfl, _, within, early, _⟩ := (sound.team.phases _ listed).of_leased
  obtain ⟨known, unreturned⟩ := sound.team.held _ listed grant rfl
  have runs : grant.Runs scene.clock := Int.lt_of_le_of_lt early within
  exact ⟨grant, rfl, known, unreturned, runs, sound.ledger.kept grant known unreturned runs⟩

/-- However workers are interleaved: a lease that was acquired and not given back has its row in the
table and keeps everyone from acquiring its lock, for as long as it runs. Leases have handles of
their own, and giving one back leaves the rows of all others. A worker that works under its lease is
within it, so no two workers ever work under a lease of the same lock at once. -/
theorem leases_exclude {first last : Scene} (opens : first.Opens) (reached : Reaches first last) :
    (∀ grant ∈ last.acquired, grant.handle ∉ last.returned → grant.Runs last.clock →
      grant.row ∈ last.table ∧ ∀ owner millis, (last.table.acquire grant.handle.resource
        grant.handle.name owner last.clock millis).1 = none) ∧
    (last.acquired.map Grant.handle).Nodup ∧
    (∀ grant ∈ last.acquired, ∀ handle, handle ≠ grant.handle → grant.row ∈ last.table →
      grant.row ∈ last.table.release handle) ∧
    (∀ worker ∈ last.workers, worker.IsInside → ∃ grant, worker.grant? = some grant ∧
      grant ∈ last.acquired ∧ grant.handle ∉ last.returned ∧ grant.Runs last.clock) ∧
    ∀ (i j : Nat) (worker other : Worker), last.workers[i]? = some worker →
      last.workers[j]? = some other → worker.IsInside → other.IsInside →
      worker.lock? = other.lock? → i = j := by
  have sound := Scene.Sound.of_reaches opens reached
  refine ⟨?_, ?_, ?_, ?_, ?_⟩
  · intro grant known unreturned runs
    have inTable := sound.ledger.kept grant known unreturned runs
    have running := sound.ledger.lt_expiresAt sound.shown.2 known runs
    refine ⟨inTable, fun owner millis => ?_⟩
    exact congrArg Prod.fst
      (Lock.Table.acquire_eq_none sound.ledger.one inTable running owner millis)
  · refine List.Nodup.of_map Lock.Handle.owner ?_
    rw [List.map_map]
    exact sound.ledger.distinct
  · intro grant known handle other inTable
    exact Lock.Table.mem_release.mpr ⟨inTable, fun same => other same.symm⟩
  · intro worker listed inside
    obtain ⟨grant, held, known, unreturned, runs, _⟩ := sound.row_of_inside listed inside
    exact ⟨grant, held, known, unreturned, runs⟩
  · intro i j worker other atFirst atSecond inside otherInside sameLock
    obtain ⟨grant, held, _, _, _, inTable⟩ :=
      sound.row_of_inside (List.mem_of_getElem? atFirst) inside
    obtain ⟨lease, alsoHeld, _, _, _, alsoIn⟩ :=
      sound.row_of_inside (List.mem_of_getElem? atSecond) otherInside
    rw [Worker.lock?, Worker.lock?, held, alsoHeld] at sameLock
    have sameRow : grant.row = lease.row :=
      sound.ledger.one.eq_of_lock_eq inTable alsoIn (Option.some.inj sameLock)
    have sameHandle : grant.handle = lease.handle := congrArg Lock.Row.handle sameRow
    obtain ⟨firstBound, rfl⟩ := List.getElem?_eq_some_iff.mp atFirst
    obtain ⟨secondBound, rfl⟩ := List.getElem?_eq_some_iff.mp atSecond
    have apart := List.pairwise_iff_getElem.mp sound.team.apart
    rcases Nat.lt_trichotomy i j with before | same | behind
    · exact absurd sameHandle (apart i j firstBound secondBound before grant lease held alsoHeld)
    · exact same
    · exact absurd sameHandle.symm
        (apart j i secondBound firstBound behind lease grant alsoHeld held)

/-! ### A lease that is taken over -/

/-- Where the lock is to be had, another worker gets under a lease of it at once. -/
theorem exists_inside {first scene : Scene} (reached : Reaches first scene) (settings : Settings)
    (batch : Batch) (roomy : leaseMargin ≤ settings.leaseSeconds) {shard : Shard}
    (resolved : Shard.resolve batch.lockIndex batch.lockCount = .ok shard) {owner : String}
    (fresh : owner ∉ scene.drawn) {handle : Lock.Handle} {after : Lock.Table}
    (free : scene.table.acquire (Name.bare batch.tld) shard.lockName owner scene.clock
      (settings.leaseSeconds * 1000) = (some handle, after)) :
    ∃ worker : Worker, worker.IsInside ∧
      worker.grant? = some ⟨handle, scene.clock, settings.leaseSeconds * 1000⟩ ∧
      worker.deadline? = some (scene.clock + settings.deadline * 1000) ∧
      Reaches first { scene with
        table := after
        drawn := owner :: scene.drawn
        acquired := ⟨handle, scene.clock, settings.leaseSeconds * 1000⟩ :: scene.acquired
        returned := scene.returned.filter (· ≠ handle)
        workers := scene.workers ++ [worker] } := by
  obtain ⟨ask, asking, asked⟩ : ∃ next, Delivery.publish settings batch 0 =
      .call (I := Delivery) (.registry (.shardCount (Name.bare batch.tld))) next ∧
      next (.ok (some shard.count)) =
        Delivery.publishShard settings batch 0 (Name.bare batch.tld) shard := by
    refine ⟨_, rfl, ?_⟩
    rw [resolved]
    exact if_pos rfl
  obtain ⟨want, wanting, start, starting, inside⟩ : ∃ next,
      Delivery.publishShard settings batch 0 (Name.bare batch.tld) shard =
        .call (I := Delivery) (.acquire (Name.bare batch.tld) shard.lockName
          (settings.leaseSeconds * 1000)) next ∧
      ∃ start, next (.ok (some handle)) =
        .call (I := Delivery) (.startDeadline settings.deadline) start ∧
      ∃ request rest, start () = .call (I := Delivery) (.leased request) rest := by
    refine ⟨_, rfl, _, rfl, ?_⟩
    obtain ⟨request, rest, opened⟩ : ∃ request rest,
        Delivery.underDeadline (Leased.work batch (Name.bare batch.tld)) =
          .call (I := Delivery) (.leased request) rest := ⟨_, _, underDeadline_call _ _⟩
    show ∃ request rest, (((Delivery.underDeadline
      (Leased.work batch (Name.bare batch.tld))).bind _).bind _) = _
    rw [opened]
    exact ⟨request, _, rfl⟩
  have begun := reached.step (.start scene settings batch 0 roomy)
  rw [asking] at begun
  have counted := begun.step (@Step.aside _ _ _ (.registry (.shardCount (Name.bare batch.tld)))
    _ _ _ (Except.ok (some shard.count)) trivial rfl)
  rw [asked, wanting] at counted
  have acquired := counted.step (.acquire rfl fresh free)
  rw [starting] at acquired
  have prompt : scene.clock < scene.clock + leaseMargin * 1000 := by
    unfold leaseMargin
    omega
  exact ⟨⟨start (), some ⟨handle, scene.clock, settings.leaseSeconds * 1000⟩,
    some (scene.clock + settings.deadline * 1000)⟩, inside, rfl, rfl,
    acquired.step (.startDeadline rfl prompt)⟩

/-- Settings with a lease of twenty seconds, which leave five to work. -/
def shortLease : Settings where
  leaseSeconds := 20
  retriesBeforeSplit := 3
  retriesBeforeGivingUp := 20
  mail := ⟨"DNS update failed", "", "Example Registry", "support@registry.test",
    "ops@registry.test"⟩

def contestedBatch : Batch where
  tld := "test"
  writer := "PowerDnsWriter"
  lockIndex := 1
  lockCount := 1
  domains := ["d1.test"]
  hosts := []
  enqueuedAt := .ofMillis 0
  itemsCreatedAt := .ofMillis 0

/-- The only shard of its TLD. -/
def contestedShard : Shard :=
  ⟨1, 1, by decide, by decide, by decide⟩

/-- The lease of the shard's lock that was acquired under a token at a time. -/
def contestedGrant (owner : String) (since : Int) : Grant :=
  ⟨⟨"test", "DNS updates-lock 1 of 1", owner⟩, since, 20000⟩

/-- Nothing acquired, at the start of the clock. -/
def openingScene : Scene := ⟨0, [], [], [], [], []⟩

/-- One worker is abandoned at its deadline and its lease runs out; another takes the lock over and
is at work when the first lease is given back. The second lease stays. -/
theorem taken_over_contestedBatch :
    ∃ last worker, Reaches openingScene last ∧ last.clock = 20000 ∧ last.workers = [worker] ∧
      worker.IsInside ∧ (contestedGrant "first" 0).handle ∈ last.returned ∧
      (contestedGrant "second" 20000).row ∈ last.table ∧
      ∀ owner millis, (last.table.acquire "test" "DNS updates-lock 1 of 1" owner last.clock
        millis).1 = none := by
  have roomy : leaseMargin ≤ shortLease.leaseSeconds := by decide
  have opens : openingScene.Opens := ⟨by decide, List.nodup_nil, rfl, rfl⟩
  have resolved : Shard.resolve contestedBatch.lockIndex contestedBatch.lockCount =
      .ok contestedShard := by decide +kernel
  have free : openingScene.table.acquire (Name.bare contestedBatch.tld) contestedShard.lockName
      "first" openingScene.clock (shortLease.leaseSeconds * 1000) =
        (some (contestedGrant "first" 0).handle, [(contestedGrant "first" 0).row]) := by
    decide +kernel
  have taken : Lock.Table.acquire [(contestedGrant "first" 0).row] (Name.bare contestedBatch.tld)
      contestedShard.lockName "second" 20000 (shortLease.leaseSeconds * 1000) =
        (some (contestedGrant "second" 20000).handle, [(contestedGrant "second" 20000).row]) := by
    decide +kernel
  obtain ⟨abandoned, _, _, deadline, working⟩ := exists_inside .refl shortLease contestedBatch roomy
    resolved List.not_mem_nil free
  have due := working.step (@Step.tick _ 5000 (show (0 : Int) ≤ 5000 by decide) (by decide) (by
    intro worker listed _ time comes
    rw [List.mem_singleton.mp listed, deadline] at comes
    exact Int.le_of_eq (Option.some.inj comes)))
  have left := due.step (@Step.leave _ [] [] abandoned rfl)
  have expired : Reaches openingScene ⟨20000, [(contestedGrant "first" 0).row], ["first"],
      [contestedGrant "first" 0], [], []⟩ :=
    left.step (@Step.tick _ 20000 (show (5000 : Int) ≤ 20000 by decide) (by decide)
      fun worker listed => absurd listed List.not_mem_nil)
  obtain ⟨worker, inside, granted, _, reached⟩ := exists_inside expired shortLease contestedBatch
    roomy resolved (show "second" ∉ ["first"] by decide) taken
  have returned : Reaches openingScene ⟨20000,
      Lock.Table.release [(contestedGrant "second" 20000).row] (contestedGrant "first" 0).handle,
      ["second", "first"], [contestedGrant "second" 20000, contestedGrant "first" 0],
      [(contestedGrant "first" 0).handle], [worker]⟩ := by
    refine reached.step (@Step.stray _ (contestedGrant "first" 0).handle ?_)
    intro other listed grant held same
    rw [List.mem_singleton.mp listed, granted] at held
    obtain rfl := Option.some.inj held
    exact absurd same (show (contestedGrant "second" 20000).handle ≠
      (contestedGrant "first" 0).handle by decide)
  have unreturned :
      (contestedGrant "second" 20000).handle ∉ [(contestedGrant "first" 0).handle] := by
    decide
  obtain ⟨kept, excluded⟩ := (leases_exclude opens returned).1 (contestedGrant "second" 20000)
    List.mem_cons_self unreturned (show (20000 : Int) < 20000 + 20000 by decide)
  exact ⟨_, worker, returned, rfl, rfl, inside, List.mem_cons_self, kept, excluded⟩

end Zonecast.Publish
