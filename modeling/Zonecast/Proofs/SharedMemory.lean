/-
Many processes over one memory of zone ids. Any number of processes load ids through the memory,
each with a loader of its own, while others look names up and store ids as they like. Whatever is
done takes effect one step after the other, in any order; loaders are answered in any way, and
processes are abandoned at any moment. The clock never runs backwards. A look at the memory goes by
a reading of the clock that may be older than the look itself, since others may come between the
two.

What is looked up and stored is written down as it happens, and only here: the log is what
statements about the memory are said of.
-/
import Zonecast.Proofs.Processes
import Zonecast.Proofs.RememberedIds
import Zonecast.Proofs.RotationTags

namespace Zonecast.Directory.Sharing

open Process

variable {I : Interface} {ε : Type}

/-! ### Events -/

/-- What becomes known of the memory. -/
inductive Event
  /-- A name is looked up, going by this reading of the clock. -/
  | looked (reading : Instant) (name : String) (found : Option String)
  /-- An id is stored while the clock shows this, by the process of this number if by one that
  loads. -/
  | stored (time : Instant) (maker : Option Nat) (name id : String)

/-- The id that was stored last for a name, and when. The latest event comes first. -/
def lastStored (name : String) : List Event → Option (Instant × String)
  | [] => none
  | .stored time _ key id :: earlier =>
    if key = name then some (time, id) else lastStored name earlier
  | .looked _ _ _ :: earlier => lastStored name earlier

/-! ### Processes -/

/-- A call of the loader among the calls of a process. -/
def load? : Exchange (Cached I) → Option (Exchange I)
  | ⟨.load request, reply⟩ => some ⟨request, reply⟩
  | _ => none

/-- The calls of the loader among the calls of a process. -/
def loads (made : List (Exchange (Cached I))) : List (Exchange I) := made.filterMap load?

/-- A process: the name it was asked for, its loader, its calls so far with their replies, and what
is left of it unless it was abandoned. -/
structure Task (I : Interface) (ε : Type) where
  asked : String
  load : Process I (Except ε String)
  made : List (Exchange (Cached I))
  rest : Option (Process (Cached I) (Except ε String))

/-- The memory, what the clock shows, the log, and the processes, which are numbered. -/
structure Scene (I : Interface) (ε : Type) where
  memory : Memory
  clock : Instant
  log : List Event
  tasks : Nat → Option (Task I ε)

/-! ### Steps -/

/-- A call of a process and its reply, with the memory before and after and what is written down. A
call of the loader is answered in any way. -/
inductive Answers (clock : Instant) (number : Nat) : (request : CachedCall I.Call) →
    (Cached I).Reply request → Memory → Memory → List Event → Prop
  | looked (memory : Memory) (reading : Instant) (name : String) (regular : reading.Regular)
      (shown : reading.le clock = true) :
    Answers clock number (.lookup name) (memory.lookup reading name).1 memory
      (memory.lookup reading name).2 [.looked reading name (memory.lookup reading name).1]
  | stored (memory : Memory) (name id : String) :
    Answers clock number (.store name id) () memory (memory.store name id)
      [.stored clock (some number) name id]
  | entered (memory : Memory) (name : String)
      (turn : memory.gates.hasTurn name number = true) :
    Answers clock number (.enter name) () memory memory []
  | left (memory : Memory) (name : String) :
    Answers clock number (.leave name) () memory (memory.leave name number) []
  | loaded (memory : Memory) (request : I.Call) (reply : I.Reply request) :
    Answers clock number (.load request) reply memory memory []

/-- What can happen next. -/
inductive Happens : Scene I ε → Scene I ε → Prop
  /-- Time passes. -/
  | passed (scene : Scene I ε) (later : Instant) (regular : later.Regular)
      (forwards : scene.clock.le later = true) : Happens scene { scene with clock := later }
  /-- A name is looked up. -/
  | looked (scene : Scene I ε) (reading : Instant) (name : String) (regular : reading.Regular)
      (shown : reading.le scene.clock = true) :
    Happens scene
      { scene with
        memory := (scene.memory.lookup reading name).2
        log := .looked reading name (scene.memory.lookup reading name).1 :: scene.log }
  /-- An id is stored. -/
  | stored (scene : Scene I ε) (name id : String) :
    Happens scene
      { scene with
        memory := scene.memory.store name id
        log := .stored scene.clock none name id :: scene.log }
  /-- A process starts under a number that no other ever had. -/
  | started (scene : Scene I ε) (number : Nat) (name : String)
      (load : Process I (Except ε String)) (free : scene.tasks number = none) :
    Happens scene
      { scene with
        tasks := Function.update scene.tasks number
          (some ⟨name, load, [], some (getOrLoad name load)⟩) }
  /-- A process goes to the gate of a name. -/
  | arrived {scene : Scene I ε} {task : Task I ε} {name : String}
      {next : (Cached I).Reply (.enter name) → Process (Cached I) (Except ε String)}
      (number : Nat) (present : scene.tasks number = some task)
      (calls : task.rest = some (.call (I := Cached I) (.enter name) next))
      (new : scene.memory.gates.held? name number = none) :
    Happens scene { scene with memory := scene.memory.enter name number }
  /-- A process makes its next call and goes on from the reply. -/
  | answered {scene : Scene I ε} {task : Task I ε} {request : CachedCall I.Call}
      {reply : (Cached I).Reply request} {after : Memory} {events : List Event}
      {next : (Cached I).Reply request → Process (Cached I) (Except ε String)}
      (number : Nat) (answers : Answers scene.clock number request reply scene.memory after events)
      (present : scene.tasks number = some task)
      (calls : task.rest = some (.call (I := Cached I) request next)) :
    Happens scene
      { scene with
        memory := after
        log := events ++ scene.log
        tasks := Function.update scene.tasks number
          (some { task with made := task.made ++ [⟨request, reply⟩], rest := some (next reply) }) }
  /-- A process is abandoned. -/
  | abandoned {scene : Scene I ε} {task : Task I ε} (number : Nat)
      (present : scene.tasks number = some task) :
    Happens scene
      { scene with
        memory := scene.memory.abandon number
        tasks := Function.update scene.tasks number (some { task with rest := none }) }

/-- All that can come of a memory that was just created, whatever the clock shows then. -/
inductive Reaches (horizon : Int) : Scene I ε → Prop
  | start (clock : Instant) (regular : clock.Regular) :
    Reaches horizon ⟨.create horizon, clock, [], fun _ => none⟩
  | onwards {scene next : Scene I ε} (reached : Reaches horizon scene)
      (happens : Happens scene next) : Reaches horizon next

/-! ### The handler -/

/-- What is written down of a call that is answered while the clock shows this. -/
def eventsOf (clock : Instant) (number : Nat) : (request : CachedCall I.Call) →
    (Cached I).Reply request → List Event
  | .lookup name, found => [.looked clock name found]
  | .store name id, _ => [.stored clock (some number) name id]
  | _, _ => []

/-- The memory and the clock are parts of a state, and the loader leaves them alone. -/
structure Lawful {σ : Type} (memory : σ → Memory) (put : Memory → σ → σ) (now : σ → Instant)
    (loader : Handler σ I) : Prop where
  keeps : ∀ held state, memory (put held state) = held
  shows : ∀ held state, now (put held state) = now state
  loads : ∀ number request state reply after woken,
    loader number request state = .replied reply after woken →
      memory after = memory state ∧ now after = now state

section Handler

variable {σ : Type} {memory : σ → Memory} {put : Memory → σ → σ} {now : σ → Instant}
  {loader : Handler σ I} {number : Nat} {request : CachedCall I.Call}
  {reply : (Cached I).Reply request} {state after : σ} {woken : List Nat}

/-- The handler that processes are run with answers no call in another way than was said. -/
theorem answers_of_meet (lawful : Lawful memory put now loader) (regular : (now state).Regular)
    (met : meet memory put now loader number request state = .replied reply after woken) :
    now after = now state ∧ Answers (now state) number request reply
      (arrive number request (memory state)) (memory after)
      (eventsOf (now state) number request reply) := by
  cases request with
  | lookup name =>
    cases met
    rw [lawful.keeps, lawful.shows]
    exact ⟨rfl, .looked (memory state) (now state) name regular (Instant.le_refl _)⟩
  | store name id =>
    cases met
    rw [lawful.keeps, lawful.shows]
    exact ⟨rfl, .stored (memory state) name id⟩
  | enter name =>
    simp only [meet] at met
    split at met
    · rename_i turn
      cases met
      rw [lawful.keeps, lawful.shows]
      exact ⟨rfl, .entered _ name turn⟩
    · cases met
  | leave name =>
    cases met
    rw [lawful.keeps, lawful.shows]
    exact ⟨rfl, .left (memory state) name⟩
  | load request =>
    obtain ⟨same, shown⟩ := lawful.loads number request state reply after woken met
    rw [same, shown]
    exact ⟨rfl, .loaded (memory state) request reply⟩

theorem regular_of_reaches {horizon : Int} {scene : Scene I ε} (reached : Reaches horizon scene) :
    scene.clock.Regular := by
  induction reached with
  | start clock regular => exact regular
  | onwards _ happens inductionHypothesis =>
    cases happens with
    | passed later regular => exact regular
    | _ => exact inductionHypothesis

variable {horizon : Int} {log : List Event} {tasks : Nat → Option (Task I ε)} {task : Task I ε}

/-- A process may start at any moment of a run. -/
theorem reaches_of_started (number : Nat)
    (reached : Reaches horizon ⟨memory state, now state, log, tasks⟩) (name : String)
    (load : Process I (Except ε String)) (free : tasks number = none) :
    Reaches horizon ⟨memory state, now state, log, Function.update tasks number
      (some ⟨name, load, [], some (getOrLoad name load)⟩)⟩ :=
  reached.onwards (.started _ number name load free)

/-- What the handler replies to a process that does not wait yet is among what can happen: one that
has its turn at once has gone to the gate in the same call. -/
theorem reaches_of_replied (number : Nat) (request : CachedCall I.Call)
    (reply : (Cached I).Reply request) (lawful : Lawful memory put now loader)
    (reached : Reaches horizon ⟨memory state, now state, log, tasks⟩)
    {next : (Cached I).Reply request → Process (Cached I) (Except ε String)}
    (present : tasks number = some task)
    (calls : task.rest = some (.call (I := Cached I) request next))
    (new : ∀ name, request = .enter name → (memory state).gates.held? name number = none)
    (met : meet memory put now loader number request state = .replied reply after woken) :
    Reaches horizon ⟨memory after, now after, eventsOf (now state) number request reply ++ log,
      Function.update tasks number (some
        { task with made := task.made ++ [⟨request, reply⟩], rest := some (next reply) })⟩ := by
  obtain ⟨same, answers⟩ := answers_of_meet lawful (regular_of_reaches reached) met
  rw [same]
  cases request with
  | enter name =>
    exact (reached.onwards (.arrived number present calls (new name rfl))).onwards
      (.answered number answers present calls)
  | _ => exact reached.onwards (.answered number answers present calls)

/-- A process that the handler parks has gone to the gate, and waits there for the reply. -/
theorem reaches_of_parked (number : Nat) (lawful : Lawful memory put now loader)
    (reached : Reaches horizon ⟨memory state, now state, log, tasks⟩) {name : String}
    {next : (Cached I).Reply (.enter name) → Process (Cached I) (Except ε String)}
    (present : tasks number = some task)
    (calls : task.rest = some (.call (I := Cached I) (.enter name) next))
    (new : (memory state).gates.held? name number = none) {resume : σ → Unit × σ}
    (met : meet memory put now loader number (.enter name) state = .parked after resume) :
    Reaches horizon ⟨memory after, now after, log, tasks⟩ ∧
      ∀ later, resume later = ((), later) := by
  simp only [meet] at met
  split at met
  · cases met
  · cases met
    rw [lawful.keeps, lawful.shows]
    exact ⟨reached.onwards (.arrived number present calls new), fun _ => rfl⟩

/-- A process that waits goes on once it has its turn. -/
theorem reaches_of_resumed (number : Nat)
    (reached : Reaches horizon ⟨memory state, now state, log, tasks⟩) {name : String}
    {next : (Cached I).Reply (.enter name) → Process (Cached I) (Except ε String)}
    (present : tasks number = some task)
    (calls : task.rest = some (.call (I := Cached I) (.enter name) next))
    (turn : (memory state).gates.hasTurn name number = true) :
    Reaches horizon ⟨memory state, now state, log, Function.update tasks number
      (some { task with made := task.made ++ [⟨.enter name, ()⟩], rest := some (next ()) })⟩ := by
  have answers : Answers (I := I) (now state) number (.enter name) () (memory state) (memory state)
    [] := .entered (memory state) name turn
  have onwards := reached.onwards (.answered number answers present calls)
  exact onwards

end Handler

end Zonecast.Directory.Sharing
