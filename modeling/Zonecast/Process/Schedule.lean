/-
Many processes at once, one at a time. A task runs until a call of its own cannot be answered
yet: it then sleeps for a while, or is parked until some other task's call wakes it, or never
goes on. Tasks that may go on take turns, either in rounds or in the order in which they came to be
able to. Time stands still while any task can go on, and then jumps to the earliest sleeper;
sleepers of one time come to be able to go on in the order in which they fell asleep.

Within a turn a task is followed by recursion on its process. How many turns there are is bounded
by the caller, who knows how often its processes can be held up.
-/
import Zonecast.Process

namespace Zonecast.Process

variable {I : Interface} {σ ρ α : Type}

/-! ### Meeting a call -/

/-- What comes of a call. -/
inductive Outcome (σ ρ : Type)
  /-- The reply, the state after the call, and the tasks that may go on because of it. -/
  | replied (reply : ρ) (state : σ) (woken : List Nat)
  /-- The reply comes after so many milliseconds, from the state that is found then. -/
  | asleep (delay : Nat) (state : σ) (resume : σ → ρ × σ)
  /-- The reply comes once another task's call wakes this one. -/
  | parked (state : σ) (resume : σ → ρ × σ)
  /-- No reply ever comes. -/
  | stalled (state : σ)

/-- How the calls of each task are met. -/
abbrev Handler (σ : Type) (I : Interface) :=
  Nat → (request : I.Call) → σ → Outcome σ (I.Reply request)

/-! ### One turn -/

/-- What a held up task goes on with. -/
abbrev Resumption (σ : Type) (I : Interface) (α : Type) := σ → Process I α × σ

/-- How a turn ends. -/
inductive Pause (σ : Type) (I : Interface) (α : Type)
  | done (value : α)
  | asleep (delay : Nat) (resume : Resumption σ I α)
  | parked (resume : Resumption σ I α)
  | stalled

/-- A process that goes on with the reply of a held up call. -/
def continuing {request : I.Call} (next : I.Reply request → Process I α)
    (resume : σ → I.Reply request × σ) : Resumption σ I α :=
  fun state => (next (resume state).1, (resume state).2)

/-- Runs a task until it is held up or done; answers how it ended, the state and who was woken. -/
def turn (handler : Handler σ I) (task : Nat) (woken : List Nat) :
    Process I α → σ → Pause σ I α × σ × List Nat
  | .done value, state => (.done value, state, woken)
  | .call request next, state =>
    match handler task request state with
    | .replied reply state more => turn handler task (woken ++ more) (next reply) state
    | .asleep delay state resume => (.asleep delay (continuing next resume), state, woken)
    | .parked state resume => (.parked (continuing next resume), state, woken)
    | .stalled state => (.stalled, state, woken)

/-! ### The schedule -/

/-- Who has the next turn among the tasks that may go on. -/
inductive TurnOrder
  /-- Tasks are gone through in their order, again and again; whoever may go on when it is come to
  does so. When time jumps, they are gone through from the first. -/
  | rounds
  /-- Who has been able to go on for longest. -/
  | arrival
  deriving DecidableEq, Repr

/-- How so many tasks that are waited for together take turns: a few are gone through in rounds,
more than that are not. -/
def TurnOrder.ofCount (count : Nat) : TurnOrder :=
  if count ≤ 30 then .rounds else .arrival

/-- Tasks under way. -/
structure Schedule (σ : Type) (I : Interface) (α : Type) where
  order : TurnOrder
  state : σ
  time : Nat
  /-- The task that the round comes to next. -/
  position : Nat
  /-- In the order in which they came to be able to go on. -/
  ready : List (Nat × Resumption σ I α)
  /-- Each with the time at which it goes on, in the order in which they fell asleep. -/
  asleep : List (Nat × Nat × Resumption σ I α)
  parked : List (Nat × Resumption σ I α)
  finished : List (Nat × α)

namespace Schedule

/-- All tasks ready, in their order. -/
def start (order : TurnOrder) (processes : List (Process I α)) (state : σ) : Schedule σ I α where
  order := order
  state := state
  time := 0
  position := 0
  ready := (List.range processes.length).zip (processes.map fun process => fun state =>
    (process, state))
  asleep := []
  parked := []
  finished := []

/-- Makes a parked task ready. -/
def wake (schedule : Schedule σ I α) (task : Nat) : Schedule σ I α :=
  match schedule.parked.find? fun entry => entry.1 == task with
  | some entry =>
    { schedule with
      ready := schedule.ready ++ [entry]
      parked := schedule.parked.filter fun entry => entry.1 != task }
  | none => schedule

/-- Puts a task where the end of its turn leaves it. -/
def file (schedule : Schedule σ I α) (task : Nat) : Pause σ I α → Schedule σ I α
  | .done value => { schedule with finished := schedule.finished ++ [(task, value)] }
  | .asleep delay resume =>
    { schedule with asleep := schedule.asleep ++ [(schedule.time + delay, task, resume)] }
  | .parked resume => { schedule with parked := schedule.parked ++ [(task, resume)] }
  | .stalled => schedule

/-- The time at which the first sleepers go on. -/
def nextTime? (schedule : Schedule σ I α) : Option Nat :=
  (schedule.asleep.map (·.1)).min?

/-- The task that has the next turn. -/
def next? (schedule : Schedule σ I α) : Option (Nat × Resumption σ I α) := do
  let tasks := schedule.ready.map (·.1)
  let task ← match schedule.order with
    | .rounds => (tasks.filter (schedule.position ≤ ·)).min? <|> tasks.min?
    | .arrival => tasks.head?
  schedule.ready.find? fun entry => entry.1 == task

/-- Gives a ready task its turn, or else lets time jump to the first sleepers. -/
def advance (handler : Handler σ I) (schedule : Schedule σ I α) : Option (Schedule σ I α) :=
  match schedule.next? with
  | some (task, resume) =>
    let (process, state) := resume schedule.state
    let (pause, state, woken) := turn handler task [] process state
    let left :=
      { schedule with
        state := state
        position := task + 1
        ready := schedule.ready.filter fun entry => entry.1 != task }
    some (woken.foldl wake (left.file task pause))
  | none =>
    schedule.nextTime?.map fun time =>
      { schedule with
        time := time
        position := 0
        ready := (schedule.asleep.filter fun entry => entry.1 == time).map (·.2)
        asleep := schedule.asleep.filter fun entry => entry.1 != time }

/-- Goes on until no task can, for so many steps at most. -/
def exhaust (handler : Handler σ I) : Nat → Schedule σ I α → Schedule σ I α
  | 0, schedule => schedule
  | steps + 1, schedule =>
    match schedule.advance handler with
    | some schedule => exhaust handler steps schedule
    | none => schedule

end Schedule

/-- Runs processes together, each of which is held up at most so often. Answers what each ended
with, in their order, and the state. -/
def together (handler : Handler σ I) (holdUps : Nat) (processes : List (Process I α)) (state : σ) :
    List (Option α) × σ :=
  let order := TurnOrder.ofCount processes.length
  let steps := processes.length * (2 * holdUps + 1)
  let schedule := (Schedule.start order processes state).exhaust handler steps
  ((List.range processes.length).map fun task =>
    (schedule.finished.find? fun entry => entry.1 == task).map (·.2), schedule.state)

end Zonecast.Process
