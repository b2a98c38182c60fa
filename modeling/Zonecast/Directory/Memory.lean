/-
The memory of zone ids at work: how the calls that load through it are met when several processes
share it.
-/
import Zonecast.Directory.Cache
import Zonecast.Directory.Gates
import Zonecast.Process.Schedule

namespace Zonecast.Directory

/-- The remembered ids, the gates before them, and how long ids are remembered, in
milliseconds. -/
structure Memory where
  horizon : Int
  cache : Cache
  gates : Gates
  deriving Repr

namespace Memory

/-- An empty memory. -/
def create (horizon : Int) : Memory := ⟨horizon, .empty, .empty⟩

/-- Looks a name up at a reading of the clock. -/
def lookup (memory : Memory) (now : Instant) (name : String) : Option String × Memory :=
  let (found, cache) := memory.cache.lookup memory.horizon now name
  (found, { memory with cache := cache })

/-- Remembers an id. -/
def store (memory : Memory) (name id : String) : Memory :=
  { memory with cache := memory.cache.store name id }

/-- A process goes to the gate of a name. -/
def enter (memory : Memory) (name : String) (process : Nat) : Memory :=
  { memory with gates := memory.gates.enter name process }

/-- A process gives up its turn at the gate of a name. -/
def leave (memory : Memory) (name : String) (process : Nat) : Memory :=
  { memory with gates := memory.gates.leave name process }

/-- A process is abandoned. -/
def abandon (memory : Memory) (process : Nat) : Memory :=
  { memory with gates := memory.gates.abandon process }

end Memory

/-- Meets the calls of processes that share the memory found in a larger state. A process that
does not have its turn at once is parked, and woken by whoever leaves before it. -/
def meet {σ : Type} {I : Interface} (memory : σ → Memory) (put : Memory → σ → σ)
    (now : σ → Instant) (loader : Process.Handler σ I) : Process.Handler σ (Cached I)
  | _, .lookup name, state =>
    let (found, after) := (memory state).lookup (now state) name
    .replied found (put after state) []
  | _, .store name id, state => .replied () (put ((memory state).store name id) state) []
  | process, .enter name, state =>
    let after := (memory state).enter name process
    if after.gates.hasTurn name process then .replied () (put after state) []
    else .parked (put after state) fun state => ((), state)
  | process, .leave name, state =>
    let before := memory state
    .replied () (put (before.leave name process) state)
      (before.gates.successor? name process).toList
  | process, .load request, state => loader process request state

end Zonecast.Directory
