/-
A rehearsal of the memory of zone ids: loaders that yield a given id, or fail, at once or after
ten milliseconds, and a count of how often a loader ran.
-/
import Zonecast.Directory.Memory

namespace Zonecast.Rehearsal

open Directory

/-- A loader for a name: the id it yields, if it does not fail, and whether it takes its time. -/
structure Loading where
  name : String
  id : Option String
  slow : Bool
  deriving DecidableEq, Repr

/-- How long a slow loader takes, in milliseconds. -/
def slowness : Nat := 10

/-- The interface of the loaders. -/
def Loader : Interface where
  Call := Loading
  Reply _ := Except Unit String

/-- A memory, a clock and the number of loader runs. -/
structure LoadingBench where
  memory : Memory
  now : Instant
  loads : Nat

namespace LoadingBench

def create (horizon : Int) (now : Instant) : LoadingBench := ⟨.create horizon, now, 0⟩

/-- Runs a loader. -/
def meetLoad : Process.Handler LoadingBench Loader
  | _, (loading : Loading), bench =>
    let reply : Except Unit String :=
      match loading.id with
      | some id => .ok id
      | none => .error ()
    let bench := { bench with loads := bench.loads + 1 }
    if loading.slow then .asleep slowness bench fun later => (reply, later)
    else .replied reply bench []

/-- Meets the calls of processes that load through the memory. -/
def handler : Process.Handler LoadingBench (Cached Loader) :=
  meet LoadingBench.memory (fun memory bench => { bench with memory := memory })
    LoadingBench.now meetLoad

/-- The process that loads one id. -/
def process (loading : Loading) : Process (Cached Loader) (Except Unit String) :=
  getOrLoad loading.name (Process.perform (I := Loader) loading)

/-- Starts loaders together and waits for all. -/
def loadAll (loadings : List Loading) (bench : LoadingBench) :
    List (Except Unit String) × LoadingBench :=
  let (results, bench) := Process.together handler 2 (loadings.map process) bench
  (results.map fun result => result.getD (.error ()), bench)

/-- Looks a name up. -/
def get (name : String) (bench : LoadingBench) : Option String × LoadingBench :=
  let (found, memory) := bench.memory.lookup bench.now name
  (found, { bench with memory := memory })

/-- Remembers an id. -/
def insert (name id : String) (bench : LoadingBench) : LoadingBench :=
  { bench with memory := bench.memory.store name id }

/-- Moves the clock. -/
def advance (millis : Int) (bench : LoadingBench) : LoadingBench :=
  { bench with now := bench.now.addMillis millis }

end LoadingBench

end Zonecast.Rehearsal
