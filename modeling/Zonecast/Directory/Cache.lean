/-
Remembered zone ids. The ids are remembered together and forgotten together: the first look at
the memory fixes a time, one horizon later, from which on the next look finds it empty and fixes
the time anew. Storing never moves that time.

A missing id is loaded by one process at a time for each name. A process that wants to load waits
for its turn at the gate of its name; whoever has the turn looks again before loading, so that those
who waited behind a successful load take its result. A failed load stores nothing.
-/
import Zonecast.Process
import Zonecast.Time.Instant

namespace Zonecast.Directory

/-! ### The memory -/

/-- The remembered ids and the time from which on they are forgotten. -/
structure Cache where
  entries : List (String × String)
  expiry : Option Instant
  deriving Repr

namespace Cache

/-- Nothing remembered, no time fixed. -/
def empty : Cache := ⟨[], none⟩

/-- Forgets everything if the time has come or none is fixed, and then fixes it anew. -/
def renew (horizon : Int) (now : Instant) (cache : Cache) : Cache :=
  match cache.expiry with
  | some expiry => if expiry.le now then ⟨[], some (now.addMillis horizon)⟩ else cache
  | none => ⟨[], some (now.addMillis horizon)⟩

/-- The id remembered for a name. -/
def get? (cache : Cache) (name : String) : Option String :=
  (cache.entries.find? fun entry => entry.1 == name).map (·.2)

/-- Looks a name up at a reading of the clock. -/
def lookup (horizon : Int) (now : Instant) (cache : Cache) (name : String) :
    Option String × Cache :=
  let renewed := cache.renew horizon now
  (renewed.get? name, renewed)

/-- Remembers an id, in place of the one remembered before. -/
def store (cache : Cache) (name id : String) : Cache :=
  { cache with entries := (name, id) :: cache.entries.filter fun entry => entry.1 != name }

end Cache

/-! ### Loading through the memory -/

/-- A call of a process that loads ids through the memory; `load` is a call of the loader. -/
inductive CachedCall (Load : Type)
  /-- The id remembered for the name at this moment. -/
  | lookup (name : String)
  | store (name id : String)
  /-- Goes to the gate of the name; the reply comes with the turn. -/
  | enter (name : String)
  | leave (name : String)
  | load (request : Load)

end Directory

/-- The interface of loading ids through the memory, over the loader's own interface. -/
def Cached (I : Interface) : Interface where
  Call := Directory.CachedCall I.Call
  Reply
    | .lookup _ => Option String
    | .store _ _ => Unit
    | .enter _ => Unit
    | .leave _ => Unit
    | .load request => I.Reply request

namespace Directory

variable {I : Interface} {ε : Type}

/-- The loader's calls as calls of the larger interface. -/
def loading (I : Interface) : Process.Inclusion I (Cached I) where
  call := .load
  reply _ reply := reply

/-- Loads an id in turn, unless one was stored meanwhile. -/
def loadInTurn (name : String) (load : Process I (Except ε String)) :
    Process (Cached I) (Except ε String) := do
  match ← Process.perform (I := Cached I) (.lookup name) with
  | some id => return .ok id
  | none =>
    match ← load.embed (loading I) with
    | .ok id =>
      Process.perform (I := Cached I) (.store name id)
      return .ok id
    | .error error => return .error error

/-- The remembered id of a name, or the one that its loader finds. -/
def getOrLoad (name : String) (load : Process I (Except ε String)) :
    Process (Cached I) (Except ε String) := do
  match ← Process.perform (I := Cached I) (.lookup name) with
  | some id => return .ok id
  | none =>
    Process.perform (I := Cached I) (.enter name)
    let result ← loadInTurn name load
    Process.perform (I := Cached I) (.leave name)
    return result

end Directory

end Zonecast
