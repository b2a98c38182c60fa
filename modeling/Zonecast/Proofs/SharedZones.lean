/-
Many processes over one memory of zone ids and one backend. Any number of processes resolve names,
in any spellings, one call after the other in any order. The clock shows what it likes, calls fail
with or without having taken effect, and processes are abandoned at any moment. Nobody else creates
or deletes zones.

Which zones were shown in replies, and which were created, is kept on record here, since statements
about processes that resolve names are said of it.
-/
import Zonecast.Proofs.LoadingTurns

namespace Zonecast.Directory

open Process Zone Upkeep

/-! ### Many processes -/

/-- What processes that resolve names share: the memory, the zones that the backend holds, those
that it has shown in replies, and the names of those that it was made to create. -/
structure Commons where
  memory : Memory
  zones : List Entry
  shown : List Entry
  created : List String

/-- A process: the name that it was asked for, its calls so far with their replies, and what is left
of it. -/
structure Task where
  asked : String
  made : List (Exchange (Cached Upkeep))
  rest : Process (Cached Upkeep) (Except Error String)

/-- The processes are numbered. -/
structure Scene where
  commons : Commons
  tasks : Nat → Option Task

/-- Whether a call is about the zones as such. -/
def concernsZones : Backend.Call → Bool
  | .listZones | .getZone _ | .createZone _ => true
  | _ => false

/-- What a call that is carried out makes of the zones that the backend holds. They are listed in
any order, and a zone is read under its id. A zone that is created has the name that was asked for,
in some spelling. -/
inductive Handles (zones : List Entry) :
    (request : Backend.Call) → Backend.Value request → List Entry → Prop
  | listed (answer : List Detail) (same : (answer.map entryOf).Perm zones) :
    Handles zones .listZones answer zones
  | read {id : String} (zone : Detail) (own : zone.id = id) :
    Handles zones (.getZone id) zone zones
  | created (creation : Creation) (zone : Detail)
      (named : Name.bare zone.name = Name.bare creation.name) :
    Handles zones (.createZone creation) zone (entryOf zone :: zones)
  | aside (request : Backend.Call) (value : Backend.Value request)
      (apart : concernsZones request = false) : Handles zones request value zones

/-- The zones that a reply shows. -/
def shownBy : (request : Backend.Call) → Backend.Value request → List Entry
  | .listZones, zones => List.map entryOf zones
  | .createZone _, zone => [entryOf zone]
  | _, _ => []

/-- The names of the zones that a call creates. -/
def namesCreated : Backend.Call → List String
  | .createZone creation => [creation.name]
  | _ => []

/-- A call of a process and its reply, with what is shared before and after. A call to the backend
is carried out and answered, or it fails, having been carried out or not. -/
inductive Answers (number : Nat) :
    (request : CachedCall Upkeep.Call) → (Cached Upkeep).Reply request → Commons → Commons → Prop
  | looked (commons : Commons) (now : Instant) (name : String) :
    Answers number (.lookup name) (commons.memory.lookup now name).1 commons
      { commons with memory := (commons.memory.lookup now name).2 }
  | stored (commons : Commons) (name id : String) :
    Answers number (.store name id) () commons
      { commons with memory := commons.memory.store name id }
  | entered (commons : Commons) (name : String)
      (turn : commons.memory.gates.hasTurn name number = true) :
    Answers number (.enter name) () commons commons
  | left (commons : Commons) (name : String) :
    Answers number (.leave name) () commons
      { commons with memory := commons.memory.leave name number }
  | served {commons : Commons} {request : Backend.Call} {value : Backend.Value request}
      {zones : List Entry} (handles : Handles commons.zones request value zones) :
    Answers number (.load (.backend request)) (.ok value) commons
      { commons with
        zones
        shown := shownBy request value ++ commons.shown
        created := namesCreated request ++ commons.created }
  | lost {commons : Commons} {request : Backend.Call} {value : Backend.Value request}
      {zones : List Entry} (handles : Handles commons.zones request value zones)
      (error : Backend.Error) :
    Answers number (.load (.backend request)) (.error error) commons
      { commons with zones, created := namesCreated request ++ commons.created }
  | refused (commons : Commons) (request : Backend.Call) (error : Backend.Error) :
    Answers number (.load (.backend request)) (.error error) commons commons
  | read (commons : Commons) (now : Instant) : Answers number (.load .now) now commons commons
  | countedFailure (commons : Commons) (check : Check) :
    Answers number (.load (.countFailure check)) () commons commons
  | countedRectifyFailure (commons : Commons) :
    Answers number (.load .countRectifyFailure) () commons commons

/-- What can happen next. -/
inductive Happens : Scene → Scene → Prop
  /-- A process starts under a number that no other has. -/
  | started (commons : Commons) {tasks : Nat → Option Task} (number : Nat) (defaults : Defaults)
      (name : String) (free : tasks number = none) :
    Happens ⟨commons, tasks⟩
      ⟨commons, Function.update tasks number (some ⟨name, [], resolve defaults name⟩)⟩
  /-- A process goes to the gate of its name. -/
  | arrived {commons : Commons} {tasks : Nat → Option Task} {task : Task} {name : String}
      {next : (Cached Upkeep).Reply (.enter name) → Process (Cached Upkeep) (Except Error String)}
      (number : Nat) (present : tasks number = some task)
      (calls : task.rest = .call (I := Cached Upkeep) (.enter name) next)
      (new : commons.memory.gates.held? name number = none) :
    Happens ⟨commons, tasks⟩
      ⟨{ commons with memory := commons.memory.enter name number }, tasks⟩
  /-- A process makes its next call and goes on from the reply. What others do between the moment
  at which a call takes effect and that of its reply, they may as well do after the reply. -/
  | answered {commons after : Commons} {tasks : Nat → Option Task} {task : Task}
      {request : CachedCall Upkeep.Call} {reply : (Cached Upkeep).Reply request}
      {next : (Cached Upkeep).Reply request → Process (Cached Upkeep) (Except Error String)}
      (number : Nat) (answers : Answers number request reply commons after)
      (present : tasks number = some task)
      (calls : task.rest = .call (I := Cached Upkeep) request next) :
    Happens ⟨commons, tasks⟩ ⟨after, Function.update tasks number
      (some ⟨task.asked, task.made ++ [⟨request, reply⟩], next reply⟩)⟩
  /-- A process is abandoned. -/
  | abandoned (commons : Commons) (tasks : Nat → Option Task) (number : Nat) :
    Happens ⟨commons, tasks⟩ ⟨{ commons with memory := commons.memory.abandon number },
      Function.update tasks number none⟩

/-- All that can come of zones that the backend holds, under a memory that was just created. -/
inductive Reaches (horizon : Int) (zones : List Entry) : Scene → Prop
  | start : Reaches horizon zones ⟨⟨.create horizon, zones, [], []⟩, fun _ => none⟩
  | onwards {scene next : Scene} (reached : Reaches horizon zones scene)
      (happens : Happens scene next) : Reaches horizon zones next

end Zonecast.Directory
