/-
Loads of one name go in single file. A process that finds nothing remembered goes to the gate of its
name, and runs its loader only in its turn there; whoever has the turn looks once more first, so it
takes over what was stored for its name since all ids were last forgotten. It waits for nobody but
those of its own name who came before it.

A gate stays in the table for as long as a process holds it. The process that leaves as the last one
takes it out: it finds that only the table and itself refer to it. So nobody opens a second gate of
a name while there is a first, and the table is empty once all are done, unless one of them was
abandoned, which leaves the gate where it is.

What carries the proof is the stage that each process has come to, which determines both its next
call and whether it is the first in the queue of its name. The memory itself is what its log says
it is.
-/
import Zonecast.Proofs.GateQueues
import Zonecast.Proofs.RecentIds

namespace Zonecast.Directory

open Process

namespace Sharing

variable {I : Interface} {ε : Type}

/-! ### Stages -/

/-- Whether a process has its turn: from when it comes to the front of its queue until it leaves. -/
inductive Place
  | outside
  | inside

/-- What can be left of a process that loads an id, and whether it has its turn. -/
inductive Stage (name : String) (load : Process I (Except ε String)) :
    Process (Cached I) (Except ε String) → Place → Prop
  | starting : Stage name load (getOrLoad name load) .outside
  | joining : Stage name load
      (.call (I := Cached I) (.enter name) fun _ => (loadInTurn name load).bind (depart name))
      .outside
  | looking : Stage name load ((loadInTurn name load).bind (depart name)) .inside
  | loading (left : Process I (Except ε String)) : Stage name load
      (((left.embed (Directory.loading I)).bind (remember name)).bind (depart name)) .inside
  | leaving (result : Except ε String) : Stage name load (depart name result) .inside
  | ended (result : Except ε String) : Stage name load (.done result) .outside

/-- What a process may call for: it keeps to its name, and stores and loads in its turn only. -/
def Suits (name : String) (place : Place) : CachedCall I.Call → Prop
  | .lookup key => key = name
  | .enter key => key = name ∧ place = .outside
  | .leave key | .store key _ => key = name ∧ place = .inside
  | .load _ => place = .inside

/-- What is left of the process ends with the id, and runs no loader. -/
structure Returns (rest : Process (Cached I) (Except ε String)) (id : String) : Prop where
  ends : ∃ path, Runs rest path (.ok id)
  spares : ∀ path result, Runs rest path result → loads path = [] ∧ result = .ok id

/-- Whether a process has its turn after a call. -/
def placeAfter (place : Place) : CachedCall I.Call → Place
  | .enter _ => .inside
  | .leave _ => .outside
  | _ => place

section Stages

variable {name : String} {load : Process I (Except ε String)}
  {rest : Process (Cached I) (Except ε String)} {place : Place} {request : CachedCall I.Call}
  {next : (Cached I).Reply request → Process (Cached I) (Except ε String)}

/-- From one stage a call leads to the next, whatever it is answered. -/
theorem Stage.step (stage : Stage name load rest place)
    (calls : rest = .call (I := Cached I) request next) :
    Suits name place request ∧
      ∀ reply, Stage name load (next reply) (placeAfter place request) := by
  cases stage with
  | starting =>
    rw [getOrLoad_eq] at calls
    cases calls
    refine ⟨rfl, fun reply => ?_⟩
    change Option String at reply
    cases reply with
    | some id => exact .ended (.ok id)
    | none => exact .joining
  | joining =>
    cases calls
    exact ⟨⟨rfl, rfl⟩, fun _ => .looking⟩
  | looking =>
    rw [loadInTurn_eq] at calls
    cases calls
    refine ⟨rfl, fun reply => ?_⟩
    change Option String at reply
    cases reply with
    | some id => exact .leaving (.ok id)
    | none => exact .loading load
  | loading left =>
    cases left with
    | call inner more =>
      cases calls
      exact ⟨rfl, fun reply => .loading (more reply)⟩
    | done result =>
      cases result with
      | ok id =>
        cases calls
        exact ⟨⟨rfl, rfl⟩, fun _ => .leaving (.ok id)⟩
      | error error =>
        cases calls
        exact ⟨⟨rfl, rfl⟩, fun _ => .ended (.error error)⟩
  | leaving result =>
    cases calls
    exact ⟨⟨rfl, rfl⟩, fun _ => .ended result⟩
  | ended result => cases calls

/-- A process that has its turn goes on to leave. -/
theorem Stage.exists_call (stage : Stage name load rest .inside) :
    ∃ request next, rest = .call (I := Cached I) request next := by
  cases stage with
  | looking =>
    rw [loadInTurn_eq]
    exact ⟨_, _, rfl⟩
  | loading left =>
    cases left with
    | call => exact ⟨_, _, rfl⟩
    | done result => cases result <;> exact ⟨_, _, rfl⟩
  | leaving => exact ⟨_, _, rfl⟩

/-- A process that is let in has its turn from the first call on. -/
theorem Stage.entered {key : String}
    {next : (Cached I).Reply (.enter key) → Process (Cached I) (Except ε String)}
    (stage : Stage name load rest place)
    (calls : rest = .call (I := Cached I) (.enter key) next)
    (reply : (Cached I).Reply (.enter key)) :
    key = name ∧ next reply = (loadInTurn name load).bind (depart name) := by
  cases stage with
  | joining =>
    cases calls
    exact ⟨rfl, rfl⟩
  | starting =>
    rw [getOrLoad_eq] at calls
    cases calls
  | looking =>
    rw [loadInTurn_eq] at calls
    cases calls
  | loading left =>
    cases left with
    | call inner more => cases calls
    | done result => cases result <;> cases calls
  | leaving | ended => cases calls

/-- A process that finds an id returns it, and has no use for its loader. -/
theorem Stage.found {key : String}
    {next : (Cached I).Reply (.lookup key) → Process (Cached I) (Except ε String)}
    (stage : Stage name load rest place)
    (calls : rest = .call (I := Cached I) (.lookup key) next) (id : String) :
    Returns (next (some id)) id := by
  cases stage with
  | starting =>
    rw [getOrLoad_eq] at calls
    cases calls
    refine ⟨⟨[], .done _⟩, fun path result run => ?_⟩
    obtain ⟨rfl, rfl⟩ := runs_done.mp run
    exact ⟨rfl, rfl⟩
  | looking =>
    rw [loadInTurn_eq] at calls
    cases calls
    refine ⟨⟨[⟨.leave name, ()⟩], .call (.done _)⟩, fun path result run => ?_⟩
    obtain ⟨reply, others, rfl, last⟩ := runs_call.mp run
    obtain ⟨rfl, rfl⟩ := runs_done.mp last
    exact ⟨rfl, rfl⟩
  | loading left =>
    cases left with
    | call inner more => cases calls
    | done result => cases result <;> cases calls
  | joining | leaving | ended => cases calls

end Stages

/-! ### Places in the queues -/

/-- A process that has its turn is at the front; one that has not stands in the queue only while it
waits for it. -/
def Stands (gates : Gates) (number : Nat) (name : String)
    (rest : Process (Cached I) (Except ε String)) : Place → Prop
  | .outside => number ∈ gates.queue name →
      ∃ next, rest = .call (I := Cached I) (.enter name) next
  | .inside => gates.IsFront name number

/-- Every process is where its stage says. The queue of a name holds processes of that name that
were not abandoned, each of them once, and its gate is in the table without any only if one was
abandoned. -/
structure Lined (gates : Gates) (tasks : Nat → Option (Task I ε)) : Prop where
  sound : gates.Sound
  stages : ∀ number task rest, tasks number = some task → task.rest = some rest →
    ∃ place, Stage task.asked task.load rest place ∧ Stands gates number task.asked rest place
  members : ∀ name number, number ∈ gates.queue name →
    ∃ task rest, tasks number = some task ∧ task.asked = name ∧ task.rest = some rest
  once : ∀ name, (gates.queue name).Nodup
  held : ∀ name, name ∈ gates.names → gates.queue name ≠ [] ∨
    ∃ number task, tasks number = some task ∧ task.asked = name ∧ task.rest = none

section Lined

variable {gates later : Gates} {tasks : Nat → Option (Task I ε)} {number : Nat}
  {task : Task I ε}

/-- What others do to the gates leaves the place of a process alone: it keeps the front while it
has it, and does not come to stand where it did not. -/
theorem Stands.spared {name : String} {rest : Process (Cached I) (Except ε String)} {place : Place}
    (stands : Stands gates number name rest place)
    (front : gates.IsFront name number → later.IsFront name number)
    (members : number ∈ later.queue name → number ∈ gates.queue name) :
    Stands later number name rest place := by
  cases place with
  | outside => exact fun member => stands (members member)
  | inside => exact front stands

theorem ne_of_free {other : Nat} (free : tasks number = none) (there : tasks other = some task) :
    other ≠ number := by
  rintro rfl
  cases free.symm.trans there

/-- The number of a process that starts stands nowhere yet. -/
theorem Lined.started (lined : Lined gates tasks) (free : tasks number = none) (name : String)
    (load : Process I (Except ε String)) :
    Lined gates (Function.update tasks number
      (some ⟨name, load, [], some (getOrLoad name load)⟩)) where
  sound := lined.sound
  stages other found rest present left := by
    rcases of_update present with ⟨rfl, new⟩ | ⟨_, old⟩
    · obtain rfl := Option.some.inj new
      obtain rfl := Option.some.inj left
      refine ⟨.outside, .starting, fun member => ?_⟩
      obtain ⟨_, _, there, _⟩ := lined.members _ _ member
      exact absurd rfl (ne_of_free free there)
    · exact lined.stages other found rest old left
  members key other member := by
    obtain ⟨found, rest, there, facts⟩ := lined.members key other member
    exact ⟨found, rest, (Function.update_of_ne (ne_of_free free there) _ _).trans there, facts⟩
  once := lined.once
  held key present := by
    refine (lined.held key present).imp_right ?_
    rintro ⟨other, found, there, facts⟩
    exact ⟨other, found, (Function.update_of_ne (ne_of_free free there) _ _).trans there, facts⟩

/-- A process joins the end of the queue of its own name. -/
theorem Lined.arrived (lined : Lined gates tasks) {name : String}
    {next : (Cached I).Reply (.enter name) → Process (Cached I) (Except ε String)}
    (present : tasks number = some task)
    (calls : task.rest = some (.call (I := Cached I) (.enter name) next))
    (new : gates.held? name number = none) : Lined (gates.enter name number) tasks := by
  rw [Gates.held?_eq_none] at new
  obtain ⟨place, stage, _⟩ := lined.stages number task _ present calls
  obtain ⟨rfl, rfl⟩ := (stage.step rfl).1
  refine ⟨lined.sound.enter, fun other found rest there left => ?_, fun key other member => ?_,
    fun key => ?_, fun key member => ?_⟩
  · by_cases same : other = number
    · subst same
      obtain rfl := Option.some.inj (present.symm.trans there)
      obtain rfl := Option.some.inj (calls.symm.trans left)
      exact ⟨.outside, stage, fun _ => ⟨next, rfl⟩⟩
    · obtain ⟨place, stage, stands⟩ := lined.stages other found rest there left
      exact ⟨place, stage, stands.spared Gates.isFront_enter fun member =>
        (Gates.mem_queue_enter.mp member).resolve_right fun last => same last.2⟩
  · rcases Gates.mem_queue_enter.mp member with old | ⟨equal, rfl⟩
    · exact lined.members key other old
    · exact ⟨task, _, present, equal, calls⟩
  · rw [Gates.queue_enter]
    split
    · refine List.nodup_append.mpr ⟨lined.once task.asked, List.pairwise_singleton _ _, ?_⟩
      rintro other member _ last rfl
      exact new (List.mem_singleton.mp last ▸ member)
    · exact lined.once key
  · by_cases equal : task.asked = key
    · exact .inl (List.ne_nil_of_mem (Gates.mem_queue_enter.mpr (.inr ⟨equal, rfl⟩)))
    · rw [Gates.queue_enter, if_neg equal]
      exact lined.held key ((Gates.mem_names_enter.mp member).resolve_left
        fun same => equal same.symm)

/-- A process goes on from a call by which no queue grows. All others keep their places, and a queue
is empty in the table afterwards only if it was so before. -/
theorem Lined.goes (lined : Lined gates tasks) {request : CachedCall I.Call}
    {next : (Cached I).Reply request → Process (Cached I) (Except ε String)}
    (present : tasks number = some task)
    (calls : task.rest = some (.call (I := Cached I) request next))
    (reply : (Cached I).Reply request) (sound : later.Sound)
    (sublist : ∀ name, (later.queue name).Sublist (gates.queue name))
    (fronts : ∀ name other, other ≠ number → gates.IsFront name other → later.IsFront name other)
    (own : ∀ place, Suits task.asked place request →
      Stands gates number task.asked (.call (I := Cached I) request next) place →
      Stands later number task.asked (next reply) (placeAfter place request))
    (table : ∀ name, name ∈ later.names → name ∈ gates.names ∧
      (later.queue name = [] → gates.queue name = [])) :
    Lined later (Function.update tasks number
      (some { task with made := task.made ++ [⟨request, reply⟩], rest := some (next reply) })) where
  sound := sound
  stages other found rest there left := by
    rcases of_update there with ⟨rfl, new⟩ | ⟨different, old⟩
    · obtain rfl := Option.some.inj new
      obtain rfl := Option.some.inj left
      obtain ⟨place, stage, stands⟩ := lined.stages _ task _ present calls
      obtain ⟨suits, onwards⟩ := stage.step rfl
      exact ⟨placeAfter place request, onwards reply, own place suits stands⟩
    · obtain ⟨place, stage, stands⟩ := lined.stages other found rest old left
      exact ⟨place, stage, stands.spared (fronts _ _ different)
        fun member => (sublist _).subset member⟩
  members name other member := by
    obtain ⟨found, rest, there, asked, left⟩ := lined.members name other
      ((sublist name).subset member)
    by_cases same : other = number
    · subst same
      obtain rfl := Option.some.inj (present.symm.trans there)
      exact ⟨_, _, Function.update_self _ _ _, asked, rfl⟩
    · exact ⟨found, rest, (Function.update_of_ne same _ _).trans there, asked, left⟩
  once name := (lined.once name).sublist (sublist name)
  held name member := by
    obtain ⟨before, empty⟩ := table name member
    refine (lined.held name before).imp (fun peopled left => peopled (empty left)) ?_
    rintro ⟨other, found, there, asked, gone⟩
    have different : other ≠ number := by
      rintro rfl
      obtain rfl := Option.some.inj (present.symm.trans there)
      rw [calls] at gone
      cases gone
    exact ⟨other, found, (Function.update_of_ne different _ _).trans there, asked, gone⟩

/-- Calls that leave the gates alone do so whatever they are answered. -/
theorem Lined.aside (lined : Lined gates tasks) {request : CachedCall I.Call}
    {next : (Cached I).Reply request → Process (Cached I) (Except ε String)}
    (present : tasks number = some task)
    (calls : task.rest = some (.call (I := Cached I) request next))
    (reply : (Cached I).Reply request)
    (own : ∀ place, Suits task.asked place request →
      Stands gates number task.asked (.call (I := Cached I) request next) place →
      Stands gates number task.asked (next reply) (placeAfter place request)) :
    Lined gates (Function.update tasks number
      (some { task with made := task.made ++ [⟨request, reply⟩], rest := some (next reply) })) :=
  lined.goes present calls reply lined.sound (fun _ => .refl _) (fun _ _ _ front => front) own
    fun _ member => ⟨member, id⟩

theorem Lined.answered (lined : Lined gates tasks) {clock : Instant} {before after : Memory}
    {events : List Event} {request : CachedCall I.Call} {reply : (Cached I).Reply request}
    {next : (Cached I).Reply request → Process (Cached I) (Except ε String)}
    (same : before.gates = gates)
    (answers : Answers clock number request reply before after events)
    (present : tasks number = some task)
    (calls : task.rest = some (.call (I := Cached I) request next)) :
    Lined after.gates (Function.update tasks number
      (some { task with made := task.made ++ [⟨request, reply⟩], rest := some (next reply) })) := by
  subst same
  cases answers with
  | looked _ reading name =>
    refine lined.aside present calls _ fun place _ stands => ?_
    cases place with
    | outside =>
      -- Whoever looks does not stand in the queue yet.
      intro member
      obtain ⟨_, equal⟩ := stands member
      cases equal
    | inside => exact stands
  | stored =>
    refine lined.aside present calls _ fun place suits stands => ?_
    obtain ⟨_, rfl⟩ := suits
    exact stands
  | entered _ name turn =>
    refine lined.aside present calls _ fun place suits _ => ?_
    obtain ⟨rfl, _⟩ := suits
    exact lined.sound.hasTurn_iff.mp turn
  | loaded =>
    refine lined.aside present calls _ fun place suits stands => ?_
    obtain rfl : place = .inside := suits
    exact stands
  | left _ name =>
    obtain ⟨_, stage, front⟩ := lined.stages number task _ present calls
    obtain ⟨rfl, rfl⟩ := (stage.step rfl).1
    have own : number ∈ before.gates.queue task.asked := List.mem_of_head? front
    have queue (key : String) : (before.gates.leave task.asked number).queue key =
        if task.asked = key then (before.gates.queue task.asked).filter (· != number)
        else before.gates.queue key := Gates.queue_leave
    refine lined.goes present calls _ lined.sound.leave (fun key => ?_) (fun _ _ different front =>
      Gates.isFront_leave front different) (fun _ _ _ member => ?_) fun key member => ?_
    · show ((before.gates.leave task.asked number).queue key).Sublist _
      rw [queue]
      split
      · rename_i equal
        exact equal ▸ List.filter_sublist
      · exact .refl _
    · change number ∈ (before.gates.leave task.asked number).queue task.asked at member
      rw [queue, if_pos rfl] at member
      exact absurd rfl (bne_iff_ne.mp (List.mem_filter.mp member).2)
    · -- Whoever leaves last takes the gate out of the table.
      obtain ⟨there, others⟩ := (lined.sound.mem_names_leave own).mp member
      refine ⟨there, fun empty => ?_⟩
      change (before.gates.leave task.asked number).queue key = [] at empty
      rw [queue] at empty
      split at empty
      · rename_i equal
        refine absurd ((Gates.queue_eq_singleton_iff (lined.once _) own).mpr fun other there => ?_)
          (others equal.symm)
        by_contra different
        exact List.filter_eq_nil_iff.mp empty other there (bne_iff_ne.mpr different)
      · exact empty

/-- A process that is abandoned stands in no queue, and may leave its own empty in the table. -/
theorem Lined.abandoned (lined : Lined gates tasks) (present : tasks number = some task) :
    Lined (gates.abandon number)
      (Function.update tasks number (some { task with rest := none })) where
  sound := lined.sound.abandon
  stages other found rest there left := by
    rcases of_update there with ⟨_, new⟩ | ⟨different, old⟩
    · obtain rfl := Option.some.inj new
      cases left
    · obtain ⟨place, stage, stands⟩ := lined.stages other found rest old left
      refine ⟨place, stage, stands.spared (fun front => Gates.isFront_abandon front different)
        fun member => ?_⟩
      rw [Gates.queue_abandon] at member
      exact (List.mem_filter.mp member).1
  members name other member := by
    rw [Gates.queue_abandon] at member
    obtain ⟨there, different⟩ := List.mem_filter.mp member
    obtain ⟨found, rest, old, facts⟩ := lined.members name other there
    exact ⟨found, rest, (Function.update_of_ne (bne_iff_ne.mp different) _ _).trans old, facts⟩
  once name := by
    rw [Gates.queue_abandon]
    exact (lined.once name).filter _
  held name member := by
    change name ∈ gates.names at member
    rw [Gates.queue_abandon]
    by_cases stood : number ∈ gates.queue name
    · obtain ⟨found, _, there, asked, _⟩ := lined.members name number stood
      obtain rfl := Option.some.inj (present.symm.trans there)
      exact .inr ⟨number, _, Function.update_self _ _ _, asked, rfl⟩
    · have whole : (gates.queue name).filter (· != number) = gates.queue name :=
        List.filter_eq_self.mpr fun other there => bne_iff_ne.mpr fun same => stood (same ▸ there)
      rw [whole]
      refine (lined.held name member).imp_right ?_
      · rintro ⟨other, found, there, asked, gone⟩
        by_cases same : other = number
        · subst same
          obtain rfl := Option.some.inj (present.symm.trans there)
          exact ⟨other, _, Function.update_self _ _ _, asked, rfl⟩
        · exact ⟨other, found, (Function.update_of_ne same _ _).trans there, asked, gone⟩

end Lined

/-! ### Before and after a turn -/

/-- What is left of a process goes with its last call. One that was let in is at the beginning of
its turn; one that leaves with an id was told that id, or has stored it. -/
structure Prompt (task : Task I ε) (rest : Process (Cached I) (Except ε String)) : Prop where
  looks : ∀ name, task.made.getLast? = some ⟨.enter name, ()⟩ →
    name = task.asked ∧ rest = (loadInTurn task.asked task.load).bind (depart task.asked)
  keeps : ∀ key next id, rest = .call (I := Cached I) (.leave key) next →
    next () = .done (.ok id) → task.made.getLast? = some ⟨.lookup task.asked, some id⟩ ∨
      task.made.getLast? = some ⟨.store task.asked id, ()⟩

/-- So it is with every process that was not abandoned. -/
def AllPrompt (tasks : Nat → Option (Task I ε)) : Prop :=
  ∀ number task rest, tasks number = some task → task.rest = some rest → Prompt task rest

/-- From its loader a process comes to leave with an id only by storing it first. -/
theorem not_departs_loading {name key : String} {left : Process I (Except ε String)}
    {next : (Cached I).Reply (.leave key) → Process (Cached I) (Except ε String)} {id : String}
    (leaves : ((left.embed (loading I)).bind (remember name)).bind (depart name) =
      .call (I := Cached I) (.leave key) next) : next () ≠ .done (.ok id) := by
  cases left with
  | call => cases leaves
  | done result =>
    cases result with
    | ok => cases leaves
    | error =>
      cases leaves
      rintro ⟨⟩

theorem Stage.prompt {name : String} {load : Process I (Except ε String)}
    {rest : Process (Cached I) (Except ε String)} {place : Place} {request : CachedCall I.Call}
    {next : (Cached I).Reply request → Process (Cached I) (Except ε String)}
    (stage : Stage name load rest place) (calls : rest = .call (I := Cached I) request next)
    (reply : (Cached I).Reply request) (made : List (Exchange (Cached I))) :
    Prompt ⟨name, load, made ++ [⟨request, reply⟩], some (next reply)⟩ (next reply) where
  looks key last := by
    rw [List.getLast?_concat] at last
    cases last
    exact stage.entered calls ()
  keeps key more id leaves ends := by
    rw [List.getLast?_concat]
    cases stage with
    | starting =>
      rw [getOrLoad_eq] at calls
      cases calls
      change Option String at reply
      cases reply <;> cases leaves
    | joining =>
      cases calls
      rw [loadInTurn_eq] at leaves
      cases leaves
    | looking =>
      rw [loadInTurn_eq] at calls
      cases calls
      change Option String at reply
      cases reply with
      | some found =>
        cases leaves
        cases ends
        exact .inl rfl
      | none => exact absurd ends (not_departs_loading leaves)
    | loading left =>
      cases left with
      | call inner further =>
        cases calls
        exact absurd ends (not_departs_loading leaves)
      | done result =>
        cases result with
        | ok found =>
          cases calls
          cases leaves
          cases ends
          exact .inr rfl
        | error =>
          cases calls
          cases leaves
    | leaving =>
      cases calls
      cases leaves
    | ended => cases calls

section AllPrompt

variable {gates : Gates} {tasks : Nat → Option (Task I ε)} {number : Nat} {task : Task I ε}

theorem AllPrompt.started (prompt : AllPrompt tasks) (name : String)
    (load : Process I (Except ε String)) :
    AllPrompt (Function.update tasks number
      (some ⟨name, load, [], some (getOrLoad name load)⟩)) := by
  intro other found rest there left
  rcases of_update there with ⟨_, new⟩ | ⟨_, old⟩
  · obtain rfl := Option.some.inj new
    obtain rfl := Option.some.inj left
    refine ⟨nofun, fun key next id leaves _ => ?_⟩
    rw [getOrLoad_eq] at leaves
    cases leaves
  · exact prompt other found rest old left

theorem AllPrompt.answered (prompt : AllPrompt tasks) (lined : Lined gates tasks)
    {request : CachedCall I.Call}
    {next : (Cached I).Reply request → Process (Cached I) (Except ε String)}
    (present : tasks number = some task)
    (calls : task.rest = some (.call (I := Cached I) request next))
    (reply : (Cached I).Reply request) :
    AllPrompt (Function.update tasks number
      (some { task with made := task.made ++ [⟨request, reply⟩], rest := some (next reply) })) := by
  intro other found rest there left
  rcases of_update there with ⟨_, new⟩ | ⟨_, old⟩
  · obtain rfl := Option.some.inj new
    obtain rfl := Option.some.inj left
    obtain ⟨place, stage, _⟩ := lined.stages number task _ present calls
    exact stage.prompt rfl reply task.made
  · exact prompt other found rest old left

theorem AllPrompt.abandoned (prompt : AllPrompt tasks) :
    AllPrompt (Function.update tasks number (some { task with rest := none })) := by
  intro other found rest there left
  rcases of_update there with ⟨_, new⟩ | ⟨_, old⟩
  · obtain rfl := Option.some.inj new
    cases left
  · exact prompt other found rest old left

end AllPrompt

/-! ### What is remembered -/

/-- The time from which on a look forgets all ids, as the looks so far have fixed it. -/
def fixed? (horizon : Int) : List Event → Option Instant
  | [] => none
  | .looked reading _ _ :: earlier =>
    if (fixed? horizon earlier).all (Instant.le · reading) then some (reading.addMillis horizon)
    else fixed? horizon earlier
  | .stored _ _ _ _ :: earlier => fixed? horizon earlier

/-- A look at this reading of the clock forgets all ids: no time is fixed, or it has come. -/
def Forgets (horizon : Int) (reading : Instant) (earlier : List Event) : Prop :=
  (fixed? horizon earlier).all (Instant.le · reading) = true

instance (horizon : Int) (reading : Instant) (earlier : List Event) :
    Decidable (Forgets horizon reading earlier) :=
  inferInstanceAs (Decidable (_ = true))

/-- The id that was stored last for a name since all ids were forgotten. -/
def storedSince (horizon : Int) (name : String) : List Event → Option String
  | [] => none
  | .stored _ _ key id :: earlier =>
    if key = name then some id else storedSince horizon name earlier
  | .looked reading _ _ :: earlier =>
    if Forgets horizon reading earlier then none else storedSince horizon name earlier

/-- The memory is what its log says it is. -/
structure Logged (memory : Memory) (log : List Event) : Prop where
  expiry : memory.cache.expiry = fixed? memory.horizon log
  found : ∀ name, memory.cache.get? name = storedSince memory.horizon name log

section Logged

variable {memory : Memory} {log : List Event}

theorem Logged.stored (logged : Logged memory log) (time : Instant) (maker : Option Nat)
    (name id : String) : Logged (memory.store name id) (.stored time maker name id :: log) where
  expiry := logged.expiry
  found other := by
    show (memory.cache.store name id).get? other = _
    rw [get?_store, storedSince, logged.found other]
    rfl

/-- A look either forgets all ids and fixes the time anew, or changes nothing. -/
theorem Logged.renew_eq (logged : Logged memory log) (reading : Instant) :
    memory.cache.renew memory.horizon reading =
      if Forgets memory.horizon reading log then ⟨[], some (reading.addMillis memory.horizon)⟩
      else memory.cache := by
  have forgets : Forgets memory.horizon reading log ↔
      memory.cache.expiry.all (Instant.le · reading) = true := by
    rw [logged.expiry]
    exact Iff.rfl
  unfold Cache.renew
  cases fixed : memory.cache.expiry with
  | none =>
    rw [fixed] at forgets
    exact (if_pos (forgets.mpr rfl)).symm
  | some time =>
    rw [fixed] at forgets
    exact (if_congr forgets rfl rfl).symm

/-- What a look finds is what was stored since all ids were forgotten, this look included. -/
theorem Logged.lookup_eq (logged : Logged memory log) (reading : Instant) (name : String) :
    (memory.lookup reading name).1 =
      if Forgets memory.horizon reading log then none
      else storedSince memory.horizon name log := by
  show (memory.cache.renew memory.horizon reading).get? name = _
  rw [logged.renew_eq]
  split
  · rfl
  · exact logged.found name

theorem Logged.looked (logged : Logged memory log) (reading : Instant) (name : String)
    (found : Option String) :
    Logged (memory.lookup reading name).2 (.looked reading name found :: log) := by
  by_cases forgets : Forgets memory.horizon reading log
  · refine ⟨?_, fun other => ?_⟩
    · show (memory.cache.renew memory.horizon reading).expiry = _
      rw [logged.renew_eq, if_pos forgets]
      exact (if_pos forgets).symm
    · show (memory.cache.renew memory.horizon reading).get? other = _
      rw [logged.renew_eq, if_pos forgets]
      exact (if_pos forgets).symm
  · refine ⟨?_, fun other => ?_⟩
    · show (memory.cache.renew memory.horizon reading).expiry = _
      rw [logged.renew_eq, if_neg forgets]
      exact logged.expiry.trans (if_neg forgets).symm
    · show (memory.cache.renew memory.horizon reading).get? other = _
      rw [logged.renew_eq, if_neg forgets]
      exact (logged.found other).trans (if_neg forgets).symm

end Logged

/-! ### All that can happen -/

/-- The processes stand in line, look when they are let in and store what they found, and the memory
is what its log says. -/
structure Filed (horizon : Int) (scene : Scene I ε) : Prop where
  horizon : scene.memory.horizon = horizon
  lined : Lined scene.memory.gates scene.tasks
  prompt : AllPrompt scene.tasks
  logged : Logged scene.memory scene.log

/-- The loader of the process is running. -/
def Task.IsLoading (task : Task I ε) : Prop :=
  ∃ request next, task.rest = some (.call (I := Cached I) (.load request) next)

/-- The process has neither ended nor been abandoned. -/
def Task.IsUnderWay (task : Task I ε) : Prop :=
  ∃ request next, task.rest = some (.call (I := Cached I) request next)

/-- The next call of a process is up to its loader, is answered as soon as it is made, or goes to a
gate. -/
inductive Moves (scene : Scene I ε) (number : Nat) : CachedCall I.Call → Prop
  | loads (request : I.Call) : Moves scene number (.load request)
  | answered {request : CachedCall I.Call} {reply : (Cached I).Reply request} {after : Memory}
      {events : List Event}
      (answers : Answers scene.clock number request reply scene.memory after events) :
    Moves scene number request
  | joins (name : String) (new : scene.memory.gates.held? name number = none) :
    Moves scene number (.enter name)

/-- The process stands in the line before a gate behind another that has its turn there, was asked
for the name and is under way. -/
def Waits (scene : Scene I ε) (number : Nat) (name : String) : Prop :=
  ∃ gate, scene.memory.gates.held? name number = some gate ∧ ∃ other task, other ≠ number ∧
    (scene.memory.gates.line gate).head? = some other ∧ scene.tasks other = some task ∧
      task.asked = name ∧ task.IsUnderWay

section Lined

variable {gates : Gates} {tasks : Nat → Option (Task I ε)} {number : Nat} {task : Task I ε}

/-- A process that makes a call in its turn is at the front of the queue of its name. -/
theorem Lined.isFront (lined : Lined gates tasks) {request : CachedCall I.Call}
    {next : (Cached I).Reply request → Process (Cached I) (Except ε String)}
    (present : tasks number = some task)
    (calls : task.rest = some (.call (I := Cached I) request next))
    (inside : ∀ place, Suits task.asked place request → place = .inside) :
    gates.IsFront task.asked number := by
  obtain ⟨place, stage, stands⟩ := lined.stages number task _ present calls
  obtain rfl := inside place (stage.step rfl).1
  exact stands

/-- A process that stands in a queue is under way, and the queue is that of its name. -/
theorem Lined.underWay (lined : Lined gates tasks) {name : String}
    (member : number ∈ gates.queue name) :
    ∃ task, tasks number = some task ∧ task.asked = name ∧ task.IsUnderWay := by
  obtain ⟨task, rest, present, rfl, left⟩ := lined.members name number member
  obtain ⟨place, stage, stands⟩ := lined.stages number task rest present left
  refine ⟨task, present, rfl, ?_⟩
  cases place with
  | outside =>
    obtain ⟨next, rfl⟩ := stands member
    exact ⟨_, next, left⟩
  | inside =>
    obtain ⟨request, next, rfl⟩ := stage.exists_call
    exact ⟨request, next, left⟩

/-- Whoever stands in a queue is the first, or stands behind the first. -/
theorem Lined.front (lined : Lined gates tasks) {name : String}
    (member : number ∈ gates.queue name) : gates.IsFront name number ∨
    ∃ other task, other ≠ number ∧ gates.IsFront name other ∧ tasks other = some task ∧
      task.asked = name ∧ task.IsUnderWay := by
  obtain ⟨other, rest, whole⟩ := List.exists_cons_of_ne_nil (List.ne_nil_of_mem member)
  have front : gates.IsFront name other := by
    rw [Gates.IsFront, whole, List.head?_cons]
  by_cases same : other = number
  · exact .inl (same ▸ front)
  · obtain ⟨task, facts⟩ := lined.underWay (whole ▸ List.mem_cons_self : other ∈ gates.queue name)
    exact .inr ⟨other, task, same, front, facts⟩

end Lined

section Filed

variable {horizon : Int} {scene : Scene I ε}

theorem Filed.alone (filed : Filed horizon scene) {first second : Nat} {task other : Task I ε}
    (present : scene.tasks first = some task) (there : scene.tasks second = some other)
    (loading : task.IsLoading) (also : other.IsLoading) (same : task.asked = other.asked) :
    first = second := by
  obtain ⟨_, _, calls⟩ := loading
  obtain ⟨_, _, called⟩ := also
  have front := filed.lined.isFront present calls fun _ inside => inside
  have before := filed.lined.isFront there called fun _ inside => inside
  exact Gates.eq_of_isFront front (same ▸ before)

theorem Filed.looks (filed : Filed horizon scene) {number : Nat} {task : Task I ε}
    {rest : Process (Cached I) (Except ε String)} {name : String}
    (present : scene.tasks number = some task) (left : task.rest = some rest)
    (last : task.made.getLast? = some ⟨.enter name, ()⟩) :
    name = task.asked ∧ ∃ next, rest = .call (I := Cached I) (.lookup name) next := by
  obtain ⟨rfl, rfl⟩ := (filed.prompt number task rest present left).looks name last
  rw [loadInTurn_eq]
  exact ⟨rfl, _, rfl⟩

theorem Filed.spared (filed : Filed horizon scene) {number : Nat} {task : Task I ε} {key : String}
    {next : (Cached I).Reply (.lookup key) → Process (Cached I) (Except ε String)}
    {reading : Instant} {id : String} (present : scene.tasks number = some task)
    (calls : task.rest = some (.call (I := Cached I) (.lookup key) next))
    (kept : ¬Forgets horizon reading scene.log)
    (stored : storedSince horizon task.asked scene.log = some id) :
    (scene.memory.lookup reading key).1 = some id ∧ Returns (next (some id)) id := by
  obtain ⟨place, stage, _⟩ := filed.lined.stages number task _ present calls
  obtain rfl : key = task.asked := (stage.step rfl).1
  obtain rfl := filed.horizon
  refine ⟨?_, stage.found rfl id⟩
  rw [filed.logged.lookup_eq, if_neg kept, stored]

/-- Whoever stands in a queue stands in the line before the gate of its name. -/
theorem Filed.waiting (filed : Filed horizon scene) {number : Nat} {name : String}
    {gate : Gate} (held : scene.memory.gates.held? name number = some gate) :
    scene.memory.gates.hasTurn name number = true ∨ Waits scene number name := by
  have sound := filed.lined.sound
  refine (filed.lined.front (Gates.mem_queue_of_held? held)).imp sound.hasTurn_iff.mpr ?_
  rintro ⟨other, task, different, front, facts⟩
  refine ⟨gate, held, other, task, different, ?_, facts⟩
  rw [sound.line_eq (Gates.mem_of_gate? (sound.gate?_of_held? held))]
  exact front

theorem Filed.waits (filed : Filed horizon scene) (regular : scene.clock.Regular) {number : Nat}
    {task : Task I ε} {request : CachedCall I.Call}
    {next : (Cached I).Reply request → Process (Cached I) (Except ε String)}
    (present : scene.tasks number = some task)
    (calls : task.rest = some (.call (I := Cached I) request next)) :
    Moves scene number request ∨ Waits scene number task.asked := by
  cases request with
  | lookup name =>
    exact .inl (.answered (.looked scene.memory scene.clock name regular (Instant.le_refl _)))
  | store name id => exact .inl (.answered (.stored scene.memory name id))
  | leave name => exact .inl (.answered (.left scene.memory name))
  | load request => exact .inl (.loads request)
  | enter name =>
    obtain ⟨place, stage, _⟩ := filed.lined.stages number task _ present calls
    obtain ⟨rfl, _⟩ := (stage.step rfl).1
    cases held : scene.memory.gates.held? task.asked number with
    | none => exact .inl (.joins task.asked held)
    | some gate => exact (filed.waiting held).imp_left fun turn => .answered (.entered _ _ turn)

theorem Filed.current (filed : Filed horizon scene) {number : Nat} {name : String} {gate : Gate}
    (held : scene.memory.gates.held? name number = some gate) :
    scene.memory.gates.gate? name = some gate ∧
      ∃ task, scene.tasks number = some task ∧ task.asked = name ∧ task.IsUnderWay :=
  ⟨filed.lined.sound.gate?_of_held? held, filed.lined.underWay (Gates.mem_queue_of_held? held)⟩

/-- A process that leaves holds the gate of its name. -/
theorem Filed.leaving (filed : Filed horizon scene) {number : Nat} {task : Task I ε} {key : String}
    {next : (Cached I).Reply (.leave key) → Process (Cached I) (Except ε String)}
    (present : scene.tasks number = some task)
    (calls : task.rest = some (.call (I := Cached I) (.leave key) next)) :
    key = task.asked ∧ ∃ gate, scene.memory.gates.held? task.asked number = some gate := by
  obtain ⟨place, stage, _⟩ := filed.lined.stages number task _ present calls
  obtain ⟨rfl, _⟩ := (stage.step rfl).1
  have member := List.mem_of_head? (filed.lined.isFront present calls fun _ suits => suits.2)
  cases held : scene.memory.gates.held? task.asked number with
  | none => exact absurd member (Gates.held?_eq_none.mp held)
  | some gate => exact ⟨rfl, gate, rfl⟩

theorem Filed.passes (filed : Filed horizon scene) {number other : Nat} {task : Task I ε}
    {key : String} {next : (Cached I).Reply (.leave key) → Process (Cached I) (Except ε String)}
    (present : scene.tasks number = some task)
    (calls : task.rest = some (.call (I := Cached I) (.leave key) next)) :
    scene.memory.gates.successor? key number = some other ↔
      (scene.memory.leave key number).gates.hasTurn key other = true := by
  obtain ⟨rfl, gate, held⟩ := filed.leaving present calls
  exact filed.lined.sound.successor?_iff held

theorem Filed.held (filed : Filed horizon scene) {name : String}
    (member : name ∈ scene.memory.gates.names) : ∃ number task,
      scene.tasks number = some task ∧ task.asked = name ∧
        (task.IsUnderWay ∨ task.rest = none) := by
  rcases filed.lined.held name member with peopled | ⟨number, task, present, asked, gone⟩
  · obtain ⟨number, stands⟩ := List.exists_mem_of_ne_nil _ peopled
    obtain ⟨task, present, asked, underWay⟩ := filed.lined.underWay stands
    exact ⟨number, task, present, asked, .inl underWay⟩
  · exact ⟨number, task, present, asked, .inr gone⟩

end Filed

end Sharing

end Zonecast.Directory
