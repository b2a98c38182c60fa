/-
Zones are created once, however many processes resolve names at once, whatever the clock shows,
whichever calls fail and whoever is abandoned. Ids may be remembered for any time, even for none.

What carries the proof is that at most one process is the first in the queue of a name. While it
is, no zone of that name is created but by itself, so what it knows from its list stays true until
it creates the zone. Forgetting ids does no harm: whoever has the next turn lists the zones again.
-/
import Zonecast.Proofs.GateQueues
import Zonecast.Proofs.StoredZones

namespace Zonecast.Directory

open Process Zone Upkeep
open Rehearsal (World)

/-! ### What a call makes of the zones -/

section Handling

variable {zones after : List Entry} {request : Backend.Call} {value : Backend.Value request}

theorem subset_of_handles (handles : Handles zones request value after) : zones ⊆ after := by
  cases handles with
  | created => exact List.subset_cons_self _ _
  | _ => exact List.Subset.refl _

/-- A zone that was not there before has the name that was asked for. -/
theorem mem_of_handles (handles : Handles zones request value after) {entry : Entry}
    (member : entry ∈ after) : entry ∈ zones ∨
      ∃ creation, request = .createZone creation ∧
        Name.bare entry.name = Name.bare creation.name := by
  cases handles with
  | created creation zone named =>
    rcases List.mem_cons.mp member with rfl | old
    · exact .inr ⟨creation, rfl, named⟩
    · exact .inl old
  | _ => exact .inl member

/-- A zone that is created is there. -/
theorem there_of_handles (handles : Handles zones request value after) {name : String}
    (member : name ∈ namesCreated request) :
    ∃ entry ∈ after, Name.bare entry.name = Name.bare name := by
  cases handles with
  | created creation zone named =>
    obtain rfl := List.mem_singleton.mp member
    exact ⟨_, List.mem_cons_self, named⟩
  | listed => cases member
  | read => cases member
  | aside request value apart =>
    cases request with
    | createZone => cases apart
    | _ => cases member

end Handling

/-! ### Turns among others -/

/-- The last call of a process was for the list, and it held no zone of the name. -/
def Looked (asked : String) (made : List (Exchange (Cached Upkeep))) : Prop :=
  ∃ (earlier : List (Exchange (Cached Upkeep))) (zones : List Detail),
    made = earlier ++ [⟨.load (.backend .listZones), .ok zones⟩] ∧
      ∀ zone ∈ zones, Name.bare zone.name ≠ Name.bare asked

/-- How far a process has come with its turn is so. -/
def Grants (commons : Commons) (number : Nat) (asked : String)
    (made : List (Exchange (Cached Upkeep))) : Hold → Prop
  | .outside => True
  | .inside => commons.memory.gates.IsFront (Name.canonical asked) number
  | .absent => commons.memory.gates.IsFront (Name.canonical asked) number ∧
      (∀ entry ∈ commons.zones, Name.bare entry.name ≠ Name.bare asked) ∧ Looked asked made

/-- A process takes its turn in order. -/
def Orderly (commons : Commons) (number : Nat) (task : Task) : Prop :=
  ∃ hold, Careful (Name.canonical task.asked) task.rest hold commons.shown ∧
    Grants commons number task.asked task.made hold

/-- What is done leaves the turn of a process alone: it keeps the front while it has it, and no zone
of its name comes up meanwhile. -/
structure Spares (before after : Commons) (number : Nat) (asked : String) : Prop where
  shown : before.shown ⊆ after.shown
  front : before.memory.gates.IsFront (Name.canonical asked) number →
    after.memory.gates.IsFront (Name.canonical asked) number
  zones : before.memory.gates.IsFront (Name.canonical asked) number →
    ∀ entry ∈ after.zones, entry ∈ before.zones ∨ Name.bare entry.name ≠ Name.bare asked

theorem Orderly.spared {before after : Commons} {number : Nat} {task : Task}
    (orderly : Orderly before number task) (spares : Spares before after number task.asked) :
    Orderly after number task := by
  obtain ⟨hold, careful, grants⟩ := orderly
  refine ⟨hold, careful.later spares.shown, ?_⟩
  cases hold with
  | outside => trivial
  | inside => exact spares.front grants
  | absent =>
    obtain ⟨front, none, looked⟩ := grants
    refine ⟨spares.front front, fun entry member => ?_, looked⟩
    exact (spares.zones front entry member).elim (none entry) id

section Answering

variable {number : Nat} {request : CachedCall Upkeep.Call} {reply : (Cached Upkeep).Reply request}
  {before after : Commons}

theorem shown_subset (answers : Answers number request reply before after) :
    before.shown ⊆ after.shown := by
  cases answers with
  | served => exact List.subset_append_right _ _
  | _ => exact List.Subset.refl _

/-- A call of another process leaves a turn alone. It may create a zone only of the name whose front
it has. -/
theorem spares_of_answers (answers : Answers number request reply before after) {asked : String}
    {made : List (Exchange (Cached Upkeep))} {hold : Hold}
    (allowed : Allowed (Name.canonical asked) hold before.shown request)
    (grants : Grants before number asked made hold) {other : Nat} (different : other ≠ number)
    (wanted : String) : Spares before after other wanted := by
  have apart : ∀ {request : Backend.Call} {value : Backend.Value request} {zones : List Entry},
      Allowed (Name.canonical asked) hold before.shown (.load (.backend request)) →
      Handles before.zones request value zones →
      before.memory.gates.IsFront (Name.canonical wanted) other →
      ∀ entry ∈ zones, entry ∈ before.zones ∨ Name.bare entry.name ≠ Name.bare wanted := by
    intro request value zones allowed handles front entry member
    rcases mem_of_handles handles member with old | ⟨creation, rfl, named⟩
    · exact .inl old
    · -- Two processes would be at the front of one queue.
      refine .inr fun same => ?_
      obtain ⟨rfl, own⟩ := allowed
      have equal : Name.canonical asked = Name.canonical wanted := by
        refine Name.canonical_eq_of_bare_eq _ _ ?_
        rw [← same, named, own, Name.bare_canonical]
      exact different (Gates.eq_of_isFront front (equal ▸ grants.1))
  cases answers with
  | left => exact ⟨List.Subset.refl _, fun front => Gates.isFront_leave front different,
      fun _ _ member => .inl member⟩
  | served handles => exact ⟨List.subset_append_right _ _, id, apart allowed handles⟩
  | lost handles => exact ⟨List.Subset.refl _, id, apart allowed handles⟩
  | _ => exact ⟨List.Subset.refl _, id, fun _ _ member => .inl member⟩

theorem Grants.relaxed {asked : String} {made later : List (Exchange (Cached Upkeep))} {hold : Hold}
    (grants : Grants before number asked made hold)
    (front : before.memory.gates.IsFront (Name.canonical asked) number →
      after.memory.gates.IsFront (Name.canonical asked) number) :
    Grants after number asked later hold.relax := by
  cases hold with
  | outside => trivial
  | inside => exact front grants
  | absent => exact front grants.1

theorem holdAfter_error (name : String) (hold : Hold) (request : Backend.Call)
    (error : Backend.Error) :
    holdAfter name hold (.load (.backend request)) (.error error) = hold.relax := by
  cases request <;> rfl

/-- The process itself knows after its call how far it has come. -/
theorem grants_of_answers (answers : Answers number request reply before after)
    (sound : before.memory.gates.Sound) {asked : String}
    {made : List (Exchange (Cached Upkeep))} {hold : Hold}
    (allowed : Allowed (Name.canonical asked) hold before.shown request)
    (grants : Grants before number asked made hold) :
    Grants after number asked (made ++ [⟨request, reply⟩])
      (holdAfter (Name.canonical asked) hold request reply) := by
  cases answers with
  | entered _ name turn =>
    obtain rfl : name = Name.canonical asked := allowed
    exact sound.hasTurn_iff.mp turn
  | left => trivial
  | lost =>
    rw [holdAfter_error]
    exact grants.relaxed id
  | refused =>
    rw [holdAfter_error]
    exact grants.relaxed id
  | @served _ request value _ handles =>
    cases handles with
    | listed zones same =>
      -- Only a process at the front lists the zones, and the list is all that the backend holds.
      have front : before.memory.gates.IsFront (Name.canonical asked) number := by
        cases hold with
        | outside => exact absurd rfl allowed
        | inside => exact grants
        | absent => exact grants.1
      dsimp only [holdAfter]
      by_cases there : List.any zones fun zone =>
          Name.bare zone.name == Name.bare (Name.canonical asked)
      · rw [if_pos there]
        exact front
      · rw [if_neg there]
        have none : ∀ zone ∈ zones, Name.bare zone.name ≠ Name.bare asked := by
          intro zone member equal
          refine there (List.any_eq_true.mpr ⟨zone, member, beq_iff_eq.mpr ?_⟩)
          rw [equal, Name.bare_canonical]
        refine ⟨front, fun entry member => ?_, made, zones, rfl, none⟩
        obtain ⟨zone, listed, rfl⟩ := List.mem_map.mp (same.mem_iff.mpr member)
        exact none zone listed
    | read => exact grants.relaxed id
    | created => exact grants.relaxed id
    | aside _ _ apart =>
      have quiet : holdAfter (Name.canonical asked) hold (.load (.backend request)) (.ok value) =
          hold.relax := by
        cases request with
        | listZones => cases apart
        | _ => rfl
      rw [quiet]
      exact grants.relaxed id
  | _ => exact grants.relaxed id

/-! ### Accounts -/

/-- What is remembered was shown, and no two zones were created under one name. -/
structure Accounted (commons : Commons) : Prop where
  remembered : ∀ entry ∈ commons.memory.cache.entries, Shows commons.shown entry.1 entry.2
  once : (commons.created.map Name.bare).Nodup
  there : ∀ name ∈ commons.created, ∃ entry ∈ commons.zones, Name.bare entry.name = Name.bare name

theorem Accounted.remembers {commons : Commons} (accounted : Accounted commons) {memory : Memory}
    (remembered : ∀ entry ∈ memory.cache.entries, Shows commons.shown entry.1 entry.2) :
    Accounted { commons with memory } :=
  ⟨remembered, accounted.once, accounted.there⟩

/-- A process creates a zone only of a name of which there is none, so none was created before. -/
theorem Accounted.handled {commons : Commons} (accounted : Accounted commons)
    (more : List Entry) {request : Backend.Call} {value : Backend.Value request}
    {zones : List Entry} (handles : Handles commons.zones request value zones) {asked : String}
    {made : List (Exchange (Cached Upkeep))} {hold : Hold}
    (allowed : Allowed (Name.canonical asked) hold commons.shown (.load (.backend request)))
    (grants : Grants commons number asked made hold) :
    Accounted { commons with
      zones
      shown := more ++ commons.shown
      created := namesCreated request ++ commons.created } := by
  have there : ∀ name ∈ namesCreated request ++ commons.created,
      ∃ entry ∈ zones, Name.bare entry.name = Name.bare name := by
    intro name member
    rcases List.mem_append.mp member with new | old
    · exact there_of_handles handles new
    · obtain ⟨entry, present, named⟩ := accounted.there name old
      exact ⟨entry, subset_of_handles handles present, named⟩
  refine ⟨fun entry member => (accounted.remembered entry member).later
    (List.subset_append_right _ _), ?_, there⟩
  cases request with
  | createZone creation =>
    obtain ⟨rfl, own⟩ := allowed
    obtain ⟨_, none, _⟩ := grants
    -- A zone that was created before under the name would still be there.
    refine List.nodup_cons.mpr ⟨fun before => ?_, accounted.once⟩
    obtain ⟨name, member, same⟩ := List.mem_map.mp before
    obtain ⟨entry, present, named⟩ := accounted.there name member
    refine none entry present ?_
    rw [named, same, own, Name.bare_canonical]
  | _ => exact accounted.once

theorem accounted_of_answers (answers : Answers number request reply before after)
    {asked : String} {made : List (Exchange (Cached Upkeep))} {hold : Hold}
    (accounted : Accounted before)
    (allowed : Allowed (Name.canonical asked) hold before.shown request)
    (grants : Grants before number asked made hold) : Accounted after := by
  cases answers with
  | looked => exact accounted.remembers fun entry member =>
      accounted.remembered entry (entries_renew_subset _ _ _ member)
  | stored =>
    refine accounted.remembers fun entry member => ?_
    rcases mem_entries_store.mp member with rfl | ⟨old, _⟩
    · exact allowed.1 ▸ allowed.2
    · exact accounted.remembered entry old
  | left => exact accounted.remembers accounted.remembered
  | served handles => exact accounted.handled _ handles allowed grants
  | lost handles => exact accounted.handled [] handles allowed grants
  | _ => exact accounted

theorem sound_of_answers (answers : Answers number request reply before after)
    (sound : before.memory.gates.Sound) : after.memory.gates.Sound := by
  cases answers with
  | left => exact sound.leave
  | _ => exact sound

/-- What a reply tells is so. -/
theorem tells_of_answers (answers : Answers number request reply before after)
    (accounted : Accounted before) : Tells after.shown request reply := by
  cases answers with
  | looked _ now name =>
    cases found : (before.memory.lookup now name).1 with
    | none => trivial
    | some id => exact accounted.remembered _ (mem_of_lookup found)
  | @served _ request value _ handles =>
    cases handles with
    | listed => exact List.subset_append_left _ _
    | read zone own => exact own
    | created creation zone named => exact ⟨List.mem_cons_self, named⟩
    | aside _ _ apart =>
      cases request with
      | listZones | getZone | createZone => cases apart
      | _ => trivial
  | @lost _ request => cases request <;> trivial
  | refused _ request => cases request <;> trivial
  | _ => trivial

end Answering

/-! ### All that can happen -/

/-- The gates are in order, the accounts are kept, and everybody takes turns in order. -/
structure Kept (scene : Scene) : Prop where
  sound : scene.commons.memory.gates.Sound
  accounted : Accounted scene.commons
  orderly : ∀ number task, scene.tasks number = some task → Orderly scene.commons number task

theorem kept_start (horizon : Int) (zones : List Entry) :
    Kept ⟨⟨.create horizon, zones, [], []⟩, fun _ => none⟩ :=
  ⟨Gates.sound_empty, ⟨nofun, List.nodup_nil, nofun⟩, nofun⟩

theorem kept_of_happens {scene next : Scene} (kept : Kept scene) (happens : Happens scene next) :
    Kept next := by
  cases happens with
  | started _ number _ name =>
    refine ⟨kept.sound, kept.accounted, fun other task present => ?_⟩
    rcases of_update present with ⟨rfl, new⟩ | ⟨_, old⟩
    · obtain rfl := Option.some.inj new
      exact ⟨.outside, careful_resolve name, trivial⟩
    · exact kept.orderly other task old
  | arrived =>
    refine ⟨kept.sound.enter, kept.accounted.remembers kept.accounted.remembered,
      fun other task present => ?_⟩
    exact (kept.orderly other task present).spared
      ⟨List.Subset.refl _, Gates.isFront_enter, fun _ _ member => .inl member⟩
  | @answered _ after _ task request reply _ number answers present calls =>
    obtain ⟨hold, careful, grants⟩ := kept.orderly number task present
    rw [calls] at careful
    obtain ⟨allowed, rest⟩ := careful
    have tells : Tells after.shown request reply := tells_of_answers answers kept.accounted
    refine ⟨sound_of_answers answers kept.sound,
      accounted_of_answers answers kept.accounted allowed grants, fun other later found => ?_⟩
    rcases of_update found with ⟨rfl, new⟩ | ⟨different, old⟩
    · obtain rfl := Option.some.inj new
      exact ⟨_, rest reply after.shown (shown_subset answers) tells,
        grants_of_answers answers kept.sound allowed grants⟩
    · exact (kept.orderly other later old).spared
        (spares_of_answers answers allowed grants different later.asked)
  | abandoned _ _ number =>
    refine ⟨kept.sound.abandon, kept.accounted.remembers kept.accounted.remembered,
      fun other task present => ?_⟩
    rcases of_update present with ⟨_, gone⟩ | ⟨different, old⟩
    · cases gone
    · exact (kept.orderly other task old).spared ⟨List.Subset.refl _,
        fun front => Gates.isFront_abandon front different, fun _ _ member => .inl member⟩

theorem kept_of_reaches {horizon : Int} {zones : List Entry} {scene : Scene}
    (reached : Reaches horizon zones scene) : Kept scene := by
  induction reached with
  | start => exact kept_start horizon zones
  | onwards _ happens inductionHypothesis => exact kept_of_happens inductionHypothesis happens

/-- No two zones were created under one name. A process is about to create a zone only if its own
last list held none of the name. An id that a process ends with is that of a zone that the backend
has shown, listed or created, under the name that the process was asked for. -/
structure Resolved (scene : Scene) : Prop where
  once : (scene.commons.created.map Name.bare).Nodup
  looked : ∀ (number : Nat) (task : Task) (creation : Creation)
    (next : Except Backend.Error Detail → Process (Cached Upkeep) (Except Error String)),
    scene.tasks number = some task →
    task.rest = .call (I := Cached Upkeep) (.load (.backend (.createZone creation))) next →
    creation.name = Name.canonical task.asked ∧ Looked task.asked task.made
  own : ∀ (number : Nat) (task : Task) (id : String), scene.tasks number = some task →
    task.rest = .done (.ok id) → Shows scene.commons.shown task.asked id

/-- Whatever the order of the calls, the clock, the failures and the processes that are abandoned,
zones are created once and ids belong to the names that they are found for. -/
theorem resolved_of_reaches (horizon : Int) (zones : List Entry) (scene : Scene)
    (reached : Reaches horizon zones scene) : Resolved scene := by
  have kept : Kept scene := kept_of_reaches reached
  refine ⟨kept.accounted.once, fun number task creation next present calls => ?_,
    fun number task id present ended => ?_⟩
  · obtain ⟨hold, careful, grants⟩ := kept.orderly number task present
    rw [calls] at careful
    obtain ⟨⟨rfl, named⟩, _⟩ := careful
    exact ⟨named, grants.2.2⟩
  · obtain ⟨hold, careful, _⟩ := kept.orderly number task present
    rw [ended] at careful
    obtain ⟨entry, member, same, named⟩ := careful id rfl
    exact ⟨entry, member, same, named.trans (Name.bare_canonical _)⟩

/-! ### Runs -/

/-- What processes share is what the world of a rehearsal holds: the memory, and the zones of the
store in some order. -/
structure Shares (commons : Commons) (world : World) : Prop where
  remembers : commons.memory = world.memory
  zones : commons.zones.Perm (entriesOf world.backend)
  named : Named world.backend

/-- What is shared once a call has been answered. -/
def Commons.answered (commons : Commons) (request : CachedCall Upkeep.Call)
    (reply : (Cached Upkeep).Reply request) (memory : Memory) (zones : List Entry) : Commons :=
  ⟨memory, zones, shownIn request reply ++ commons.shown,
    createdIn request reply ++ commons.created⟩

section Worlds

variable {world after : World} {number : Nat} {request : CachedCall Upkeep.Call}
  {reply : (Cached Upkeep).Reply request} {woken : List Nat} {commons : Commons}

/-- The handler that processes are run with answers no call in another way than was said. -/
theorem answers_of_meetCached (shares : Shares commons world)
    (absent : ∀ creation, request = .load (.backend (.createZone creation)) →
      ∀ entry ∈ commons.zones, Name.bare entry.name ≠ Name.bare creation.name)
    (met : World.meetCached number request world = .replied reply after woken) :
    ∃ zones, Shares (commons.answered request reply after.memory zones) after ∧
      Answers number request reply
        { commons with memory := arrive (I := Upkeep) number request commons.memory }
        (commons.answered request reply after.memory zones) := by
  obtain ⟨same, zones, named⟩ := shares
  cases request with
  | lookup name =>
    cases met
    exact ⟨commons.zones, ⟨rfl, zones, named⟩, same ▸ .looked commons world.now name⟩
  | store name id =>
    cases met
    exact ⟨commons.zones, ⟨rfl, zones, named⟩, same ▸ .stored commons name id⟩
  | enter name =>
    simp only [World.meetCached, meet] at met
    split at met
    · rename_i turn
      cases met
      rw [← same] at turn
      exact ⟨commons.zones, ⟨rfl, zones, named⟩, same ▸
        .entered { commons with memory := commons.memory.enter name number } name turn⟩
    · cases met
  | leave name =>
    cases met
    exact ⟨commons.zones, ⟨rfl, zones, named⟩, same ▸ .left commons name⟩
  | load request =>
    obtain ⟨kept, undertakes⟩ := World.undertakes_of_replied met
    obtain ⟨later, held, alike, answers⟩ := answers_of_undertakes number named
      zones (fun creation asks => absent creation (congrArg _ asks)) undertakes
    refine ⟨held, ⟨rfl, alike, later⟩, ?_⟩
    rw [kept, ← same]
    exact answers

variable {horizon : Int} {zones : List Entry} {tasks : Nat → Option Task} {task : Task}

/-- A process that is about to create a zone knows that there is none of its name. -/
theorem absent_of_reaches (reached : Reaches horizon zones ⟨commons, tasks⟩)
    {next : (Cached Upkeep).Reply request → Process (Cached Upkeep) (Except Error String)}
    (present : tasks number = some task)
    (calls : task.rest = .call (I := Cached Upkeep) request next) :
    ∀ creation, request = .load (.backend (.createZone creation)) →
      ∀ entry ∈ commons.zones, Name.bare entry.name ≠ Name.bare creation.name := by
  rintro creation rfl entry member
  obtain ⟨hold, careful, grants⟩ := (kept_of_reaches reached).orderly number task present
  rw [calls] at careful
  obtain ⟨⟨rfl, own⟩, _⟩ := careful
  rw [own, Name.bare_canonical]
  exact grants.2.1 entry member

/-- What the handler replies to a process that does not wait yet is among what can happen: one that
has its turn at once has gone to the gate in the same call. -/
theorem reaches_of_replied (number : Nat) (request : CachedCall Upkeep.Call)
    (reply : (Cached Upkeep).Reply request) (shares : Shares commons world)
    (reached : Reaches horizon zones ⟨commons, tasks⟩)
    {next : (Cached Upkeep).Reply request → Process (Cached Upkeep) (Except Error String)}
    (present : tasks number = some task)
    (calls : task.rest = .call (I := Cached Upkeep) request next)
    (new : ∀ name, request = .enter name → world.memory.gates.held? name number = none)
    (met : World.meetCached number request world = .replied reply after woken) :
    ∃ held, Shares (commons.answered request reply after.memory held) after ∧
      Reaches horizon zones ⟨commons.answered request reply after.memory held,
        Function.update tasks number
          (some ⟨task.asked, task.made ++ [⟨request, reply⟩], next reply⟩)⟩ := by
  obtain ⟨held, alike, answers⟩ := answers_of_meetCached shares
    (absent_of_reaches reached present calls) met
  refine ⟨held, alike, ?_⟩
  cases request with
  | enter name =>
    have free : commons.memory.gates.held? name number = none := shares.remembers ▸ new name rfl
    exact (reached.onwards (.arrived number present calls free)).onwards
      (.answered number answers present calls)
  | _ => exact reached.onwards (.answered number answers present calls)

/-- A process that the handler parks has gone to the gate, and waits there for the reply. -/
theorem reaches_of_parked (number : Nat) (shares : Shares commons world)
    (reached : Reaches horizon zones ⟨commons, tasks⟩) {name : String}
    {next : (Cached Upkeep).Reply (.enter name) → Process (Cached Upkeep) (Except Error String)}
    (present : tasks number = some task)
    (calls : task.rest = .call (I := Cached Upkeep) (.enter name) next)
    (new : world.memory.gates.held? name number = none) {resume : World → Unit × World}
    (met : World.meetCached number (.enter name) world = .parked after resume) :
    Shares { commons with memory := after.memory } after ∧
      Reaches horizon zones ⟨{ commons with memory := after.memory }, tasks⟩ ∧
      ∀ later, resume later = ((), later) := by
  simp only [World.meetCached, meet] at met
  split at met
  · cases met
  · cases met
    rw [← shares.remembers] at new
    have arrived := reached.onwards (.arrived number present calls new)
    rw [shares.remembers] at arrived
    exact ⟨⟨rfl, shares.zones, shares.named⟩, arrived, fun _ => rfl⟩

/-- A process that waits goes on once it has its turn. -/
theorem reaches_of_resumed (number : Nat) (shares : Shares commons world)
    (reached : Reaches horizon zones ⟨commons, tasks⟩) {name : String}
    {next : (Cached Upkeep).Reply (.enter name) → Process (Cached Upkeep) (Except Error String)}
    (present : tasks number = some task)
    (calls : task.rest = .call (I := Cached Upkeep) (.enter name) next)
    (turn : world.memory.gates.hasTurn name number = true) :
    Reaches horizon zones ⟨commons, Function.update tasks number
      (some ⟨task.asked, task.made ++ [⟨.enter name, ()⟩], next ()⟩)⟩ := by
  rw [← shares.remembers] at turn
  exact reached.onwards (.answered number (.entered commons name turn) present calls)

/-- While a call takes its time, what is shared stays as it is. In the end it is undertaken by the
world that is found then. -/
theorem shares_of_asleep (number : Nat) (request : Upkeep.Call) {delay : Nat} {during : World}
    {resume : World → Upkeep.Reply request × World} (shares : Shares commons world)
    (met : World.meetCached number (.load request) world = .asleep delay during resume) :
    Shares commons during ∧ ∀ later, (resume later).2.memory = later.memory ∧
      Undertakes later.backend (resume later).2.backend request (resume later).1 := by
  obtain ⟨⟨memory, backend⟩, later⟩ := World.undertakes_of_asleep met
  exact ⟨⟨shares.remembers.trans memory.symm, backend ▸ shares.zones, backend ▸ shares.named⟩,
    later⟩

/-- A process whose call took a while goes on with what became of it. -/
theorem reaches_of_undertakes (number : Nat) (request : Upkeep.Call) (reply : Upkeep.Reply request)
    (shares : Shares commons world) (reached : Reaches horizon zones ⟨commons, tasks⟩)
    {next : Upkeep.Reply request → Process (Cached Upkeep) (Except Error String)}
    (present : tasks number = some task)
    (calls : task.rest = .call (I := Cached Upkeep) (.load request) next)
    (kept : after.memory = world.memory)
    (undertakes : Undertakes world.backend after.backend request reply) :
    ∃ held, Shares (commons.answered (.load request) reply after.memory held) after ∧
      Reaches horizon zones ⟨commons.answered (.load request) reply after.memory held,
        Function.update tasks number
          (some ⟨task.asked, task.made ++ [⟨.load request, reply⟩], next reply⟩)⟩ := by
  obtain ⟨later, held, alike, answers⟩ := answers_of_undertakes number shares.named
    shares.zones (fun creation asks => absent_of_reaches reached present calls creation
      (congrArg _ asks)) undertakes
  refine ⟨held, ⟨rfl, alike, later⟩, ?_⟩
  rw [shares.remembers, ← kept] at answers
  exact reached.onwards (.answered number answers present calls)

/-- A process that is abandoned leaves all gates. -/
theorem reaches_of_abandoned (number : Nat) (shares : Shares commons world)
    (reached : Reaches horizon zones ⟨commons, tasks⟩) :
    let left := { world with memory := world.memory.abandon number }
    Shares { commons with memory := left.memory } left ∧
      Reaches horizon zones ⟨{ commons with memory := left.memory },
        Function.update tasks number none⟩ := by
  have left := reached.onwards (.abandoned commons tasks number)
  rw [shares.remembers] at left
  exact ⟨⟨rfl, shares.zones, shares.named⟩, left⟩

end Worlds

/-- Zones without nameservers that are neither signed nor transferred, and ids that are forgotten at
once. -/
def plainConfiguration : Configuration where
  backend := ⟨"http://127.0.0.1:8081/api/v1", "secret", "localhost", false, false, [],
    "admin.test.", 3600, 0⟩
  ttls := ⟨3600, 10800, 3600⟩
  publish := ⟨180, 3, 20, "http://queue.internal/tasks/dns-publish", none⟩
  mail := ⟨"http://mail.internal/send", none, "DNS update failed", "", "Example Registry",
    "support@registry.test", "ops@registry.test"⟩
  queue := ⟨"queue", "s3cret"⟩

def plainWorld : World := .create plainConfiguration (.ofMillis 0)

/-- A zone as it is created, and as it is listed. -/
def plainZone : Detail :=
  Backend.Store.created (creation plainConfiguration.defaults "test.")
def plainListed : Detail := { plainZone with recordSets := [] }

theorem resolve_plainConfiguration :
    resolve plainConfiguration.defaults "test" =
        getOrLoad "test." (load plainConfiguration.defaults "test.") ∧
      resolve plainConfiguration.defaults "TEST." =
        getOrLoad "test." (load plainConfiguration.defaults "test.") := by
  have lower : Name.canonical "test" = "test." := by decide
  have upper : Name.canonical "TEST." = "test." := by decide
  rw [resolve, resolve, lower, upper]
  exact ⟨rfl, rfl⟩

theorem find?_plainListed : [plainListed].find?
    (fun zone => Name.bare zone.name == Name.bare "test.") = some plainListed :=
  List.find?_cons_of_pos (beq_self_eq_true _)

/-- There is nothing to do about a zone that was just created. -/
theorem pass_plainZone : pass plainConfiguration.defaults plainZone = .done () := by
  rw [pass_eq, checkAuthority_of_valid (by decide), checkNameservers_of_valid (by decide)]
  rfl

/-- One process creates a zone and is abandoned. Another, asked for another spelling, has the next
turn, finds the zone in the list, and ends with its id. -/
theorem resolved_plainZone : ∃ scene, Reaches 0 [] scene ∧ scene.commons.created = ["test."] ∧
    (∃ task, scene.tasks 1 = some task ∧ task.asked = "TEST." ∧
      task.rest = .done (.ok "test.")) ∧ Resolved scene := by
  have nothing : Reaches 0 [] ⟨⟨plainWorld.memory, [], [], []⟩, fun _ => none⟩ := .start
  have shares : Shares ⟨plainWorld.memory, [], [], []⟩ plainWorld := ⟨rfl, .refl _, nofun⟩
  -- Both find nothing remembered, and the second waits behind the first.
  have started := (nothing.onwards (.started _ 0 plainConfiguration.defaults "test" rfl)).onwards
    (.started _ 1 plainConfiguration.defaults "TEST." rfl)
  rw [resolve_plainConfiguration.1, resolve_plainConfiguration.2] at started
  obtain ⟨_, shares, looked⟩ := reaches_of_replied 0 (.lookup "test.") none shares started rfl rfl
    nofun rfl
  obtain ⟨_, shares, both⟩ := reaches_of_replied 1 (.lookup "test.") none shares looked rfl rfl
    nofun rfl
  obtain ⟨_, shares, entered⟩ := reaches_of_replied 0 (.enter "test.") () shares both rfl rfl
    (by rintro _ ⟨⟩; rfl) rfl
  obtain ⟨shares, waiting, _⟩ := reaches_of_parked 1 shares entered rfl rfl rfl rfl
  -- The first creates the zone and is abandoned before its id is remembered.
  obtain ⟨_, shares, missed⟩ := reaches_of_replied 0 (.lookup "test.") none shares waiting rfl rfl
    nofun rfl
  obtain ⟨_, shares, listed⟩ := reaches_of_replied 0 (.load (.backend .listZones)) (Except.ok [])
    shares missed rfl rfl nofun (by with_unfolding_all rfl)
  obtain ⟨shares, wakes⟩ := shares_of_asleep 0
    (.backend (.createZone (creation plainConfiguration.defaults "test."))) shares rfl
  obtain ⟨kept, undertakes⟩ := wakes _
  obtain ⟨_, shares, created⟩ := reaches_of_undertakes 0 (.backend (.createZone _))
    (Except.ok plainZone) shares listed rfl rfl kept undertakes
  obtain ⟨shares, abandoned⟩ := reaches_of_abandoned 0 shares created
  -- The second has the next turn and finds the zone in its own list.
  have resumed := reaches_of_resumed 1 shares abandoned rfl rfl rfl
  obtain ⟨_, shares, again⟩ := reaches_of_replied 1 (.lookup "test.") none shares resumed rfl rfl
    nofun rfl
  obtain ⟨_, shares, found⟩ := reaches_of_replied 1 (.load (.backend .listZones))
    (Except.ok [plainListed]) shares again rfl (by
      show Process.bind (Process.bind (Process.embed _ (load _ "test.")) _) _ = _
      rw [load_eq]
      rfl) nofun (by with_unfolding_all rfl)
  obtain ⟨_, shares, read⟩ := reaches_of_replied 1 (.load (.backend (.getZone "test.")))
    (Except.ok plainZone) shares found rfl (by
      dsimp only [loading]
      rw [find?_plainListed]
      rfl) nofun rfl
  obtain ⟨_, shares, stored⟩ := reaches_of_replied 1 (.store "test." "test.") () shares read rfl (by
    dsimp only [finish]
    rw [pass_plainZone]
    rfl) nofun rfl
  obtain ⟨_, _, resolved⟩ := reaches_of_replied 1 (.leave "test.") () shares stored rfl rfl nofun
    rfl
  exact ⟨_, resolved, rfl, ⟨_, rfl, rfl, rfl⟩, resolved_of_reaches _ _ _ resolved⟩

end Zonecast.Directory
