/-
Ids that are found in the memory are recent and belong to the name they are found for. All ids are
forgotten together, and only by a look; storing an id pays no attention to the time that is fixed.
What keeps an id from growing old is that the time was fixed by a look before now, so it comes no
later than one horizon after any id that is stored until then.

A process that loads stores what its own loader found, for the name it was asked for, and nothing
if its loader fails.
-/
import Zonecast.Proofs.SharedMemory
import Zonecast.Rehearsal.Loading

namespace Zonecast.Directory.Sharing

open Process

variable {I : Interface} {ε : Type}

/-! ### Looks -/

/-- A look at this reading of the clock forgets all ids: it is the first, or it comes a horizon
after an earlier one. -/
def Due (horizon : Int) (reading : Instant) (earlier : List Event) : Prop :=
  (∀ start name found, .looked start name found ∉ earlier) ∨
    ∃ start name found, .looked start name found ∈ earlier ∧
      (start.addMillis horizon).le reading = true

/-- Nothing was stored for the name since all ids were forgotten. -/
def Forgotten (horizon : Int) (name : String) (log : List Event) : Prop :=
  ∃ later reading key found earlier, log = later ++ .looked reading key found :: earlier ∧
    lastStored name later = none ∧ Due horizon reading earlier

/-- What is found is the id that was stored last for the name, and it was stored less than a
horizon ago. If nothing is found, the last such id was forgotten. -/
structure Right (horizon : Int) (reading : Instant) (name : String) (found : Option String)
    (earlier : List Event) : Prop where
  recent : ∀ id, found = some id → ∃ since, lastStored name earlier = some (since, id) ∧
    reading.nanosSince since < horizon * 1000000
  kept : found = none → ∀ since id, lastStored name earlier = some (since, id) →
    Due horizon reading earlier ∨ Forgotten horizon name earlier

/-- What every look in the log finds is right. -/
def Trusted (horizon : Int) (log : List Event) : Prop :=
  ∀ later reading name found earlier, log = later ++ .looked reading name found :: earlier →
    Right horizon reading name found earlier

section Log

variable {horizon : Int} {log : List Event} {name : String}

theorem Trusted.looked (trusted : Trusted horizon log) {reading : Instant} {found : Option String}
    (right : Right horizon reading name found log) :
    Trusted horizon (.looked reading name found :: log) := by
  intro later other key answer earlier equal
  cases later with
  | nil =>
    cases equal
    exact right
  | cons first later =>
    cases equal
    exact trusted later other key answer earlier rfl

theorem Trusted.stored (trusted : Trusted horizon log) (time : Instant) (maker : Option Nat)
    (id : String) : Trusted horizon (.stored time maker name id :: log) := by
  intro later other key answer earlier equal
  cases later with
  | nil => cases equal
  | cons first later =>
    cases equal
    exact trusted later other key answer earlier rfl

theorem Forgotten.looked (forgotten : Forgotten horizon name log) (reading : Instant)
    (key : String) (found : Option String) :
    Forgotten horizon name (.looked reading key found :: log) := by
  obtain ⟨later, start, other, answer, earlier, rfl, none, due⟩ := forgotten
  exact ⟨_ :: later, start, other, answer, earlier, rfl, none, due⟩

theorem Forgotten.stored (forgotten : Forgotten horizon name log) {key : String}
    (different : key ≠ name) (time : Instant) (maker : Option Nat) (id : String) :
    Forgotten horizon name (.stored time maker key id :: log) := by
  obtain ⟨later, start, other, answer, earlier, rfl, none, due⟩ := forgotten
  exact ⟨_ :: later, start, other, answer, earlier, rfl,
    (if_neg different).trans none, due⟩

end Log

/-! ### The memory against its log -/

/-- The time from which on ids are forgotten was fixed by an earlier look. Each remembered id is the
one stored last for its name, and that time comes at most a horizon after it was stored. An id that
was stored last for its name is remembered unless it was forgotten. -/
structure Dated (clock : Instant) (memory : Memory) (log : List Event) : Prop where
  regular : clock.Regular
  fixed : ∀ expiry, memory.cache.expiry = some expiry → ∃ start name found,
    .looked start name found ∈ log ∧ start.Regular ∧ start.le clock = true ∧
      expiry = start.addMillis memory.horizon
  unfixed : memory.cache.expiry = none → ∀ start name found, .looked start name found ∉ log
  remembered : ∀ name id, (name, id) ∈ memory.cache.entries → ∃ since,
    lastStored name log = some (since, id) ∧ since.Regular ∧
      ∀ expiry, memory.cache.expiry = some expiry →
        expiry.le (since.addMillis memory.horizon) = true
  missing : ∀ name since id, lastStored name log = some (since, id) →
    (name, id) ∈ memory.cache.entries ∨ Forgotten memory.horizon name log
  trusted : Trusted memory.horizon log

section Dated

variable {clock : Instant} {memory : Memory} {log : List Event}

theorem dated_create (horizon : Int) (regular : clock.Regular) :
    Dated clock (.create horizon) [] where
  regular := regular
  fixed := nofun
  unfixed _ _ _ _ := List.not_mem_nil
  remembered := nofun
  missing := nofun
  trusted later _ _ _ _ equal := by cases later <;> cases equal

theorem Dated.passed (dated : Dated clock memory log) {later : Instant} (regular : later.Regular)
    (forwards : clock.le later = true) : Dated later memory log where
  regular := regular
  fixed expiry same := by
    obtain ⟨start, name, found, member, startRegular, order, equal⟩ := dated.fixed expiry same
    exact ⟨start, name, found, member, startRegular, Instant.le_trans order forwards, equal⟩
  unfixed := dated.unfixed
  remembered := dated.remembered
  missing := dated.missing
  trusted := dated.trusted

/-- A look before the time has come finds what is remembered, and it was stored less than a horizon
before: the time comes at most a horizon after. -/
theorem Dated.right_of_kept (dated : Dated clock memory log) {expiry reading : Instant}
    (fixed : memory.cache.expiry = some expiry) (early : expiry.le reading = false)
    (regular : reading.Regular) (name : String) :
    Right memory.horizon reading name (memory.cache.get? name) log where
  recent id found := by
    obtain ⟨since, last, sinceRegular, bound⟩ := dated.remembered name id (mem_of_get? found)
    refine ⟨since, last, Instant.nanosSince_lt sinceRegular regular ?_⟩
    refine Bool.eq_false_iff.mpr fun come => ?_
    have late := Instant.le_trans (bound expiry fixed) come
    rw [early] at late
    cases late
  kept missing since id last :=
    .inr ((dated.missing name since id last).resolve_left (not_mem_of_get? missing id))

/-- A look at which the time has come, or none is fixed, is due. -/
theorem Dated.due (dated : Dated clock memory log) {reading : Instant}
    (come : ∀ expiry, memory.cache.expiry = some expiry → expiry.le reading = true) :
    Due memory.horizon reading log := by
  cases fixed : memory.cache.expiry with
  | none => exact .inl (dated.unfixed fixed)
  | some expiry =>
    obtain ⟨start, name, found, member, _, _, rfl⟩ := dated.fixed expiry fixed
    exact .inr ⟨start, name, found, member, come _ fixed⟩

/-- A look before the time has come changes nothing. -/
theorem Dated.looked_early (dated : Dated clock memory log) {expiry reading : Instant}
    (fixed : memory.cache.expiry = some expiry) (early : expiry.le reading = false)
    (regular : reading.Regular) (name : String) :
    Dated clock memory (.looked reading name (memory.cache.get? name) :: log) where
  regular := dated.regular
  fixed expiry same := by
    obtain ⟨start, key, answer, member, rest⟩ := dated.fixed expiry same
    exact ⟨start, key, answer, List.mem_cons_of_mem _ member, rest⟩
  unfixed none := by rw [fixed] at none; cases none
  remembered := dated.remembered
  missing key since id last :=
    (dated.missing key since id last).imp_right fun forgotten => forgotten.looked _ _ _
  trusted := dated.trusted.looked (dated.right_of_kept fixed early regular name)

/-- A look that is due forgets all ids and fixes the time anew. -/
theorem Dated.looked_due (dated : Dated clock memory log) {reading : Instant}
    (due : Due memory.horizon reading log) (regular : reading.Regular)
    (shown : reading.le clock = true) (name : String) :
    Dated clock { memory with cache := ⟨[], some (reading.addMillis memory.horizon)⟩ }
      (.looked reading name none :: log) where
  regular := dated.regular
  fixed expiry same := by
    obtain rfl := Option.some.inj same
    exact ⟨reading, name, none, List.mem_cons_self, regular, shown, rfl⟩
  unfixed := nofun
  remembered := nofun
  missing key since id last := .inr ⟨[], reading, name, none, log, rfl, rfl, due⟩
  trusted := dated.trusted.looked ⟨nofun, fun _ _ _ _ => .inl due⟩

theorem Dated.looked (dated : Dated clock memory log) {reading : Instant}
    (regular : reading.Regular) (shown : reading.le clock = true) (name : String) :
    Dated clock (memory.lookup reading name).2
      (.looked reading name (memory.lookup reading name).1 :: log) := by
  have found : (memory.lookup reading name).1 =
    (memory.cache.renew memory.horizon reading).get? name := rfl
  have after : (memory.lookup reading name).2 =
    { memory with cache := memory.cache.renew memory.horizon reading } := rfl
  rw [found, after]
  rcases renew_cases memory.cache memory.horizon reading with
    ⟨expiry, fixed, early, same⟩ | ⟨come, forgets⟩
  · rw [same]
    exact dated.looked_early fixed early regular name
  · rw [forgets]
    exact dated.looked_due (dated.due come) regular shown name

/-- Storing an id does not move the time, which is at most a horizon from now on. -/
theorem Dated.stored (dated : Dated clock memory log) (maker : Option Nat) (name id : String) :
    Dated clock (memory.store name id) (.stored clock maker name id :: log) where
  regular := dated.regular
  fixed expiry same := by
    obtain ⟨start, key, answer, member, rest⟩ := dated.fixed expiry same
    exact ⟨start, key, answer, List.mem_cons_of_mem _ member, rest⟩
  unfixed none start key answer member := by
    rcases List.mem_cons.mp member with new | old
    · cases new
    · exact dated.unfixed none start key answer old
  remembered key other member := by
    rcases mem_entries_store.mp member with new | ⟨old, different⟩
    · cases new
      refine ⟨clock, if_pos rfl, dated.regular, fun expiry same => ?_⟩
      obtain ⟨start, _, _, _, startRegular, order, rfl⟩ := dated.fixed expiry same
      exact Instant.addMillis_le memory.horizon startRegular dated.regular order
    · obtain ⟨since, last, rest⟩ := dated.remembered key other old
      exact ⟨since, (if_neg (Ne.symm different)).trans last, rest⟩
  missing key since other last := by
    by_cases same : name = key
    · rw [lastStored, if_pos same] at last
      cases last
      exact .inl (mem_entries_store.mpr (.inl (by rw [same])))
    · rw [lastStored, if_neg same] at last
      rcases dated.missing key since other last with held | forgotten
      · exact .inl (mem_entries_store.mpr (.inr ⟨held, Ne.symm same⟩))
      · exact .inr (forgotten.stored same _ _ _)
  trusted := dated.trusted.stored _ _ _

/-- The gates have no part in this. -/
theorem Dated.gates (dated : Dated clock memory log) (gates : Gates) :
    Dated clock { memory with gates } log :=
  ⟨dated.regular, dated.fixed, dated.unfixed, dated.remembered, dated.missing, dated.trusted⟩

theorem dated_of_answers {number : Nat} {request : CachedCall I.Call}
    {reply : (Cached I).Reply request} {after : Memory} {events : List Event}
    (answers : Answers clock number request reply memory after events)
    (dated : Dated clock memory log) : Dated clock after (events ++ log) := by
  cases answers with
  | looked _ reading name regular shown => exact dated.looked regular shown name
  | stored _ name id => exact dated.stored (some number) name id
  | left => exact dated.gates _
  | _ => exact dated

end Dated

/-! ### What a process stores -/

section Truthful

variable {name : String} {load : Process I (Except ε String)} {made : List (Exchange (Cached I))}

theorem loads_concat (made : List (Exchange (Cached I))) (exchange : Exchange (Cached I)) :
    loads (made ++ [exchange]) = loads made ++ (load? exchange).toList := by
  rw [loads, List.filterMap_append, List.filterMap_cons]
  cases load? exchange <;> rfl

/-- A call that is not one of the loader leaves its path as it is. -/
theorem runs_loads_concat {exchange : Exchange (Cached I)} {result : Except ε String}
    (aside : load? exchange = none) :
    Runs load (loads (made ++ [exchange])) result ↔ Runs load (loads made) result := by
  rw [loads_concat, aside, Option.toList_none, List.append_nil]

/-- What a process may call for: it keeps to its name, stores what its loader found, and calls its
loader until that has ended. -/
def Permitted (name : String) (load : Process I (Except ε String))
    (made : List (Exchange (Cached I))) : CachedCall I.Call → Prop
  | .lookup key | .enter key | .leave key => key = name
  | .store key id => key = name ∧ Runs load (loads made) (.ok id)
  | .load _ => ∀ result, ¬Runs load (loads made) result

/-- The process only calls for what it may, whatever it is told, and ends with what its loader ended
with or with an id that it found for its name. -/
def Truthful (name : String) (load : Process I (Except ε String)) :
    Process (Cached I) (Except ε String) → List (Exchange (Cached I)) → Prop
  | .done result, made => Runs load (loads made) result ∨
    ∃ id, result = .ok id ∧ (⟨.lookup name, some id⟩ : Exchange (Cached I)) ∈ made
  | .call request next, made => Permitted name load made request ∧
    ∀ reply, Truthful name load (next reply) (made ++ [⟨request, reply⟩])

theorem truthful_depart {result : Except ε String}
    (own : Runs load (loads made) result ∨
      ∃ id, result = .ok id ∧ (⟨.lookup name, some id⟩ : Exchange (Cached I)) ∈ made) :
    Truthful name load (depart name result) made := by
  refine ⟨rfl, fun reply => own.imp (fun run => ?_) fun ⟨id, same, member⟩ =>
    ⟨id, same, List.mem_append_left _ member⟩⟩
  exact (runs_loads_concat rfl).mpr run

/-- The loader is followed call by call: what is left of it is what is left of its path. -/
theorem truthful_load {residual : Process I (Except ε String)}
    {next : Except ε String → Process (Cached I) (Except ε String)}
    (left : ∀ path result, Runs load (loads made ++ path) result ↔ Runs residual path result)
    (found : ∀ result later, Runs load (loads later) result →
      Truthful name load (next result) later) :
    Truthful name load ((residual.embed (loading I)).bind next) made := by
  induction residual generalizing made with
  | done value =>
    have run := (left [] value).mpr (.done value)
    rw [List.append_nil] at run
    exact found value made run
  | call request more inductionHypothesis =>
    refine ⟨fun result run => ?_, fun reply => inductionHypothesis reply fun path result => ?_⟩
    · have ended := (left [] result).mp (by rw [List.append_nil]; exact run)
      cases ended
    · rw [loads_concat, List.append_assoc]
      refine (left (⟨request, reply⟩ :: path) result).trans ⟨fun run => ?_, .call⟩
      cases run with
      | call run => exact run

theorem truthful_loadInTurn (none : loads made = []) :
    Truthful name load ((loadInTurn name load).bind (depart name)) made := by
  rw [loadInTurn_eq]
  refine ⟨rfl, fun reply => ?_⟩
  change Option String at reply
  cases reply with
  | some id =>
    exact truthful_depart (.inr ⟨id, rfl, List.mem_append_right _ List.mem_cons_self⟩)
  | none =>
    show Truthful name load
      (((load.embed (loading I)).bind (remember name)).bind (depart name)) _
    rw [Process.bind_assoc]
    refine truthful_load (fun path result => ?_) fun result later run => ?_
    · rw [loads_concat, none]
      rfl
    · cases result with
      | error error => exact truthful_depart (.inl run)
      | ok id =>
        exact ⟨⟨rfl, run⟩, fun reply => truthful_depart (.inl ((runs_loads_concat rfl).mpr run))⟩

/-- A load through the memory stores only what its loader found. -/
theorem truthful_getOrLoad : Truthful name load (getOrLoad name load) [] := by
  rw [getOrLoad_eq]
  refine ⟨rfl, fun reply => ?_⟩
  change Option String at reply
  cases reply with
  | some id => exact .inr ⟨id, rfl, List.mem_cons_self⟩
  | none => exact ⟨rfl, fun _ => truthful_loadInTurn rfl⟩

end Truthful

/-! ### Processes against the log -/

/-- The process does as it may, and what it found was found in the memory. -/
structure Sincere (log : List Event) (task : Task I ε) : Prop where
  truthful : ∀ rest, task.rest = some rest → Truthful task.asked task.load rest task.made
  seen : ∀ name id, (⟨.lookup name, some id⟩ : Exchange (Cached I)) ∈ task.made →
    ∃ reading, .looked reading name (some id) ∈ log

/-- The process was asked for the name, and its loader ended with the id. -/
def Owns (task : Task I ε) (name id : String) : Prop :=
  name = task.asked ∧ Runs task.load (loads task.made) (.ok id)

/-- Processes are sincere, and each stored only what it owns. -/
structure Honest (log : List Event) (tasks : Nat → Option (Task I ε)) : Prop where
  sincere : ∀ number task, tasks number = some task → Sincere log task
  owned : ∀ time number name id, .stored time (some number) name id ∈ log →
    ∃ task, tasks number = some task ∧ Owns task name id

section Honest

variable {log : List Event} {tasks : Nat → Option (Task I ε)} {number : Nat} {task : Task I ε}

theorem Sincere.more (sincere : Sincere log task) {later : List Event} (more : log ⊆ later) :
    Sincere later task where
  truthful := sincere.truthful
  seen name id member := by
    obtain ⟨reading, there⟩ := sincere.seen name id member
    exact ⟨reading, more there⟩

theorem Honest.more (honest : Honest log tasks) {event : Event}
    (other : ∀ time number name id, event ≠ .stored time (some number) name id) :
    Honest (event :: log) tasks where
  sincere number task present :=
    (honest.sincere number task present).more (List.subset_cons_self _ _)
  owned time number name id member := by
    rcases List.mem_cons.mp member with new | old
    · exact absurd new.symm (other time number name id)
    · exact honest.owned time number name id old

/-- What happens to one process says nothing of the others. -/
theorem Honest.replaced (honest : Honest log tasks) {later : List Event} (more : log ⊆ later)
    (sincere : Sincere later task)
    (owned : ∀ time name id, .stored time (some number) name id ∈ later → Owns task name id)
    (others : ∀ time other name id, other ≠ number → .stored time (some other) name id ∈ later →
      .stored time (some other) name id ∈ log) :
    Honest later (Function.update tasks number (some task)) where
  sincere other found there := by
    rcases of_update there with ⟨_, new⟩ | ⟨_, old⟩
    · obtain rfl := Option.some.inj new
      exact sincere
    · exact (honest.sincere other found old).more more
  owned time other name id member := by
    by_cases same : other = number
    · subst same
      exact ⟨task, Function.update_self _ _ _, owned time name id member⟩
    · obtain ⟨found, there, owns⟩ := honest.owned time other name id
        (others time other name id same member)
      exact ⟨found, (Function.update_of_ne same _ _).trans there, owns⟩

theorem Honest.owns (honest : Honest log tasks) (present : tasks number = some task)
    {time : Instant} {name id : String} (member : .stored time (some number) name id ∈ log) :
    Owns task name id := by
  obtain ⟨found, there, owns⟩ := honest.owned time number name id member
  obtain rfl := Option.some.inj (present.symm.trans there)
  exact owns

theorem Honest.started (honest : Honest log tasks) (free : tasks number = none)
    (name : String) (load : Process I (Except ε String)) :
    Honest log (Function.update tasks number
      (some ⟨name, load, [], some (getOrLoad name load)⟩)) := by
  refine honest.replaced (List.Subset.refl _) ⟨fun rest left => ?_, nofun⟩
    (fun time key id member => ?_) fun _ _ _ _ _ member => member
  · obtain rfl := Option.some.inj left
    exact truthful_getOrLoad
  · -- The number is new, so nothing was stored under it.
    obtain ⟨_, there, _⟩ := honest.owned time number key id member
    rw [free] at there
    cases there

theorem Honest.abandoned (honest : Honest log tasks) (present : tasks number = some task) :
    Honest log (Function.update tasks number (some { task with rest := none })) :=
  honest.replaced (List.Subset.refl _) ⟨nofun, (honest.sincere number task present).seen⟩
    (fun _ _ _ member => honest.owns present member) fun _ _ _ _ _ member => member

section Answered

variable {clock : Instant} {request : CachedCall I.Call} {reply : (Cached I).Reply request}
  {before after : Memory} {events : List Event}

theorem looked_of_answers {name : String} {reply : (Cached I).Reply (.lookup name)}
    (answers : Answers clock number (.lookup name) reply before after events) :
    ∃ reading, .looked reading name reply ∈ events := by
  cases answers
  exact ⟨_, List.mem_cons_self⟩

theorem store_of_answers (answers : Answers clock number request reply before after events)
    {time : Instant} {other : Nat} {name id : String}
    (member : .stored time (some other) name id ∈ events) :
    other = number ∧ request = .store name id := by
  cases answers with
  | looked => cases List.mem_singleton.mp member
  | stored =>
    cases List.mem_singleton.mp member
    exact ⟨rfl, rfl⟩
  | _ => cases member

theorem Sincere.answered (sincere : Sincere log task)
    {next : (Cached I).Reply request → Process (Cached I) (Except ε String)}
    (answers : Answers clock number request reply before after events)
    (calls : task.rest = some (.call (I := Cached I) request next)) :
    Sincere (events ++ log)
      { task with made := task.made ++ [⟨request, reply⟩], rest := some (next reply) } := by
  refine ⟨fun rest left => ?_, fun name id member => ?_⟩
  · obtain rfl := Option.some.inj left
    exact (sincere.truthful _ calls).2 reply
  · rcases List.mem_append.mp member with old | new
    · obtain ⟨reading, there⟩ := sincere.seen name id old
      exact ⟨reading, List.mem_append_right _ there⟩
    · cases List.mem_singleton.mp new
      obtain ⟨reading, there⟩ := looked_of_answers answers
      exact ⟨reading, List.mem_append_left _ there⟩

/-- What a process owns it keeps, since a loader that has ended is not called again. -/
theorem Owns.answered {name id : String} (owns : Owns task name id)
    {next : (Cached I).Reply request → Process (Cached I) (Except ε String)}
    (permitted : Permitted task.asked task.load task.made request) :
    Owns { task with made := task.made ++ [⟨request, reply⟩], rest := some (next reply) } name
      id := by
  refine ⟨owns.1, ?_⟩
  cases request with
  | load inner => exact absurd owns.2 (permitted _)
  | _ => exact (runs_loads_concat rfl).mpr owns.2

/-- What is written down at a call is what the call was for. -/
theorem Honest.answered (honest : Honest log tasks)
    {next : (Cached I).Reply request → Process (Cached I) (Except ε String)}
    (answers : Answers clock number request reply before after events)
    (present : tasks number = some task)
    (calls : task.rest = some (.call (I := Cached I) request next)) :
    Honest (events ++ log) (Function.update tasks number
      (some { task with made := task.made ++ [⟨request, reply⟩], rest := some (next reply) })) := by
  have sincere := honest.sincere number task present
  obtain ⟨permitted, _⟩ := sincere.truthful _ calls
  refine honest.replaced (List.subset_append_right _ _) (sincere.answered answers calls)
    (fun time name id member => ?_) fun time other name id different member => ?_
  · rcases List.mem_append.mp member with new | old
    · obtain ⟨_, rfl⟩ := store_of_answers answers new
      exact ⟨permitted.1, (runs_loads_concat rfl).mpr permitted.2⟩
    · exact (honest.owns present old).answered permitted
  · rcases List.mem_append.mp member with new | old
    · exact absurd (store_of_answers answers new).1 different
    · exact old

end Answered

end Honest

/-! ### All that can happen -/

/-- The memory and the processes agree with the log. -/
structure Kept (horizon : Int) (scene : Scene I ε) : Prop where
  horizon : scene.memory.horizon = horizon
  dated : Dated scene.clock scene.memory scene.log
  honest : Honest scene.log scene.tasks

theorem horizon_of_answers {clock : Instant} {number : Nat} {request : CachedCall I.Call}
    {reply : (Cached I).Reply request} {before after : Memory} {events : List Event}
    (answers : Answers clock number request reply before after events) :
    after.horizon = before.horizon := by
  cases answers <;> rfl

theorem kept_of_happens {horizon : Int} {scene next : Scene I ε} (kept : Kept horizon scene)
    (happens : Happens scene next) : Kept horizon next := by
  cases happens with
  | passed later regular forwards =>
    exact ⟨kept.horizon, kept.dated.passed regular forwards, kept.honest⟩
  | looked reading name regular shown =>
    exact ⟨kept.horizon, kept.dated.looked regular shown name, kept.honest.more nofun⟩
  | stored name id =>
    refine ⟨kept.horizon, kept.dated.stored none name id, kept.honest.more ?_⟩
    intro _ _ _ _ same
    cases same
  | started number name load free =>
    exact ⟨kept.horizon, kept.dated, kept.honest.started free name load⟩
  | arrived => exact ⟨kept.horizon, kept.dated.gates _, kept.honest⟩
  | answered number answers present calls =>
    exact ⟨(horizon_of_answers answers).trans kept.horizon, dated_of_answers answers kept.dated,
      kept.honest.answered answers present calls⟩
  | abandoned number present =>
    exact ⟨kept.horizon, kept.dated.gates _, kept.honest.abandoned present⟩

theorem kept_of_reaches {horizon : Int} {scene : Scene I ε} (reached : Reaches horizon scene) :
    Kept horizon scene := by
  induction reached with
  | start clock regular => exact ⟨rfl, dated_create horizon regular, ⟨nofun, nofun⟩⟩
  | onwards _ happens inductionHypothesis => exact kept_of_happens inductionHypothesis happens

/-- What every look finds is right. What a process stores is the id that its own loader ended with,
for the name that the process was asked for, and nothing if the loader failed. What a process ends
with is what its loader ended with, or an id that was found for its name. -/
structure Faithful (horizon : Int) (scene : Scene I ε) : Prop where
  trusted : Trusted horizon scene.log
  owned : ∀ time number name id, .stored time (some number) name id ∈ scene.log →
    ∃ task, scene.tasks number = some task ∧ Owns task name id
  failed : ∀ number task error, scene.tasks number = some task →
    Runs task.load (loads task.made) (.error error) →
      ∀ time name id, .stored time (some number) name id ∉ scene.log
  ended : ∀ number task result, scene.tasks number = some task →
    task.rest = some (.done result) → Runs task.load (loads task.made) result ∨
      ∃ id reading, result = .ok id ∧ .looked reading task.asked (some id) ∈ scene.log

/-- However looks, stores and loads come after one another, and whatever becomes of the loads, no id
is found that is a horizon old or was not the last one stored for the name, and a load that fails
stores nothing. -/
theorem faithful_of_reaches (horizon : Int) (scene : Scene I ε) (reached : Reaches horizon scene) :
    Faithful horizon scene := by
  obtain ⟨rfl, dated, honest⟩ := kept_of_reaches reached
  refine ⟨dated.trusted, honest.owned,
    fun number task error present failed time name id stored => ?_,
    fun number task result present ended => ?_⟩
  · cases (honest.owns present stored).2.unique failed
  · have sincere := honest.sincere number task present
    refine (sincere.truthful _ ended).imp_right ?_
    rintro ⟨id, same, member⟩
    obtain ⟨reading, there⟩ := sincere.seen _ id member
    exact ⟨id, reading, same, there⟩

/-- A loader that finds an id at once, and one that fails. -/
def findingLoader : Rehearsal.Loading := ⟨"test.", some "t1", false⟩
def failingLoader : Rehearsal.Loading := ⟨"gone.", none, false⟩

/-- The memory of a rehearsal is shared in the way that was said. -/
theorem lawful_bench : Lawful (I := Rehearsal.Loader) Rehearsal.LoadingBench.memory
    (fun memory bench => { bench with memory }) Rehearsal.LoadingBench.now
    Rehearsal.LoadingBench.meetLoad where
  keeps _ _ := rfl
  shows _ _ := rfl
  loads number request bench reply after woken met := by
    unfold Rehearsal.LoadingBench.meetLoad at met
    dsimp only at met
    split at met
    · cases met
    · cases met
      exact ⟨rfl, rfl⟩

/-- A memory that remembers ids for an hour. -/
def hourBench : Rehearsal.LoadingBench := .create 3600000 (.ofMillis 0)

/-- What is written down while ids are remembered for an hour. -/
def hourLog : List Event :=
  [.looked (.ofMillis 3660000) "test." none,
    .looked (.ofMillis 3540000) "test." (some "t1"),
    .looked (.ofMillis 0) "gone." none,
    .looked (.ofMillis 0) "gone." none,
    .stored (.ofMillis 0) (some 0) "test." "t1",
    .looked (.ofMillis 0) "test." none,
    .looked (.ofMillis 0) "test." none]

/-- Two processes load ids, and only the first finds one. It is found after 59 minutes, and after
two more it is forgotten. -/
theorem faithful_hourLog : ∃ scene : Scene Rehearsal.Loader Unit, Reaches 3600000 scene ∧
    scene.log = hourLog ∧
    (∃ task, scene.tasks 1 = some task ∧ task.rest = some (.done (.error ())) ∧
      Runs task.load (loads task.made) (.error ())) ∧
    Faithful 3600000 scene := by
  have nothing : Reaches 3600000 ⟨hourBench.memory, hourBench.now, [], fun _ => none⟩ :=
    .start (ε := Unit) (I := Rehearsal.Loader) (.ofMillis 0) (by decide)
  -- The first process finds nothing remembered, twice, and stores what its loader finds.
  have started := reaches_of_started 0 nothing "test." (Process.perform findingLoader) rfl
  have looked := reaches_of_replied 0 (.lookup "test.") none lawful_bench started rfl rfl nofun rfl
  have entered := reaches_of_replied 0 (.enter "test.") () lawful_bench looked rfl rfl
    (by rintro _ ⟨⟩; rfl) rfl
  have missed := reaches_of_replied 0 (.lookup "test.") none lawful_bench entered rfl rfl nofun rfl
  have loaded := reaches_of_replied (I := Rehearsal.Loader) 0 (.load findingLoader)
    (Except.ok "t1") lawful_bench missed rfl rfl nofun rfl
  have stored := reaches_of_replied 0 (.store "test." "t1") () lawful_bench loaded rfl rfl nofun rfl
  have left := reaches_of_replied 0 (.leave "test.") () lawful_bench stored rfl rfl nofun rfl
  -- The loader of the second fails.
  have another := reaches_of_started 1 left "gone." (Process.perform failingLoader) rfl
  have sought := reaches_of_replied 1 (.lookup "gone.") none lawful_bench another rfl rfl nofun rfl
  have admitted := reaches_of_replied 1 (.enter "gone.") () lawful_bench sought rfl rfl
    (by rintro _ ⟨⟩; rfl) rfl
  have lacking := reaches_of_replied 1 (.lookup "gone.") none lawful_bench admitted rfl rfl nofun
    rfl
  have failed := reaches_of_replied (I := Rehearsal.Loader) 1 (.load failingLoader)
    (Except.error ()) lawful_bench lacking rfl rfl nofun rfl
  have gone := reaches_of_replied 1 (.leave "gone.") () lawful_bench failed rfl rfl nofun rfl
  -- Others look before the hour has gone by and after it.
  have found := (gone.onwards (.passed _ (.ofMillis 3540000) (by decide) (by decide))).onwards
    (.looked _ (.ofMillis 3540000) "test." (by decide) (by decide))
  have forgotten := (found.onwards (.passed _ (.ofMillis 3660000) (by decide) (by decide))).onwards
    (.looked _ (.ofMillis 3660000) "test." (by decide) (by decide))
  exact ⟨_, forgotten, rfl, ⟨_, rfl, rfl, .call (.done _)⟩, faithful_of_reaches _ _ forgotten⟩

end Zonecast.Directory.Sharing
