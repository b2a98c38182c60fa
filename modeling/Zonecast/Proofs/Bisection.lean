/-
Why cutting failing batches in two comes to an end. The queue delivers a batch again after a
failure, and delivers each half of a batch that was cut from the start; in which order is left
open, and so is which commits fail. A batch of `k` names can be delivered only so often before it
is cut, and its halves hold at least one name each and all its names between them. So every batch
has an allowance of deliveries that covers its own and those of its halves: a delivery that fails
uses up one, and cutting uses up one as well.

What is left when the queue is empty are deliveries that were the last of their batch. Each name
is in exactly one of them, and where one was given up, it had a single name, and the commit of
that name alone failed at the last attempt.
-/
import Zonecast.Proofs.Deliveries
import Zonecast.Proofs.Halves

namespace Zonecast.Publish

open Process

/-! ### Favourable deliveries -/

/-- A batch that waits to be delivered, and how often it has been. -/
structure Waiting where
  batch : Batch
  attempt : Nat

/-- The batches that deeds put into the queue. -/
def arrivals (deeds : List Deed) : List Waiting :=
  deeds.filterMap fun
    | .enqueued batch (.ok ()) => some ⟨batch, 0⟩
    | _ => none

/-- A deed of a batch whose shard and writer are known, with a registry, locks and a queue that do
not fail. A commit may end in any way. -/
def Favourable (batch : Batch) : Deed → Prop
  | .asked _ reply => ∃ shard, Shard.resolve batch.lockIndex batch.lockCount = .ok shard ∧
      reply = .ok (some shard.count)
  | .acquired _ _ _ reply => ∃ handle, reply = .ok (some handle)
  | .created _ _ known => known = true
  | .refreshed _ _ reply? => reply? = some (.ok ())
  | .enqueued _ reply => reply = .ok ()
  | _ => True

section Favourable

variable {settings : Settings} {batch : Batch} {attempt : Nat} {deeds : List Deed}
  {result : Except Error Outcome}

theorem arrivals_publishing {tld : String} {reply? : Option (Except Writer.Error Unit)} :
    arrivals (publishing batch tld reply?) = [] := by
  unfold arrivals
  rw [List.filterMap_eq_nil_iff]
  intro deed member
  simp only [publishing, stagings, tallies, List.mem_cons, List.mem_append, List.mem_map,
    List.not_mem_nil, or_false] at member
  rcases member with rfl | (⟨_, _, rfl⟩ | ⟨_, _, rfl⟩) | (rfl | rfl | rfl | rfl) | rfl <;> rfl

theorem arrivals_leased {tld resource name : String} {millis : Nat}
    {asked : Except Registry.Error (Option Nat)}
    {acquired : Except Lock.Error (Option Lock.Handle)} {handle : Lock.Handle}
    {released : Except Lock.Error Unit} {work after : List Deed} :
    arrivals (.asked tld asked :: .acquired resource name millis acquired ::
      (work ++ .released handle released :: after)) = arrivals work ++ arrivals after := by
  unfold arrivals
  rw [List.filterMap_cons_none rfl, List.filterMap_cons_none rfl, List.filterMap_append,
    List.filterMap_cons_none rfl]

/-- What a failed commit of a batch comes to when the queue takes what it is offered: another
delivery, two halves, or giving up. -/
theorem settled_cases {source : Writer.Error}
    (settled : Settled settings batch attempt source deeds result)
    (favourable : ∀ deed ∈ deeds, Favourable batch deed) :
    (∃ error, result = .error error ∧ arrivals deeds = [] ∧
      (attempt < settings.retriesBeforeSplit ∨
        batch.canSplit = false ∧ attempt < settings.retriesBeforeGivingUp)) ∨
      (∃ now, result = .ok .split ∧ arrivals deeds =
          [⟨(batch.split now).1, 0⟩, ⟨(batch.split now).2, 0⟩] ∧
        settings.retriesBeforeSplit ≤ attempt ∧ batch.canSplit = true) ∨
      (result = .ok .permanentlyFailed ∧ arrivals deeds = [] ∧
        settings.retriesBeforeGivingUp ≤ attempt ∧ batch.canSplit = false) := by
  cases settled with
  | early soon => exact Or.inl ⟨_, rfl, rfl, Or.inl soon⟩
  | again late single soon => exact Or.inl ⟨_, rfl, rfl, Or.inr ⟨single, soon⟩⟩
  | firstRefused late several now refusal =>
    have accepted : (.error refusal : Except Refusal Unit) = .ok () :=
      favourable _ List.mem_cons_self
    cases accepted
  | secondRefused late several now refusal =>
    have accepted : (.error refusal : Except Refusal Unit) = .ok () :=
      favourable _ (List.mem_cons_of_mem _ List.mem_cons_self)
    cases accepted
  | split late several now => exact Or.inr (Or.inl ⟨now, rfl, rfl, late, several⟩)
  | gaveUp single last _ told =>
    refine Or.inr (Or.inr ⟨rfl, ?_, last, single⟩)
    unfold arrivals
    rw [List.filterMap_eq_nil_iff]
    intro deed member
    obtain ⟨mail, reply, rfl⟩ := told deed member
    rfl

/-- A favourable delivery commits. If the commit succeeds, so does the delivery; otherwise the
batch is delivered again, cut in two or given up. -/
theorem favourable_cases (delivered : Delivered settings batch attempt deeds result)
    (favourable : ∀ deed ∈ deeds, Favourable batch deed) :
    (∃ domains hosts, result = .ok (.succeeded domains hosts) ∧ arrivals deeds = [] ∧
      .committed (some (.ok ())) ∈ deeds) ∨
      ∃ reply?, reply? ≠ some (.ok ()) ∧ .committed reply? ∈ deeds ∧
        ((∃ error, result = .error error ∧ arrivals deeds = [] ∧
          (attempt < settings.retriesBeforeSplit ∨
            batch.canSplit = false ∧ attempt < settings.retriesBeforeGivingUp)) ∨
        (∃ now, result = .ok .split ∧ arrivals deeds =
            [⟨(batch.split now).1, 0⟩, ⟨(batch.split now).2, 0⟩] ∧
          settings.retriesBeforeSplit ≤ attempt ∧ batch.canSplit = true) ∨
        (result = .ok .permanentlyFailed ∧ arrivals deeds = [] ∧
          settings.retriesBeforeGivingUp ≤ attempt ∧ batch.canSplit = false)) := by
  cases delivered with
  | unanswered source =>
    obtain ⟨shard, _, answered⟩ := favourable _ List.mem_cons_self
    cases answered
  | misplaced configured reply stale =>
    obtain ⟨shard, resolved, answered⟩ := favourable _ List.mem_cons_self
    injection answered with same
    exact absurd same.symm (stale shard resolved)
  | unlocked shard source resolved =>
    obtain ⟨handle, answered⟩ := favourable _ (List.mem_cons_of_mem _ List.mem_cons_self)
    cases answered
  | excluded shard resolved =>
    obtain ⟨handle, answered⟩ := favourable _ (List.mem_cons_of_mem _ List.mem_cons_self)
    cases answered
  | leased shard handle work after ended? reply result resolved worked concluded =>
    have inAfter : ∀ deed ∈ after, Favourable batch deed := fun deed member =>
      favourable deed (List.mem_cons_of_mem _ (List.mem_cons_of_mem _
        (List.mem_append_right _ (List.mem_cons_of_mem _ member))))
    have noWriter : ∀ reply?, work ≠ returning batch (Name.bare batch.tld) reply? := by
      rintro reply? rfl
      have known : false = true := favourable _ (mem_of_mem_work List.mem_cons_self)
      cases known
    rw [arrivals_leased]
    rcases worked_cases worked concluded with ⟨rfl, rfl, rfl⟩ |
      ⟨reply?, source, rfl, failed, settled⟩ | ⟨unknown, _⟩ | ⟨_, unknown, _⟩ | ⟨_, unknown, _⟩
    · refine Or.inl ⟨_, _, rfl, ?_, mem_of_mem_work (committed_mem_publishing _ _ _)⟩
      rw [arrivals_publishing]
      rfl
    · refine Or.inr ⟨reply?, failed, mem_of_mem_work (committed_mem_publishing _ _ _), ?_⟩
      rw [arrivals_publishing, List.nil_append]
      exact settled_cases settled inAfter
    · exact absurd unknown (noWriter _)
    · exact absurd unknown (noWriter _)
    · exact absurd unknown (noWriter _)

end Favourable

section Climate

variable {batch : Batch} {shard : Shard} {committed? : Option (Except Writer.Error Unit)}
  {request : DeliveryCall} {deed : Deed}

/-- With steady answers for a batch's shard, and a known writer, every deed is favourable. -/
theorem favourable_of_climate
    (matching : Shard.resolve batch.lockIndex batch.lockCount = .ok shard)
    (made : deed? request (Climate.reply ⟨shard.count, true, committed?, some (.ok ())⟩ request) =
      some deed) : Favourable batch deed := by
  cases request with
  | registry request =>
    cases request with
    | shardCount tld =>
      obtain rfl := Option.some.inj made
      exact ⟨shard, matching, rfl⟩
    | requestRefresh domains hosts now =>
      obtain rfl := Option.some.inj made
      rfl
    | _ => cases made
  | acquire resource name millis =>
    obtain rfl := Option.some.inj made
    exact ⟨_, rfl⟩
  | leased request =>
    cases request with
    | createWriter writer tld =>
      obtain rfl := Option.some.inj made
      rfl
    | requestRefresh domains hosts now =>
      obtain rfl := Option.some.inj made
      rfl
    | count event =>
      cases event with
      | domains | hosts =>
        obtain rfl := Option.some.inj made
        trivial
      | _ => cases made
    | now => cases made
    | stageDomain | stageHost | commit =>
      obtain rfl := Option.some.inj made
      trivial
  | enqueue other =>
    obtain rfl := Option.some.inj made
    rfl
  | release | send =>
    obtain rfl := Option.some.inj made
    trivial
  | startDeadline | now | count => cases made

/-- With steady answers every commit ends in the same way. -/
theorem committed_of_climate {climate : Climate} {reply? : Option (Except Writer.Error Unit)}
    (made : deed? request (climate.reply request) = some (.committed reply?)) :
    reply? = climate.committed? := by
  cases request with
  | registry request => cases request <;> cases made
  | leased request =>
    cases request with
    | commit =>
      injection made with same
      injection same with same
      exact same.symm
    | count event => cases event <;> cases made
    | _ => cases made
  | _ => cases made

end Climate

/-! ### The queue -/

/-- A delivery that was the last of its batch, with what it did and how it ended. -/
structure Ended where
  batch : Batch
  attempt : Nat
  deeds : List Deed
  outcome : Outcome

/-- The last delivery of a batch succeeded, or gave up its only name at the last attempt, where
the commit of that name failed. -/
def Ended.Isolated (settings : Settings) (ended : Ended) : Prop :=
  Does (Delivery.publish settings ended.batch ended.attempt) ended.deeds (.ok ended.outcome) ∧
    ((∃ domains hosts, ended.outcome = .succeeded domains hosts) ∨
      ended.outcome = .permanentlyFailed ∧ ended.batch.itemCount = 1 ∧
        ended.attempt = settings.retriesBeforeGivingUp ∧
        ∃ reply?, reply? ≠ some (.ok ()) ∧ .committed reply? ∈ ended.deeds)

/-- The batches that wait to be delivered, and the deliveries that were the last of theirs. -/
structure Queue where
  waiting : List Waiting
  ended : List Ended

namespace Queue

/-- A queue that holds one batch, which was never delivered. -/
def start (batch : Batch) : Queue := ⟨[⟨batch, 0⟩], []⟩

/-- A favourable delivery of a batch that waits. What it puts into the queue waits as well. -/
inductive Step (settings : Settings) (task : Waiting) (deeds : List Deed) : Queue → Queue → Prop
  | again (before after : List Waiting) (ended : List Ended) (error : Error)
      (done : Does (Delivery.publish settings task.batch task.attempt) deeds (.error error))
      (favourable : ∀ deed ∈ deeds, Favourable task.batch deed) :
    Step settings task deeds ⟨before ++ task :: after, ended⟩
      ⟨before ++ ⟨task.batch, task.attempt + 1⟩ :: (after ++ arrivals deeds), ended⟩
  | cut (before after : List Waiting) (ended : List Ended)
      (done : Does (Delivery.publish settings task.batch task.attempt) deeds (.ok .split))
      (favourable : ∀ deed ∈ deeds, Favourable task.batch deed) :
    Step settings task deeds ⟨before ++ task :: after, ended⟩
      ⟨before ++ (after ++ arrivals deeds), ended⟩
  | last (before after : List Waiting) (ended : List Ended) (outcome : Outcome)
      (whole : outcome ≠ .split)
      (done : Does (Delivery.publish settings task.batch task.attempt) deeds (.ok outcome))
      (favourable : ∀ deed ∈ deeds, Favourable task.batch deed) :
    Step settings task deeds ⟨before ++ task :: after, ended⟩
      ⟨before ++ (after ++ arrivals deeds), ended ++ [⟨task.batch, task.attempt, deeds, outcome⟩]⟩

/-- So many deliveries, of any batches in any order. -/
inductive Steps (settings : Settings) : Nat → Queue → Queue → Prop
  | none (queue : Queue) : Steps settings 0 queue queue
  | more {count : Nat} {first next last : Queue} {task : Waiting} {deeds : List Deed}
      (steps : Steps settings count first next) (step : Step settings task deeds next last) :
    Steps settings (count + 1) first last

/-! ### Allowances -/

/-- How many deliveries a fresh batch of so many names can take, its halves included. -/
def allowance (settings : Settings) (items : Nat) : Nat :=
  items * (settings.retriesBeforeGivingUp + 1) + (items - 1) * (settings.retriesBeforeSplit + 1)

/-- What is left of the allowance of a batch that waits. -/
def remaining (settings : Settings) (task : Waiting) : Nat :=
  allowance settings task.batch.itemCount - task.attempt

/-- What is left of the allowances of all batches that wait. -/
def outstanding (settings : Settings) : List Waiting → Nat
  | [] => 0
  | task :: others => remaining settings task + outstanding settings others

theorem outstanding_append (settings : Settings) (some others : List Waiting) :
    outstanding settings (some ++ others) =
      outstanding settings some + outstanding settings others := by
  induction some with
  | nil => exact (Nat.zero_add _).symm
  | cons task rest inductionHypothesis =>
    rw [List.cons_append, outstanding, outstanding, inductionHypothesis, Nat.add_assoc]

/-- What is left to a queue. -/
def budget (settings : Settings) (queue : Queue) : Nat :=
  outstanding settings queue.waiting

/-- The halves of a batch have its allowance between them, but for the deliveries that it took to
come to cutting it and the one that did. -/
theorem allowance_add (settings : Settings) (first second : Nat) (some : 1 ≤ first)
    (others : 1 ≤ second) :
    allowance settings (first + second) =
      allowance settings first + allowance settings second + (settings.retriesBeforeSplit + 1) := by
  obtain ⟨first, rfl⟩ := Nat.exists_eq_add_of_le some
  obtain ⟨second, rfl⟩ := Nat.exists_eq_add_of_le others
  unfold allowance
  rw [show 1 + first + (1 + second) - 1 = first + second + 1 by omega,
    show 1 + first - 1 = first by omega, show 1 + second - 1 = second by omega]
  simp only [Nat.add_mul, Nat.one_mul]
  omega

/-! ### What every delivery preserves -/

/-- A batch that waits holds some name, belongs to the shard, and was not delivered more often
than it may be. -/
structure Sound (settings : Settings) (batch : Batch) (task : Waiting) : Prop where
  items : 1 ≤ task.batch.itemCount
  place : task.batch.lockIndex = batch.lockIndex ∧ task.batch.lockCount = batch.lockCount
  several : task.batch.canSplit = true → task.attempt ≤ settings.retriesBeforeSplit
  single : task.batch.canSplit = false → task.attempt ≤ settings.retriesBeforeGivingUp

/-- All that one delivery can do to a queue. -/
theorem step_cases {settings : Settings} {task : Waiting} {deeds : List Deed} {queue next : Queue}
    (step : Step settings task deeds queue next) :
    ∃ before after ended, queue = ⟨before ++ task :: after, ended⟩ ∧
      ((next = ⟨before ++ ⟨task.batch, task.attempt + 1⟩ :: after, ended⟩ ∧
        (task.attempt < settings.retriesBeforeSplit ∨
          task.batch.canSplit = false ∧ task.attempt < settings.retriesBeforeGivingUp)) ∨
      (∃ now, next = ⟨before ++ (after ++ [⟨(task.batch.split now).1, 0⟩,
          ⟨(task.batch.split now).2, 0⟩]), ended⟩ ∧
        settings.retriesBeforeSplit ≤ task.attempt ∧ task.batch.canSplit = true) ∨
      (∃ outcome,
        next = ⟨before ++ after, ended ++ [⟨task.batch, task.attempt, deeds, outcome⟩]⟩ ∧
        Does (Delivery.publish settings task.batch task.attempt) deeds (.ok outcome) ∧
        ((∃ domains hosts, outcome = .succeeded domains hosts) ∨
          outcome = .permanentlyFailed ∧ settings.retriesBeforeGivingUp ≤ task.attempt ∧
            task.batch.canSplit = false ∧
            ∃ reply?, reply? ≠ some (.ok ()) ∧ .committed reply? ∈ deeds))) := by
  cases step with
  | again before after ended error done favourable =>
    refine ⟨before, after, ended, rfl, Or.inl ?_⟩
    rcases favourable_cases (delivered_of_does done) favourable with ⟨_, _, impossible, _⟩ |
      ⟨_, _, _, ⟨_, _, none, soon⟩ | ⟨_, impossible, _⟩ | ⟨impossible, _⟩⟩
    · cases impossible
    · rw [none, List.append_nil]
      exact ⟨rfl, soon⟩
    · cases impossible
    · cases impossible
  | cut before after ended done favourable =>
    refine ⟨before, after, ended, rfl, Or.inr (Or.inl ?_)⟩
    rcases favourable_cases (delivered_of_does done) favourable with ⟨_, _, impossible, _⟩ |
      ⟨_, _, _, ⟨_, impossible, _⟩ | ⟨now, _, halves, late, several⟩ | ⟨impossible, _⟩⟩
    · cases impossible
    · cases impossible
    · rw [halves]
      exact ⟨now, rfl, late, several⟩
    · cases impossible
  | last before after ended outcome whole done favourable =>
    refine ⟨before, after, ended, rfl, Or.inr (Or.inr ⟨outcome, ?_⟩)⟩
    rcases favourable_cases (delivered_of_does done) favourable with
      ⟨domains, hosts, same, none, _⟩ | ⟨reply?, failed, committed, ⟨_, impossible, _⟩ |
        ⟨_, same, _⟩ | ⟨same, none, late, single⟩⟩
    · cases same
      rw [none, List.append_nil]
      exact ⟨rfl, done, Or.inl ⟨domains, hosts, rfl⟩⟩
    · cases impossible
    · cases same
      exact absurd rfl whole
    · cases same
      rw [none, List.append_nil]
      exact ⟨rfl, done, Or.inr ⟨rfl, late, single, reply?, failed, committed⟩⟩

section Preservation

variable {settings : Settings} {batch : Batch} {task : Waiting} {deeds : List Deed}
  {queue next : Queue}

/-- Names of a kind in the queue, those of batches that wait and those of ended deliveries. -/
def names (kind : Batch → List String) (queue : Queue) : List String :=
  queue.waiting.flatMap (fun task => kind task.batch) ++
    queue.ended.flatMap fun ended => kind ended.batch

/-- No delivery loses or doubles a name of a kind that halves hold between them. -/
theorem names_of_step (kind : Batch → List String)
    (halved : ∀ (batch : Batch) (now : Instant),
      kind (batch.split now).1 ++ kind (batch.split now).2 = kind batch)
    (step : Step settings task deeds queue next) : (next.names kind).Perm (queue.names kind) := by
  obtain ⟨before, after, ended, rfl, ⟨rfl, _⟩ | ⟨now, rfl, _⟩ | ⟨outcome, rfl, _⟩⟩ :=
    step_cases step
  · unfold names
    rw [List.flatMap_append, List.flatMap_append, List.flatMap_cons, List.flatMap_cons]
  · unfold names
    rw [List.flatMap_append, List.flatMap_append, List.flatMap_append, List.flatMap_cons,
      List.flatMap_cons, List.flatMap_cons, List.flatMap_nil, List.append_nil, halved]
    exact (List.perm_append_comm.append_left _).append_right _
  · unfold names
    rw [List.flatMap_append, List.flatMap_append, List.flatMap_append, List.flatMap_cons,
      List.flatMap_cons, List.flatMap_nil, List.append_nil, List.append_assoc, List.append_assoc,
      List.append_assoc]
    -- The names of the task move from between the others to the end.
    refine List.Perm.append_left _ ?_
    rw [← List.append_assoc]
    exact List.perm_append_comm

/-- A delivery leaves sound what waits, if splitting comes before giving up. -/
theorem sound_of_step (ordered : settings.retriesBeforeSplit ≤ settings.retriesBeforeGivingUp)
    (sound : ∀ task ∈ queue.waiting, Sound settings batch task)
    (step : Step settings task deeds queue next) :
    ∀ task ∈ next.waiting, Sound settings batch task := by
  obtain ⟨before, after, ended, rfl, ⟨rfl, soon⟩ | ⟨now, rfl, _, several⟩ |
    ⟨outcome, rfl, _⟩⟩ := step_cases step
  · have own := sound task (List.mem_append_right _ List.mem_cons_self)
    have next : Sound settings batch ⟨task.batch, task.attempt + 1⟩ := by
      refine ⟨own.items, own.place, fun several => ?_, fun single => ?_⟩
      · rcases soon with soon | ⟨single, _⟩
        · exact soon
        · rw [show task.batch.canSplit = true from several] at single
          cases single
      · rcases soon with soon | ⟨_, soon⟩
        · exact Nat.le_trans soon ordered
        · exact soon
    intro other member
    rcases List.mem_append.mp member with earlier | member
    · exact sound other (List.mem_append_left _ earlier)
    · rcases List.mem_cons.mp member with rfl | later
      · exact next
      · exact sound other (List.mem_append_right _ (List.mem_cons_of_mem _ later))
  · have own := sound task (List.mem_append_right _ List.mem_cons_self)
    have halves := halves_split task.batch now
    have items := itemCount_split task.batch now several
    intro other member
    rcases List.mem_append.mp member with earlier | member
    · exact sound other (List.mem_append_left _ earlier)
    · rcases List.mem_append.mp member with later | half
      · exact sound other (List.mem_append_right _ (List.mem_cons_of_mem _ later))
      · simp only [List.mem_cons, List.not_mem_nil, or_false] at half
        rcases half with rfl | rfl
        · exact ⟨items.1, ⟨halves.lockIndex.1.trans own.place.1,
            halves.lockCount.1.trans own.place.2⟩, fun _ => Nat.zero_le _, fun _ => Nat.zero_le _⟩
        · exact ⟨items.2.1, ⟨halves.lockIndex.2.trans own.place.1,
            halves.lockCount.2.trans own.place.2⟩, fun _ => Nat.zero_le _, fun _ => Nat.zero_le _⟩
  · intro other member
    rcases List.mem_append.mp member with earlier | later
    · exact sound other (List.mem_append_left _ earlier)
    · exact sound other (List.mem_append_right _ (List.mem_cons_of_mem _ later))

/-- A batch that waits is to be delivered less often than its allowance. -/
theorem Sound.attempt_lt (ordered : settings.retriesBeforeSplit ≤ settings.retriesBeforeGivingUp)
    (sound : Sound settings batch task) :
    task.attempt < allowance settings task.batch.itemCount := by
  have tried : task.attempt ≤ settings.retriesBeforeGivingUp := by
    cases several : task.batch.canSplit with
    | true => exact Nat.le_trans (sound.several several) ordered
    | false => exact sound.single several
  calc task.attempt < 1 * (settings.retriesBeforeGivingUp + 1) := by omega
    _ ≤ task.batch.itemCount * (settings.retriesBeforeGivingUp + 1) :=
        Nat.mul_le_mul_right _ sound.items
    _ ≤ allowance settings task.batch.itemCount := Nat.le_add_right _ _

/-- A delivery uses up some of what is left to the queue. -/
theorem budget_of_step (ordered : settings.retriesBeforeSplit ≤ settings.retriesBeforeGivingUp)
    (sound : ∀ task ∈ queue.waiting, Sound settings batch task)
    (step : Step settings task deeds queue next) :
    next.budget settings + 1 ≤ queue.budget settings := by
  obtain ⟨before, after, ended, rfl, rest⟩ := step_cases step
  have own := sound task (List.mem_append_right _ List.mem_cons_self)
  have tried := own.attempt_lt ordered
  rcases rest with ⟨rfl, _⟩ | ⟨now, rfl, _, several⟩ | ⟨outcome, rfl, _⟩
  · simp only [budget, outstanding_append, outstanding, remaining]
    omega
  · obtain ⟨some, others, all⟩ := itemCount_split task.batch now several
    have halves := allowance_add settings _ _ some others
    rw [all] at halves
    have early := own.several several
    simp only [budget, outstanding_append, outstanding, remaining]
    omega
  · simp only [budget, outstanding_append, outstanding, remaining]
    omega

/-- A delivery that is the last of its batch isolates what it gives up. -/
theorem isolated_of_step (sound : ∀ task ∈ queue.waiting, Sound settings batch task)
    (isolated : ∀ ended ∈ queue.ended, ended.Isolated settings)
    (step : Step settings task deeds queue next) :
    ∀ ended ∈ next.ended, ended.Isolated settings := by
  obtain ⟨before, after, ended, rfl, ⟨rfl, _⟩ | ⟨now, rfl, _⟩ | ⟨outcome, rfl, done, how⟩⟩ :=
    step_cases step
  · exact isolated
  · exact isolated
  · have own := sound task (List.mem_append_right _ List.mem_cons_self)
    intro other member
    rcases List.mem_append.mp member with earlier | new
    · exact isolated other earlier
    · obtain rfl := List.mem_singleton.mp new
      refine ⟨done, how.imp_right ?_⟩
      rintro ⟨givenUp, late, single, failed⟩
      have few : ¬ 1 < task.batch.itemCount := of_decide_eq_false single
      exact ⟨givenUp, Nat.le_antisymm (Nat.not_lt.mp few) own.items,
        Nat.le_antisymm (own.single single) late, failed⟩

end Preservation

/-! ### Whole runs -/

/-- What holds after so many deliveries, in any order and with commits that fail as they like. -/
structure Lawful (settings : Settings) (batch : Batch) (count : Nat) (queue : Queue) : Prop where
  sound : ∀ task ∈ queue.waiting, Sound settings batch task
  domains : (queue.names (·.domains)).Perm batch.domains
  hosts : (queue.names (·.hosts)).Perm batch.hosts
  isolated : ∀ ended ∈ queue.ended, ended.Isolated settings
  within : count + queue.budget settings ≤ allowance settings batch.itemCount

section Runs

variable {settings : Settings} {batch : Batch}

theorem lawful_start (items : 1 ≤ batch.itemCount) : Lawful settings batch 0 (start batch) where
  sound := by
    intro task member
    obtain rfl := List.mem_singleton.mp member
    exact ⟨items, ⟨rfl, rfl⟩, fun _ => Nat.zero_le _, fun _ => Nat.zero_le _⟩
  domains := by
    show ((batch.domains ++ []) ++ []).Perm _
    rw [List.append_nil, List.append_nil]
  hosts := by
    show ((batch.hosts ++ []) ++ []).Perm _
    rw [List.append_nil, List.append_nil]
  isolated := List.forall_mem_nil _
  within := by
    show 0 + (allowance settings batch.itemCount - 0 + 0) ≤ _
    omega

theorem lawful_of_steps (ordered : settings.retriesBeforeSplit ≤ settings.retriesBeforeGivingUp)
    (items : 1 ≤ batch.itemCount) {count : Nat} {queue : Queue}
    (steps : Steps settings count (start batch) queue) : Lawful settings batch count queue := by
  generalize begun : start batch = first at steps
  induction steps with
  | none =>
    subst begun
    exact lawful_start items
  | more _ step inductionHypothesis =>
    have before := inductionHypothesis begun
    refine ⟨sound_of_step ordered before.sound step, ?_, ?_,
      isolated_of_step before.sound before.isolated step, ?_⟩
    · exact (names_of_step _ (fun batch now => (halves_split batch now).domains) step).trans
        before.domains
    · exact (names_of_step _ (fun batch now => (halves_split batch now).hosts) step).trans
        before.hosts
    · have spent := budget_of_step ordered before.sound step
      have within := before.within
      omega

/-- Any batch that waits can be delivered, and its commit can be answered in any way. -/
theorem exists_step {shard : Shard}
    (matching : Shard.resolve batch.lockIndex batch.lockCount = .ok shard) {queue : Queue}
    {task : Waiting} (waits : task ∈ queue.waiting) (sound : Sound settings batch task)
    (reply? : Option (Except Writer.Error Unit)) :
    ∃ deeds next, Step settings task deeds queue next ∧ .committed reply? ∈ deeds := by
  let climate : Climate := ⟨shard.count, true, reply?, some (.ok ())⟩
  let delivery := Delivery.publish settings task.batch task.attempt
  let deeds := ledger (delivery.trace climate.reply)
  have done : Does delivery deeds (delivery.answered climate.reply) := ⟨_, runs_trace _ _, rfl⟩
  have favourable : ∀ deed ∈ deeds, Favourable task.batch deed := by
    refine forall_mem_ledger_trace fun request deed made => ?_
    rw [← sound.place.1, ← sound.place.2] at matching
    exact favourable_of_climate matching made
  have answered : ∀ deed ∈ deeds, ∀ other?, deed = .committed other? → other? = reply? := by
    refine forall_mem_ledger_trace fun request deed made other? committed => ?_
    subst committed
    exact committed_of_climate made
  obtain ⟨before, after, split⟩ := List.append_of_mem waits
  obtain ⟨waiting, ended⟩ := queue
  obtain rfl : waiting = before ++ task :: after := split
  have committed : .committed reply? ∈ deeds := by
    rcases favourable_cases (delivered_of_does done) favourable with ⟨_, _, _, _, committed⟩ |
      ⟨other?, _, committed, _⟩
    · exact answered _ committed _ rfl ▸ committed
    · exact answered _ committed _ rfl ▸ committed
  generalize delivery.answered climate.reply = result at done
  rcases result with error | outcome
  · exact ⟨deeds, _, .again before after ended error done favourable, committed⟩
  · by_cases cut : outcome = .split
    · subst cut
      exact ⟨deeds, _, .cut before after ended done favourable, committed⟩
    · exact ⟨deeds, _, .last before after ended outcome cut done favourable, committed⟩

/-- Deliveries can go on until nothing waits. -/
theorem exists_drained {shard : Shard}
    (ordered : settings.retriesBeforeSplit ≤ settings.retriesBeforeGivingUp)
    (matching : Shard.resolve batch.lockIndex batch.lockCount = .ok shard)
    (items : 1 ≤ batch.itemCount) :
    ∃ count queue, Steps settings count (start batch) queue ∧ queue.waiting = [] := by
  -- By induction on what is left to a queue that deliveries lead to.
  suffices onwards : ∀ left count queue, queue.budget settings = left →
      Steps settings count (start batch) queue →
      ∃ count queue, Steps settings count (start batch) queue ∧ queue.waiting = [] from
    onwards _ 0 (start batch) rfl (.none _)
  intro left
  induction left using Nat.strongRecOn with
  | ind left inductionHypothesis =>
    intro count queue spent steps
    have lawful := lawful_of_steps ordered items steps
    cases waiting : queue.waiting with
    | nil => exact ⟨count, queue, steps, waiting⟩
    | cons task others =>
      have waits : task ∈ queue.waiting := waiting ▸ List.mem_cons_self
      obtain ⟨deeds, next, step, _⟩ := exists_step matching waits (lawful.sound task waits) none
      have used := budget_of_step ordered lawful.sound step
      exact inductionHypothesis _ (by omega) _ next rfl (.more steps step)

/-- Cutting failing batches in two ends, and isolates what fails. Deliver a batch of at least one
name, and whatever that puts into the queue, in any order, where the writer is known, the shard is
the configured one, the registry, the locks and the queue do not fail, and every commit ends as
it likes. Then there are at most so many deliveries; until nothing waits, every batch that waits
can be delivered, however its commit ends; once nothing waits, each name of the batch is in
exactly one delivery that was the last of its batch; and such a delivery succeeded, or gave up a
single name whose commit failed at the last attempt. -/
theorem drains_and_isolates (settings : Settings) (batch : Batch) (shard : Shard) (count : Nat)
    (queue : Queue) (ordered : settings.retriesBeforeSplit ≤ settings.retriesBeforeGivingUp)
    (matching : Shard.resolve batch.lockIndex batch.lockCount = .ok shard)
    (items : 1 ≤ batch.itemCount) (steps : Steps settings count (start batch) queue) :
    count ≤ batch.itemCount * (settings.retriesBeforeGivingUp + 1) +
        (batch.itemCount - 1) * (settings.retriesBeforeSplit + 1) ∧
      (∀ task ∈ queue.waiting, ∀ reply?, ∃ deeds next,
        Step settings task deeds queue next ∧ .committed reply? ∈ deeds) ∧
      (queue.waiting = [] →
        (queue.ended.flatMap fun ended => ended.batch.domains).Perm batch.domains ∧
        (queue.ended.flatMap fun ended => ended.batch.hosts).Perm batch.hosts) ∧
      ∀ ended ∈ queue.ended, ended.Isolated settings := by
  have lawful := lawful_of_steps ordered items steps
  refine ⟨Nat.le_trans (Nat.le_add_right _ _) lawful.within, fun task waits reply? => ?_,
    fun drained => ⟨?_, ?_⟩, lawful.isolated⟩
  · exact exists_step matching waits (lawful.sound task waits) reply?
  · have kept := lawful.domains
    rwa [names, drained, List.flatMap_nil, List.nil_append] at kept
  · have kept := lawful.hosts
    rwa [names, drained, List.flatMap_nil, List.nil_append] at kept

end Runs

/-! ### A domain with a host -/

/-- Settings under which a batch is cut at its fourth delivery and given up at its
twenty-first. -/
def exampleSettings : Settings where
  leaseSeconds := 180
  retriesBeforeSplit := 3
  retriesBeforeGivingUp := 20
  mail := ⟨"DNS update failed", "", "Example Registry", "support@registry.test",
    "ops@registry.test"⟩

/-- A domain with its host, which halving each list on its own would never part. -/
def examplePair : Batch where
  tld := "test"
  writer := "PowerDnsWriter"
  lockIndex := 1
  lockCount := 1
  domains := ["d1.test"]
  hosts := ["ns1.d1.test"]
  enqueuedAt := ⟨1748779170, 0⟩
  itemsCreatedAt := ⟨1748779080, 0⟩

/-- Deliveries of that batch lead to a queue where nothing waits. -/
theorem drained_examplePair :
    ∃ count queue, Steps exampleSettings count (start examplePair) queue ∧ queue.waiting = [] ∧
      count ≤ 46 ∧ (queue.ended.flatMap fun ended => ended.batch.domains).Perm ["d1.test"] ∧
      (queue.ended.flatMap fun ended => ended.batch.hosts).Perm ["ns1.d1.test"] ∧
      ∀ ended ∈ queue.ended, ended.Isolated exampleSettings := by
  have ordered : exampleSettings.retriesBeforeSplit ≤ exampleSettings.retriesBeforeGivingUp := by
    decide
  have matching : Shard.resolve examplePair.lockIndex examplePair.lockCount =
      .ok ⟨1, 1, by decide, by decide, by decide⟩ := rfl
  have items : 1 ≤ examplePair.itemCount := by decide
  obtain ⟨count, queue, steps, drained⟩ := exists_drained ordered matching items
  obtain ⟨few, _, whole, isolated⟩ :=
    drains_and_isolates _ _ _ count queue ordered matching items steps
  exact ⟨count, queue, steps, drained, few, (whole drained).1, (whole drained).2, isolated⟩

end Queue

end Zonecast.Publish
