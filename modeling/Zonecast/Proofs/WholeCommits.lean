/-
A commit is made whole or not at all. It takes one of four courses: a lookup fails; the names come
to no change; the zone is not resolved; or the changes are sent in one patch, which is the last call
and decides how the commit ends. Only the last two get as far as the backend, and until the patch is
taken no record beside the zone's apex changes. A writer that has committed, with success or
without, does so never again.
-/
import Zonecast.Proofs.SparedRecords

namespace Zonecast

/-- No path of a process goes on where another one ends. -/
theorem Process.Runs.eq_nil_of_append {I : Interface} {α : Type} {process : Process I α}
    {path more : List (Process.Exchange I)} {result other : α}
    (run : Process.Runs process path result)
    (longer : Process.Runs process (path ++ more) other) : more = [] ∧ other = result := by
  induction run with
  | done value => exact Process.runs_done.mp longer
  | call rest inductionHypothesis =>
    obtain ⟨reply, exchanges, same, along⟩ := Process.runs_call.mp longer
    injection same with head tail
    cases head
    subst tail
    exact inductionHypothesis along

namespace Writer

open Backend Process Zone

/-! ### Failed lookups -/

/-- A lookup that failed. -/
def IsFailedLookup (exchange : Exchange Commit) : Prop :=
  ∃ request error, exchange = (⟨.registry request, .error error⟩ : Exchange Commit)

/-- The part ends well only if none of its lookups failed. -/
def Heeds {α : Type} (step : Step α) : Prop :=
  ∀ path value, Runs step.run path (.ok value) → ∀ exchange ∈ path, ¬IsFailedLookup exchange

section Heeds

variable {α β : Type}

theorem heeds_pure (value : α) : Heeds (pure value : Step α) := by
  intro path result run exchange member
  rw [(runs_done.mp run).1] at member
  cases member

theorem heeds_bind {step : Step α} {next : α → Step β} (first : Heeds step)
    (rest : ∀ value, Heeds (next value)) : Heeds (step >>= next) := by
  intro path result run exchange member
  obtain ⟨before, value, after, rfl, ahead, behind⟩ := ZoneWriter.runs_ok_bind run
  rcases List.mem_append.mp member with earlier | later
  · exact first _ _ ahead _ earlier
  · exact rest value _ _ behind _ later

theorem heeds_lookup (request : Registry.Call) : Heeds (lookup request) := by
  intro path value run exchange member
  obtain ⟨reply, rest, rfl, last⟩ := runs_call.mp run
  obtain ⟨rfl, same⟩ := runs_done.mp last
  obtain rfl := List.mem_singleton.mp member
  rintro ⟨other, error, failed⟩
  cases failed
  cases same

theorem heeds_loadHosts (names : List String) : Heeds (ZoneWriter.loadHosts names) := by
  induction names with
  | nil => exact heeds_pure _
  | cons name rest inductionHypothesis =>
    exact heeds_bind (heeds_lookup _) fun _ => heeds_bind inductionHypothesis fun _ => heeds_pure _

theorem heeds_operationsOf (ttls : TimesToLive) (names : List String) :
    Heeds (ZoneWriter.operationsOf ttls names) := by
  induction names with
  | nil => exact heeds_pure _
  | cons name rest inductionHypothesis =>
    refine heeds_bind (heeds_bind (heeds_lookup _) fun _ => ?_) fun _ =>
      heeds_bind inductionHypothesis fun _ => heeds_pure _
    exact heeds_bind (heeds_loadHosts _) fun _ => heeds_pure _

theorem heeds_collectChanges (ttls : TimesToLive) (writer : ZoneWriter) :
    Heeds (writer.collectChanges ttls) :=
  heeds_bind (heeds_operationsOf ttls _) fun _ => heeds_pure _

end Heeds

/-! ### Courses -/

/-- The calls of a commit and how it ends. -/
inductive Course (settings : Settings) (writer : ZoneWriter) :
    List (Exchange Commit) → Except Error Unit → Prop
  | unread {lookups : List (Exchange Commit)} {error : Error}
      (looked : Runs (writer.collectChanges settings.ttls).run lookups (.error error)) :
      Course settings writer lookups (.error error)
  | unchanged {lookups : List (Exchange Commit)}
      (looked : Runs (writer.collectChanges settings.ttls).run lookups (.ok [])) :
      Course settings writer lookups (.ok ())
  | unresolved {lookups resolving : List (Exchange Commit)} {changes : List Change} {error : Error}
      (looked : Runs (writer.collectChanges settings.ttls).run lookups (.ok changes))
      (some : changes ≠ [])
      (resolved : Runs (resolve settings.defaults writer.zone).run resolving (.error error)) :
      Course settings writer (lookups ++ resolving) (.error error)
  | patched {lookups resolving : List (Exchange Commit)} {changes : List Change} {zone : String}
      (looked : Runs (writer.collectChanges settings.ttls).run lookups (.ok changes))
      (some : changes ≠ [])
      (resolved : Runs (resolve settings.defaults writer.zone).run resolving (.ok zone))
      (reply : Except Backend.Error Unit) :
      Course settings writer
        (lookups ++ resolving ++ [⟨.patch zone (changes.map Change.toRecordSet), reply⟩])
        (reply.mapError .patch)

section Courses

variable {settings : Settings} {writer after : ZoneWriter} {path : List (Exchange Commit)}
  {result : Except Error Unit}

theorem course_of_runs_publish (run : Runs (writer.publish settings).run path result) :
    Course settings writer path result := by
  rw [ZoneWriter.publish, run_bind] at run
  obtain ⟨lookups, found, rest, rfl, looked, following⟩ := runs_bind.mp run
  cases found with
  | error error =>
    obtain ⟨rfl, rfl⟩ := runs_done.mp following
    rw [List.append_nil]
    exact .unread looked
  | ok changes =>
    dsimp only at following
    split at following
    · rename_i empty
      obtain ⟨rfl, rfl⟩ := runs_done.mp following
      rw [List.append_nil]
      exact .unchanged (List.isEmpty_iff.mp empty ▸ looked)
    · rename_i nonempty
      have some : changes ≠ [] := fun empty => nonempty (List.isEmpty_iff.mpr empty)
      rw [run_bind] at following
      obtain ⟨resolving, zone?, patching, rfl, resolved, last⟩ := runs_bind.mp following
      cases zone? with
      | error error =>
        obtain ⟨rfl, rfl⟩ := runs_done.mp last
        rw [List.append_nil]
        exact .unresolved looked some resolved
      | ok zone =>
        obtain ⟨reply, others, rfl, ends⟩ := runs_call.mp last
        obtain ⟨rfl, rfl⟩ := runs_done.mp ends
        rw [← List.append_assoc]
        exact .patched looked some resolved reply

theorem course_of_runs (fresh : writer.committed = false)
    (run : Runs (writer.commit settings) path (result, after)) :
    Course settings writer path result ∧ after = { writer with committed := true } := by
  have commit : writer.commit settings = (writer.publish settings).run.bind fun result =>
      .done (result, { writer with committed := true }) := by
    rw [ZoneWriter.commit, fresh]
    rfl
  rw [commit] at run
  obtain ⟨calls, outcome, rest, rfl, publishing, last⟩ := runs_bind.mp run
  obtain ⟨rfl, same⟩ := runs_done.mp last
  injection same with same final
  subst same
  rw [List.append_nil]
  exact ⟨course_of_runs_publish publishing, final⟩

theorem lookup_of_looked {found : Except Error (List Change)}
    (looked : Runs (writer.collectChanges settings.ttls).run path found) :
    ∀ exchange ∈ path, isLookup exchange.request :=
  kind_of_mem (ZoneWriter.only_collectChanges settings.ttls writer) looked

/-- A lookup sends no patch and does not go to the backend. -/
theorem elsewhere_of_lookup {request : CommitCall} (lookup : isLookup request) :
    patch? request = none ∧ ¬ReachesBackend request := by
  cases request with
  | registry => exact ⟨rfl, id⟩
  | directory | patch => exact lookup.elim

/-- Neither looking up nor resolving sends a patch. -/
theorem patch?_eq_none {changes : Except Error (List Change)} {found : Except Error String}
    {lookups resolving : List (Exchange Commit)} {zone : String}
    (looked : Runs (writer.collectChanges settings.ttls).run lookups changes)
    (resolved : Runs (resolve settings.defaults zone).run resolving found) :
    ∀ exchange ∈ lookups ++ resolving, patch? exchange.request = none := by
  refine List.forall_mem_append.mpr ⟨fun exchange member => ?_, fun exchange member => ?_⟩
  · exact (elsewhere_of_lookup (lookup_of_looked looked exchange member)).1
  · obtain ⟨inner, same⟩ := directory_of_resolved resolved exchange member
    rw [same]
    rfl

theorem not_isTaken {exchange : Exchange Commit} (none : patch? exchange.request = none) :
    ¬IsTaken exchange := by
  rintro ⟨zone, sets, rfl⟩
  cases none

/-- Where the names come to changes, no lookup has failed. -/
theorem not_isFailedLookup {changes : List Change} {found : Except Error String}
    {lookups resolving : List (Exchange Commit)} {zone : String}
    (looked : Runs (writer.collectChanges settings.ttls).run lookups (.ok changes))
    (resolved : Runs (resolve settings.defaults zone).run resolving found) :
    ∀ exchange ∈ lookups ++ resolving, ¬IsFailedLookup exchange := by
  intro exchange member
  rcases List.mem_append.mp member with earlier | later
  · exact heeds_collectChanges settings.ttls writer _ _ looked exchange earlier
  · obtain ⟨inner, same⟩ := directory_of_resolved resolved exchange later
    rintro ⟨request, error, rfl⟩
    cases same

end Courses

/-! ### All or nothing -/

/-- What becomes of a writer that has more names staged on it and is committed again. -/
inductive Later (writer : ZoneWriter) : ZoneWriter → Prop
  | itself : Later writer writer
  | staged {later : ZoneWriter} (since : Later writer later) (staging : Staging) :
    Later writer (staging.onto later)
  | committed {later next : ZoneWriter} {settings : Settings} {path : List (Exchange Commit)}
      {result : Except Error Unit} (since : Later writer later)
      (run : Runs (later.commit settings) path (result, next)) : Later writer next

/-- A commit is made whole or not at all. -/
structure AllOrNothing (settings : Settings) (writer : ZoneWriter) (path : List (Exchange Commit))
    (result : Except Error Unit) (after : ZoneWriter) : Prop where
  /-- If a lookup fails, no call goes to the backend. -/
  unread : (∃ exchange ∈ path, IsFailedLookup exchange) →
    ∀ exchange ∈ path, ¬ReachesBackend exchange.request
  /-- There is no patch, or a single one, which is the last call and sends all the changes. -/
  once : patches path = [] ∨ ∃ lookups resolving changes zone reply,
    path = lookups ++ resolving ++ [⟨.patch zone (changes.map Change.toRecordSet), reply⟩] ∧
      Runs (writer.collectChanges settings.ttls).run lookups (.ok changes) ∧
        Runs (resolve settings.defaults writer.zone).run resolving (.ok zone) ∧
          patches (lookups ++ resolving) = []
  /-- The commit succeeds just if there is nothing to change or the patch is taken. -/
  succeeds : result = .ok () ↔ Runs (writer.collectChanges settings.ttls).run path (.ok []) ∨
    ∃ exchange ∈ path, IsTaken exchange
  /-- Whatever comes of the calls made so far, while the patch is not taken the records beside the
  zone's apex are as they were. -/
  meanwhile : ∀ made rest before now, path = made ++ rest → WellKept writer.zone before →
    Effects made before now → (∀ exchange ∈ made, ¬IsTaken exchange) →
      Spared writer.zone before now
  /-- So they are once the commit has failed. -/
  failed : ∀ error before now, result = .error error → WellKept writer.zone before →
    Effects path before now → Spared writer.zone before now
  /-- The writer makes no further call. -/
  closed : ∀ later, Later after later → ∀ settings path outcome,
    Runs (later.commit settings) path outcome →
      path = [] ∧ outcome = (.error .alreadyCommitted, later)

section Commits

variable {settings : Settings} {writer after : ZoneWriter} {path : List (Exchange Commit)}
  {result : Except Error Unit}

theorem Course.elsewhere_of_failed (course : Course settings writer path result)
    (failed : ∃ exchange ∈ path, IsFailedLookup exchange) :
    ∀ exchange ∈ path, ¬ReachesBackend exchange.request := by
  obtain ⟨exchange, member, failure⟩ := failed
  cases course with
  | unread looked | unchanged looked =>
    exact fun other there => (elsewhere_of_lookup (lookup_of_looked looked other there)).2
  | unresolved looked some resolved =>
    exact absurd failure (not_isFailedLookup looked resolved exchange member)
  | patched looked some resolved reply =>
    rcases List.mem_append.mp member with earlier | last
    · exact absurd failure (not_isFailedLookup looked resolved exchange earlier)
    · obtain rfl := List.mem_singleton.mp last
      obtain ⟨request, error, same⟩ := failure
      cases same

theorem Course.once (course : Course settings writer path result) :
    patches path = [] ∨ ∃ lookups resolving changes zone reply,
      path = lookups ++ resolving ++ [⟨.patch zone (changes.map Change.toRecordSet), reply⟩] ∧
        Runs (writer.collectChanges settings.ttls).run lookups (.ok changes) ∧
          Runs (resolve settings.defaults writer.zone).run resolving (.ok zone) ∧
            patches (lookups ++ resolving) = [] := by
  cases course with
  | unread looked | unchanged looked =>
    exact .inl (List.filterMap_eq_nil_iff.mpr fun exchange member =>
      (elsewhere_of_lookup (lookup_of_looked looked exchange member)).1)
  | unresolved looked some resolved =>
    exact .inl (List.filterMap_eq_nil_iff.mpr (patch?_eq_none looked resolved))
  | patched looked some resolved reply =>
    exact .inr ⟨_, _, _, _, reply, rfl, looked, resolved,
      List.filterMap_eq_nil_iff.mpr (patch?_eq_none looked resolved)⟩

theorem Course.succeeds (course : Course settings writer path result) :
    result = .ok () ↔ Runs (writer.collectChanges settings.ttls).run path (.ok []) ∨
      ∃ exchange ∈ path, IsTaken exchange := by
  -- Paths that come to changes do not go on as paths that come to none.
  have changed {lookups more : List (Exchange Commit)} {changes : List Change}
      (looked : Runs (writer.collectChanges settings.ttls).run lookups (.ok changes))
      (some : changes ≠ []) :
      ¬Runs (writer.collectChanges settings.ttls).run (lookups ++ more) (.ok []) := by
    intro longer
    injection (looked.eq_nil_of_append longer).2 with none
    exact some none.symm
  cases course with
  | unread looked =>
    refine iff_of_false nofun ?_
    rintro (unchanged | ⟨exchange, member, taken⟩)
    · cases looked.unique unchanged
    · exact not_isTaken (elsewhere_of_lookup (lookup_of_looked looked exchange member)).1 taken
  | unchanged looked => exact iff_of_true rfl (.inl looked)
  | unresolved looked some resolved =>
    refine iff_of_false nofun ?_
    rintro (unchanged | ⟨exchange, member, taken⟩)
    · exact changed looked some unchanged
    · exact not_isTaken (patch?_eq_none looked resolved exchange member) taken
  | patched looked some resolved reply =>
    cases reply with
    | ok => exact iff_of_true rfl (.inr ⟨_, List.mem_append_right _ List.mem_cons_self, _, _, rfl⟩)
    | error error =>
      refine iff_of_false nofun ?_
      rintro (unchanged | ⟨exchange, member, taken⟩)
      · rw [List.append_assoc] at unchanged
        exact changed looked some unchanged
      · rcases List.mem_append.mp member with earlier | last
        · exact not_isTaken (patch?_eq_none looked resolved exchange earlier) taken
        · obtain rfl := List.mem_singleton.mp last
          obtain ⟨zone, sets, same⟩ := taken
          cases same

/-- A writer that has committed does nothing. -/
theorem runs_committed (committed : writer.committed = true)
    {outcome : Except Error Unit × ZoneWriter} :
    Runs (writer.commit settings) path outcome ↔
      path = [] ∧ outcome = (.error .alreadyCommitted, writer) := by
  rw [ZoneWriter.commit, committed]
  exact runs_done

theorem committed_onto (staging : Staging) :
    (staging.onto writer).committed = writer.committed := by
  cases staging with
  | domain name => rfl
  | host name =>
    rw [Staging.onto, ZoneWriter.stageHost]
    split <;> rfl

/-- Nor does it become one that has not. -/
theorem Later.committed_eq {later : ZoneWriter} (since : Later writer later)
    (committed : writer.committed = true) : later.committed = true := by
  induction since with
  | itself => exact committed
  | staged since staging inductionHypothesis =>
    rw [committed_onto]
    exact inductionHypothesis
  | committed since run inductionHypothesis =>
    obtain ⟨_, same⟩ := (runs_committed inductionHypothesis).mp run
    injection same with _ same
    rw [same]
    exact inductionHypothesis

/-- Whatever the registry, the directory and the backend answer, a commit is made whole or not at
all. -/
theorem commits_whole (settings : Settings) (writer after : ZoneWriter)
    (path : List (Exchange Commit)) (result : Except Error Unit)
    (fresh : writer.committed = false)
    (run : Runs (writer.commit settings) path (result, after)) :
    AllOrNothing settings writer path result after := by
  obtain ⟨course, rfl⟩ := course_of_runs fresh run
  refine ⟨course.elsewhere_of_failed, course.once, course.succeeds, ?_, ?_, ?_⟩
  · rintro made rest before now rfl kept effects untaken
    exact spared_of_runs kept run effects untaken
  · rintro error before now rfl kept effects
    have untaken : ∀ exchange ∈ path, ¬IsTaken exchange := fun exchange member taken => by
      cases course.succeeds.mpr (.inr ⟨exchange, member, taken⟩)
    rw [← List.append_nil path] at run
    exact spared_of_runs kept run effects untaken
  · intro later since settings path outcome run
    exact (runs_committed (since.committed_eq rfl)).mp run

end Commits

/-! ### A patch that fails -/

/-- A path of a process, and what comes of it for the backend. -/
structure Visit {α : Type} (process : Process Commit α) (before : Store) where
  path : List (Exchange Commit)
  result : α
  now : Store
  runs : Runs process path result
  effects : Effects path before now

/-- What a call is answered where nothing is remembered and the backend serves everything but the
patch. -/
def refusingPatch (content : Registry.Content) : (request : CommitCall) → (before : Store) →
    { outcome : Commit.Reply request × Store // Effect request outcome.1 before outcome.2 }
  | .registry request, before =>
    ⟨(content.answer obliging (.registry request), before), .elsewhere _ _ id⟩
  | .directory (.lookup _), before => ⟨(none, before), .elsewhere _ _ id⟩
  | .directory (.store _ _), before | .directory (.enter _), before
  | .directory (.leave _), before => ⟨((), before), .elsewhere _ _ id⟩
  | .directory (.load (.backend request)), before =>
    match served : before.serve request with
    | (.ok value, after) => ⟨(.ok value, after), .served served⟩
    | (.error error, after) => ⟨(.error error, after), .lost error served⟩
  | .directory (.load .now), before => ⟨(.ofMillis 0, before), .elsewhere _ _ id⟩
  | .directory (.load (.countFailure _)), before
  | .directory (.load .countRectifyFailure), before => ⟨((), before), .elsewhere _ _ id⟩
  | .patch zone sets, before =>
    ⟨(.error (.transport "patch_zone"), before), .unpatched zone sets _ before⟩

/-- The path on which every call is answered so. -/
def visit {α : Type} (content : Registry.Content) :
    (process : Process Commit α) → (before : Store) → Visit process before
  | .done value, before => ⟨[], value, before, .done value, .none before⟩
  | .call request next, before =>
    let outcome := refusingPatch content request before
    let rest := visit content (next outcome.1.1) outcome.1.2
    ⟨⟨request, outcome.1.1⟩ :: rest.path, rest.result, rest.now, .call rest.runs,
      .next outcome.2 rest.effects⟩

/-- A host is committed to a backend without zones. -/
def exampleRefusal : Visit ((ZoneWriter.staged "test" [.host "ns1.example.test"]).commit
    exampleUpkeepSettings) Store.empty :=
  visit exampleContent _ _

/-- Its zone is created, and nothing is published in it. -/
theorem commits_whole_exampleRefusal :
    exampleRefusal.result.1 = .error (.patch (.transport "patch_zone")) ∧
      exampleRefusal.now.zones.map Prod.fst = ["test."] ∧
      (patches exampleRefusal.path).length = 1 ∧
      AllOrNothing exampleUpkeepSettings (ZoneWriter.staged "test" [.host "ns1.example.test"])
        exampleRefusal.path exampleRefusal.result.1 exampleRefusal.result.2 ∧
      besideApex "test." exampleRefusal.now "test." = [] := by
  have whole := commits_whole exampleUpkeepSettings
    (ZoneWriter.staged "test" [.host "ns1.example.test"]) exampleRefusal.result.2
    exampleRefusal.path exampleRefusal.result.1 (ZoneWriter.committed_staged _ _)
    exampleRefusal.runs
  have kept : WellKept (ZoneWriter.staged "test" [.host "ns1.example.test"]).zone Store.empty :=
    ⟨List.nodup_nil, nofun, nofun⟩
  have zone : (ZoneWriter.staged "test" [.host "ns1.example.test"]).zone = "test." := by decide
  have facts : exampleRefusal.result.1 = .error (.patch (.transport "patch_zone")) ∧
      exampleRefusal.now.zones.map Prod.fst = ["test."] ∧
      (patches exampleRefusal.path).length = 1 := by
    decide +kernel
  obtain ⟨ends, created, sent⟩ := facts
  have spared := whole.failed _ _ _ ends kept exampleRefusal.effects "test."
  rw [zone] at spared
  exact ⟨ends, created, sent, whole, spared⟩

end Writer

end Zonecast
