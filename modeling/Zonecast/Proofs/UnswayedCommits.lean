/-
Upkeep has no say in what is published. A commit that has to load its zone runs an upkeep pass in
between, over the same backend. Two commits that meet the same surroundings, and differ only in what
upkeep is answered, find the same zone, leave the same ids remembered and send the same patch; and
if that is answered alike, they end alike.

The surroundings are the registry, the memory of zone ids with its clock, and the backend as far as
zones are listed, read and created. What they answer is a matter of the calls that the commit made
on its own account; calls of upkeep leave no trace there. Of a process this is said as follows: from
one standing, all of its paths through the surroundings come to one standing and one value. It holds
of the process if it holds of its parts, and upkeep has it because its calls do not move the
standing and a pass ends with nothing to tell.
-/
import Zonecast.Proofs.Inspections
import Zonecast.Proofs.RepeatedCommits
import Zonecast.Proofs.RepeatedUpkeep

namespace Zonecast.Writer

open Process Zone Upkeep

variable {α β : Type}

/-! ### Surroundings -/

/-- Whether a call belongs to upkeep. The loader of zones makes three other calls. -/
def isUpkeep : CommitCall → Bool
  | .directory (.load (.backend .listZones)) | .directory (.load (.backend (.getZone _)))
  | .directory (.load (.backend (.createZone _))) => false
  | .directory (.load _) => true
  | _ => false

/-- What a commit meets apart from upkeep. What is answered may depend on the calls of its own that
the commit made before. -/
structure Surroundings where
  /-- How long ids are remembered, in milliseconds. -/
  horizon : Int
  clock : List CommitCall → Instant
  registry : List CommitCall → (request : Registry.Call) →
    Except Registry.Error (Registry.Value request)
  backend : List CommitCall → (request : Backend.Call) →
    Except Backend.Error (Backend.Value request)

/-- How a commit stands: the calls of its own so far, and the remembered ids. -/
structure Standing where
  made : List CommitCall
  cache : Directory.Cache

namespace Surroundings

/-- What the surroundings answer, which is nothing to upkeep and to the patch. -/
def reply? (surroundings : Surroundings) (standing : Standing) :
    (request : CommitCall) → Option (Commit.Reply request)
  | .registry request => some (surroundings.registry standing.made request)
  | .directory (.lookup name) =>
    some (standing.cache.lookup surroundings.horizon (surroundings.clock standing.made) name).1
  | .directory (.store _ _) | .directory (.enter _) | .directory (.leave _) => some ()
  | .directory (.load (.backend .listZones)) =>
    some (surroundings.backend standing.made .listZones)
  | .directory (.load (.backend (.getZone zone))) =>
    some (surroundings.backend standing.made (.getZone zone))
  | .directory (.load (.backend (.createZone creation))) =>
    some (surroundings.backend standing.made (.createZone creation))
  | .directory (.load _) | .patch _ _ => none

/-- The remembered ids after a call. -/
def remembered (surroundings : Surroundings) (standing : Standing) : CommitCall → Directory.Cache
  | .directory (.lookup name) =>
    (standing.cache.lookup surroundings.horizon (surroundings.clock standing.made) name).2
  | .directory (.store name id) => standing.cache.store name id
  | _ => standing.cache

/-- How a commit stands after a call. -/
def after (surroundings : Surroundings) (standing : Standing) (request : CommitCall) : Standing :=
  if isUpkeep request then standing
  else ⟨standing.made ++ [request], surroundings.remembered standing request⟩

/-- The surroundings answer along these calls, from one standing to another. -/
inductive Lead (surroundings : Surroundings) :
    Standing → List (Exchange Commit) → Standing → Prop
  | nil (standing : Standing) : Lead surroundings standing [] standing
  | cons {start stop : Standing} {exchange : Exchange Commit} {rest : List (Exchange Commit)}
      (given : ∀ reply, surroundings.reply? start exchange.request = some reply →
        exchange.reply = reply)
      (further : Lead surroundings (surroundings.after start exchange.request) rest stop) :
      Lead surroundings start (exchange :: rest) stop

variable {surroundings : Surroundings} {start stop : Standing}

theorem Lead.append {first second : List (Exchange Commit)}
    (lead : surroundings.Lead start (first ++ second) stop) :
    ∃ middle, surroundings.Lead start first middle ∧ surroundings.Lead middle second stop := by
  induction first generalizing start with
  | nil => exact ⟨start, .nil start, lead⟩
  | cons exchange rest inductionHypothesis =>
    cases lead with
    | cons given further =>
      obtain ⟨middle, before, behind⟩ := inductionHypothesis further
      exact ⟨middle, .cons given before, behind⟩

/-- Upkeep leaves the commit where it stands. -/
theorem Lead.eq_of_upkeep {path : List (Exchange Commit)}
    (lead : surroundings.Lead start path stop)
    (upkeep : ∀ exchange ∈ path, isUpkeep exchange.request = true) : stop = start := by
  induction lead with
  | nil standing => rfl
  | cons given further inductionHypothesis =>
    obtain ⟨first, others⟩ := List.forall_mem_cons.mp upkeep
    exact (inductionHypothesis others).trans (if_pos first)

/-! ### Paths through the surroundings -/

/-- A path of a process through the surroundings. -/
structure Passage (surroundings : Surroundings) (start : Standing)
    (process : Process Commit α) where
  path : List (Exchange Commit)
  result : α
  stop : Standing
  runs : Runs process path result
  leads : surroundings.Lead start path stop

/-- The passage on which upkeep and the patch are answered by a function of the call. -/
def attend (surroundings : Surroundings) (others : (request : CommitCall) → Commit.Reply request)
    (start : Standing) : (process : Process Commit α) → Passage surroundings start process
  | .done value => ⟨[], value, start, .done value, .nil start⟩
  | .call request next =>
    let reply := (surroundings.reply? start request).getD (others request)
    let rest := attend surroundings others (surroundings.after start request) (next reply)
    ⟨⟨request, reply⟩ :: rest.path, rest.result, rest.stop, .call rest.runs,
      .cons (fun _ given => congrArg (Option.getD · (others request)) given) rest.leads⟩

end Surroundings

/-! ### Processes that upkeep does not sway -/

open Surroundings

/-- All passages through the same surroundings come to one standing and one value. -/
def Unswayed (process : Process Commit α) : Prop :=
  ∀ (surroundings : Surroundings) (start : Standing)
    (first second : surroundings.Passage start process),
    first.stop = second.stop ∧ first.result = second.result

/-- A call that the surroundings answer. -/
def isAnswered : CommitCall → Prop
  | .patch _ _ => False
  | request => isUpkeep request = false

theorem exists_reply {request : CommitCall} (answered : isAnswered request)
    (surroundings : Surroundings) (standing : Standing) :
    ∃ reply, surroundings.reply? standing request = some reply := by
  cases request with
  | registry request => exact ⟨_, rfl⟩
  | patch zone sets => exact answered.elim
  | directory request =>
    cases request with
    | lookup | store | enter | leave => exact ⟨_, rfl⟩
    | load request =>
      cases request with
      | backend request => cases request <;> first | exact ⟨_, rfl⟩ | cases answered
      | now | countFailure | countRectifyFailure => cases answered

theorem unswayed_done (value : α) : Unswayed (.done value) := by
  rintro surroundings start ⟨_, _, _, run, lead⟩ ⟨_, _, _, again, along⟩
  obtain ⟨rfl, rfl⟩ := runs_done.mp run
  obtain ⟨rfl, rfl⟩ := runs_done.mp again
  cases lead
  cases along
  exact ⟨rfl, rfl⟩

theorem unswayed_call {request : CommitCall} {next : Commit.Reply request → Process Commit α}
    (answered : isAnswered request) (rest : ∀ reply, Unswayed (next reply)) :
    Unswayed (.call (I := Commit) request next) := by
  rintro surroundings start ⟨_, _, _, run, lead⟩ ⟨_, _, _, again, along⟩
  obtain ⟨reply, path, rfl, ahead⟩ := runs_call.mp run
  obtain ⟨other, others, rfl, behind⟩ := runs_call.mp again
  obtain ⟨given, found⟩ := exists_reply answered surroundings start
  cases lead with
  | cons tells lead =>
    cases along with
    | cons told along =>
      obtain rfl : reply = given := tells given found
      obtain rfl : other = reply := told reply found
      exact rest other surroundings _ ⟨_, _, _, ahead, lead⟩ ⟨_, _, _, behind, along⟩

theorem unswayed_bind {process : Process Commit α} {next : α → Process Commit β}
    (first : Unswayed process) (rest : ∀ value, Unswayed (next value)) :
    Unswayed (process.bind next) := by
  rintro surroundings start ⟨_, _, _, run, lead⟩ ⟨_, _, _, again, along⟩
  obtain ⟨before, value, after, rfl, ahead, tail⟩ := runs_bind.mp run
  obtain ⟨earlier, other, later, rfl, behind, further⟩ := runs_bind.mp again
  obtain ⟨middle, lead, onwards⟩ := lead.append
  obtain ⟨between, along, beyond⟩ := along.append
  obtain ⟨rfl, rfl⟩ := first surroundings start ⟨_, _, _, ahead, lead⟩ ⟨_, _, _, behind, along⟩
  exact rest value surroundings middle ⟨_, _, _, tail, onwards⟩ ⟨_, _, _, further, beyond⟩

theorem unswayed_of_only {process : Process Commit α} (only : process.Only isAnswered) :
    Unswayed process := by
  induction process with
  | done value => exact unswayed_done value
  | call request next inductionHypothesis =>
    exact unswayed_call only.1 fun reply => inductionHypothesis reply (only.2 reply)

/-- What upkeep is answered shows in nothing that comes after it. -/
theorem unswayed_of_upkeep {process : Process Commit Unit}
    (only : process.Only fun request => isUpkeep request = true) : Unswayed process := by
  intro surroundings start first second
  have stays (passage : surroundings.Passage start process) : passage.stop = start :=
    passage.leads.eq_of_upkeep (kind_of_mem only passage.runs)
  exact ⟨(stays first).trans (stays second).symm, rfl⟩

/-! ### Resolving -/

/-- The loader's calls as calls of a commit. -/
def throughLoader : Inclusion Upkeep Commit where
  call request := .directory (.load request)
  reply _ reply := reply

theorem embed_throughLoader (process : Process Upkeep α) :
    (process.embed (Directory.loading Upkeep)).embed throughDirectory =
      process.embed throughLoader := by
  induction process with
  | done value => rfl
  | call request next inductionHypothesis =>
    exact congrArg (Process.call (I := Commit) (.directory (.load request)))
      (funext fun reply => inductionHypothesis reply)

/-- The calls of a pass are those that the surroundings do not answer. -/
theorem isUpkeep_pass (defaults : Defaults) (zone : Detail) :
    (pass defaults zone).Only (I := Upkeep) fun request =>
      isUpkeep (.directory (.load request)) = true := by
  refine only_pass (fun _ => rfl) fun check request makes => ?_
  cases request with
  | backend request => cases request <;> first | rfl | (cases check <;> exact makes.elim)
  | now | countFailure | countRectifyFailure => rfl

/-- The loader lists zones, and reads one or creates one. -/
theorem isAnswered_findOrCreate (defaults : Defaults) (name : String) :
    (Directory.findOrCreate defaults name).run.Only (I := Upkeep) fun request =>
      isAnswered (.directory (.load request)) := by
  refine only_run_bind ⟨rfl, fun _ => trivial⟩ fun zones => ?_
  cases zones.find? fun zone => Name.bare zone.name == Name.bare name with
  | some listed => exact ⟨rfl, fun _ => trivial⟩
  | none => exact ⟨rfl, fun _ => trivial⟩

theorem unswayed_load (defaults : Defaults) (name : String) :
    Unswayed ((Directory.load defaults name).embed throughLoader) := by
  refine (embed_bind throughLoader _ _).symm ▸ unswayed_bind (unswayed_of_only
    (only_embed_of (isAnswered_findOrCreate defaults name) fun _ answered => answered))
      fun found => ?_
  cases found with
  | error error => exact unswayed_done _
  | ok zone =>
    exact (embed_bind throughLoader (pass defaults zone) _).symm ▸ unswayed_bind
      (unswayed_of_upkeep (only_embed_of (isUpkeep_pass defaults zone) fun _ upkeep => upkeep))
        fun _ => unswayed_done _

theorem unswayed_loadInTurn (defaults : Defaults) (name : String) :
    Unswayed ((Directory.loadInTurn name (Directory.load defaults name)).embed
      throughDirectory) := by
  refine unswayed_call rfl fun id? => ?_
  change Option String at id?
  cases id? with
  | some id => exact unswayed_done _
  | none =>
    show Unswayed (embed throughDirectory
      (Process.bind (embed (Directory.loading Upkeep) (Directory.load defaults name)) _))
    rw [embed_bind, embed_throughLoader]
    refine unswayed_bind (unswayed_load defaults name) fun result => ?_
    cases result with
    | error error => exact unswayed_done _
    | ok id => exact unswayed_call rfl fun _ => unswayed_done _

theorem unswayed_resolve (defaults : Defaults) (zone : String) :
    Unswayed (resolve defaults zone).run := by
  refine unswayed_bind ?_ fun _ => unswayed_done _
  refine unswayed_call rfl fun id? => ?_
  change Option String at id?
  cases id? with
  | some id => exact unswayed_done _
  | none =>
    refine unswayed_call rfl fun _ => ?_
    show Unswayed (embed throughDirectory (Process.bind
      (Directory.loadInTurn _ (Directory.load defaults (Name.canonical zone))) _))
    rw [embed_bind]
    exact unswayed_bind (unswayed_loadInTurn defaults _) fun result =>
      unswayed_call rfl fun _ => unswayed_done _

/-! ### Committing -/

/-- The zone and the record sets of a patch. -/
def patch? : CommitCall → Option (String × List RecordSet)
  | .patch zone sets => some (zone, sets)
  | _ => none

/-- The patches among some calls. -/
def patches (path : List (Exchange Commit)) : List (String × List RecordSet) :=
  path.filterMap fun exchange => patch? exchange.request

/-- A patch that was sent on both paths was answered alike. -/
def PatchedAlike (first second : List (Exchange Commit)) : Prop :=
  ∀ zone sets reply other, (⟨.patch zone sets, reply⟩ : Exchange Commit) ∈ first →
    (⟨.patch zone sets, other⟩ : Exchange Commit) ∈ second → reply = other

theorem patches_cons (exchange : Exchange Commit) (rest : List (Exchange Commit)) :
    patches (exchange :: rest) = (patch? exchange.request).toList ++ patches rest := by
  cases sends : patch? exchange.request with
  | none => exact List.filterMap_cons_none sends
  | some patch => exact List.filterMap_cons_some sends

theorem filterMap_made_after (surroundings : Surroundings) (standing : Standing)
    (request : CommitCall) : (surroundings.after standing request).made.filterMap patch? =
      standing.made.filterMap patch? ++ (patch? request).toList := by
  unfold Surroundings.after
  cases upkeep : isUpkeep request with
  | true =>
    have none : patch? request = none := by
      cases request with
      | patch zone sets => cases upkeep
      | registry | directory => rfl
    rw [none]
    exact (List.append_nil _).symm
  | false =>
    show (standing.made ++ [request]).filterMap patch? = _
    rw [List.filterMap_append, List.filterMap_cons]
    cases patch? request <;> rfl

/-- The patches that were sent show in where a commit stands. -/
theorem Surroundings.Lead.patches {surroundings : Surroundings} {start stop : Standing}
    {path : List (Exchange Commit)} (lead : surroundings.Lead start path stop) :
    stop.made.filterMap patch? = start.made.filterMap patch? ++ patches path := by
  induction lead with
  | nil standing => exact (List.append_nil _).symm
  | @cons start stop exchange rest given further inductionHypothesis =>
    rw [inductionHypothesis, filterMap_made_after surroundings start exchange.request,
      patches_cons, List.append_assoc]

/-- All passages through the same surroundings come to one standing, and to one value if their
patches are answered alike. -/
def UnswayedUpToPatch (process : Process Commit α) : Prop :=
  ∀ (surroundings : Surroundings) (start : Standing)
    (first second : surroundings.Passage start process), first.stop = second.stop ∧
      (PatchedAlike first.path second.path → first.result = second.result)

theorem Unswayed.upToPatch {process : Process Commit α} (unswayed : Unswayed process) :
    UnswayedUpToPatch process := by
  intro surroundings start first second
  obtain ⟨stop, result⟩ := unswayed surroundings start first second
  exact ⟨stop, fun _ => result⟩

/-- What comes before the patch is unswayed. -/
theorem unswayedUpToPatch_bind {process : Process Commit α} {next : α → Process Commit β}
    (first : Unswayed process) (rest : ∀ value, UnswayedUpToPatch (next value)) :
    UnswayedUpToPatch (process.bind next) := by
  rintro surroundings start ⟨_, _, _, run, lead⟩ ⟨_, _, _, again, along⟩
  obtain ⟨before, value, after, rfl, ahead, tail⟩ := runs_bind.mp run
  obtain ⟨earlier, other, later, rfl, behind, further⟩ := runs_bind.mp again
  obtain ⟨middle, lead, onwards⟩ := lead.append
  obtain ⟨between, along, beyond⟩ := along.append
  obtain ⟨rfl, rfl⟩ := first surroundings start ⟨_, _, _, ahead, lead⟩ ⟨_, _, _, behind, along⟩
  obtain ⟨stop, result⟩ := rest value surroundings middle ⟨_, _, _, tail, onwards⟩
    ⟨_, _, _, further, beyond⟩
  exact ⟨stop, fun alike => result fun zone sets reply other member also =>
    alike zone sets reply other (List.mem_append_right _ member) (List.mem_append_right _ also)⟩

/-- What comes after the patch makes no call. -/
theorem unswayedUpToPatch_map {process : Process Commit α} (whole : UnswayedUpToPatch process)
    (value : α → β) : UnswayedUpToPatch (process.bind fun result => .done (value result)) := by
  rintro surroundings start ⟨_, _, _, run, lead⟩ ⟨_, _, _, again, along⟩
  obtain ⟨before, one, after, rfl, ahead, tail⟩ := runs_bind.mp run
  obtain ⟨earlier, other, later, rfl, behind, further⟩ := runs_bind.mp again
  obtain ⟨rfl, rfl⟩ := runs_done.mp tail
  obtain ⟨rfl, rfl⟩ := runs_done.mp further
  rw [List.append_nil] at lead along
  obtain ⟨stop, result⟩ := whole surroundings start ⟨_, _, _, ahead, lead⟩
    ⟨_, _, _, behind, along⟩
  refine ⟨stop, fun alike => congrArg value (result ?_)⟩
  simpa only [List.append_nil] using alike

theorem unswayedUpToPatch_patch (zone : String) (changes : List Change) :
    UnswayedUpToPatch (patch zone changes).run := by
  rintro surroundings start ⟨_, _, _, run, lead⟩ ⟨_, _, _, again, along⟩
  obtain ⟨reply, _, rfl, tail⟩ := runs_call.mp run
  obtain ⟨other, _, rfl, further⟩ := runs_call.mp again
  obtain ⟨rfl, rfl⟩ := runs_done.mp tail
  obtain ⟨rfl, rfl⟩ := runs_done.mp further
  refine ⟨?_, fun alike => ?_⟩
  · cases lead with
    | cons _ lead =>
      cases lead
      cases along with
      | cons _ along =>
        cases along
        rfl
  · exact congrArg (Except.mapError Error.patch)
      (alike zone _ reply other List.mem_cons_self List.mem_cons_self)

theorem unswayedUpToPatch_publish (settings : Settings) (writer : ZoneWriter) :
    UnswayedUpToPatch (writer.publish settings).run := by
  have collecting : Unswayed (writer.collectChanges settings.ttls).run := by
    refine unswayed_of_only (only_mono (ZoneWriter.only_collectChanges settings.ttls writer)
      fun request lookup => ?_)
    cases request with
    | registry request => rfl
    | directory | patch => exact lookup.elim
  rw [ZoneWriter.publish, run_bind]
  refine unswayedUpToPatch_bind collecting fun collected => ?_
  cases collected with
  | error error => exact (unswayed_done _).upToPatch
  | ok changes =>
    dsimp only
    split
    · exact (unswayed_done _).upToPatch
    · rw [run_bind]
      refine unswayedUpToPatch_bind (unswayed_resolve settings.defaults writer.zone) fun found => ?_
      cases found with
      | error error => exact (unswayed_done _).upToPatch
      | ok zone => exact unswayedUpToPatch_patch zone changes

theorem unswayedUpToPatch_commit (settings : Settings) (writer : ZoneWriter) :
    UnswayedUpToPatch (writer.commit settings) := by
  unfold ZoneWriter.commit
  split
  · exact (unswayed_done _).upToPatch
  · exact unswayedUpToPatch_map (unswayedUpToPatch_publish settings writer) _

/-! ### Upkeep and commits -/

/-- Upkeep sways no commit. In the same surroundings the same zone is found and the same ids are
remembered, and the same patch is sent to the same zone; if it is answered alike, the commit ends
alike. Neither does one check sway another: each inspects the zone whatever the others were
answered, goes as its own calls are answered, and is counted as failed once if it failed. -/
theorem upkeep_sways_no_commit (settings : Settings) :
    (∀ (zone : String) (surroundings : Surroundings) (start : Standing)
      (first second : surroundings.Passage start (resolve settings.defaults zone).run),
      first.result = second.result ∧ first.stop.cache = second.stop.cache) ∧
    (∀ (writer : ZoneWriter) (surroundings : Surroundings) (start : Standing)
      (first second : surroundings.Passage start (writer.commit settings)),
      patches first.path = patches second.path ∧ first.stop.cache = second.stop.cache ∧
        (PatchedAlike first.path second.path → first.result = second.result)) ∧
    ∀ (zone : Detail) (metrics : Metrics) (first second : List (Exchange Upkeep)),
      Runs (pass settings.defaults zone) first () → Runs (pass settings.defaults zone) second () →
      ∃ firstly secondly, Inspections settings.defaults zone first firstly ∧
        Inspections settings.defaults zone second secondly ∧
        (∀ one ∈ firstly, ∀ other ∈ secondly, one.check = other.check →
          (one.own = other.own ∧ one.outcome = other.outcome) ∨ PartAtReply one.own other.own) ∧
        (∀ one ∈ firstly, (counted metrics first).failures one.check =
          metrics.failures one.check + if one.failed then 1 else 0) ∧
        ∀ check, check ∉ settings.defaults.checks →
          (counted metrics first).failures check = metrics.failures check := by
  refine ⟨fun zone surroundings start first second => ?_,
    fun writer surroundings start first second => ?_,
    fun zone metrics first second run again => ?_⟩
  · obtain ⟨stop, result⟩ := unswayed_resolve settings.defaults zone surroundings start first second
    exact ⟨result, congrArg Standing.cache stop⟩
  · obtain ⟨stop, result⟩ :=
      unswayedUpToPatch_commit settings writer surroundings start first second
    have sent : start.made.filterMap patch? ++ patches first.path =
        start.made.filterMap patch? ++ patches second.path := by
      rw [← first.leads.patches, ← second.leads.patches, stop]
    exact ⟨List.append_cancel_left sent, congrArg Standing.cache stop, result⟩
  · obtain ⟨firstly, inspected⟩ := exists_inspections run
    obtain ⟨secondly, inspectedAgain⟩ := exists_inspections again
    obtain ⟨checks, rfl, against⟩ := inspected
    have once : (firstly.map Inspection.check).Nodup := checks ▸ nodup_checks settings.defaults
    refine ⟨firstly, secondly, ⟨checks, rfl, against⟩, inspectedAgain,
      fun one member other also same => ?_, fun one member => ?_, fun check disabled => ?_⟩
    · have stepped := inspectedAgain.against other also
      unfold Inspection.Against at stepped
      rw [← same] at stepped
      exact (against one member).eq_or_part stepped
    · exact failures_counted_of_mem against once member metrics
    · exact failures_counted_of_not_mem against (checks ▸ disabled) metrics

/-! ### Two commits that differ in what upkeep is answered -/

/-- On its passage a commit is told of its patch what the function says. -/
theorem reply_of_patch_mem_attend {surroundings : Surroundings}
    {others : (request : CommitCall) → Commit.Reply request} {start : Standing}
    {process : Process Commit α} {zone : String} {sets : List RecordSet}
    {reply : Commit.Reply (CommitCall.patch zone sets)}
    (member : ⟨.patch zone sets, reply⟩ ∈ (surroundings.attend others start process).path) :
    reply = others (.patch zone sets) := by
  induction process generalizing start with
  | done value => cases member
  | call request next inductionHypothesis =>
    rcases List.mem_cons.mp member with same | later
    · cases same
      rfl
    · exact inductionHypothesis _ later

/-- The backend has the one zone, and nothing is remembered of it. -/
def exampleSurroundings : Surroundings where
  horizon := 60000
  clock _ := .ofMillis 0
  registry _ request := exampleContent.answer obliging (.registry request)
  backend _
    | .listZones => .ok [exampleDrifted.zone]
    | .getZone _ => .ok exampleDrifted.zone
    | request => .error (.transport request.operation)

/-- All of upkeep fails in this way, and the patch is taken. -/
def exampleOthers (failure : String → Backend.Error) :
    (request : CommitCall) → Commit.Reply request
  | .directory (.load (.backend request)) => .error (failure request.operation)
  | request => obliging request

def exampleUpkeepSettings : Settings :=
  ⟨exampleDefaults, exampleSettings.ttls⟩

/-- A host is committed while upkeep fails. -/
def exampleCommit (failure : String → Backend.Error) :=
  exampleSurroundings.attend (exampleOthers failure) ⟨[], .empty⟩
    ((ZoneWriter.staged "test" [.host "ns1.example.test"]).commit exampleUpkeepSettings)

/-- A pass all of whose calls fail. -/
def exampleFailures : List (Exchange Upkeep) :=
  (pass exampleDefaults exampleDrifted.zone).trace fun request =>
    exampleOthers .transport (.directory (.load request))

/-- Upkeep goes another way if what it looks for is not there than if it cannot look; the commit
does not. Of a pass that fails throughout every check is counted, and of one that has everything to
do none would be. -/
theorem unswayed_exampleCommits :
    (exampleCommit .transport).path.length ≠ (exampleCommit .notFound).path.length ∧
      (patches (exampleCommit .transport).path).map Prod.fst = ["test."] ∧
      patches (exampleCommit .transport).path = patches (exampleCommit .notFound).path ∧
      (exampleCommit .transport).result = (exampleCommit .notFound).result ∧
      (counted .empty exampleFailures).failures .signing = 1 ∧
      (counted .empty exampleRepairs).failures .signing = 0 ∧
      ∃ firstly secondly, Inspections exampleDefaults exampleDrifted.zone exampleFailures firstly ∧
        Inspections exampleDefaults exampleDrifted.zone exampleRepairs secondly ∧
        ∀ one ∈ firstly, (counted .empty exampleFailures).failures one.check =
          Metrics.empty.failures one.check + if one.failed then 1 else 0 := by
  obtain ⟨-, commits, passes⟩ := upkeep_sways_no_commit exampleUpkeepSettings
  obtain ⟨sent, -, ends⟩ := commits _ _ _ (exampleCommit .transport) (exampleCommit .notFound)
  obtain ⟨firstly, secondly, first, second, -, failures, -⟩ := passes exampleDrifted.zone .empty
    exampleFailures exampleRepairs (runs_trace _ _) runs_exampleRepairs
  refine ⟨by decide +kernel, by decide +kernel, sent, ends ?_, by decide +kernel,
    by decide +kernel, firstly, secondly, first, second, failures⟩
  intro zone sets reply other member also
  rw [reply_of_patch_mem_attend member, reply_of_patch_mem_attend also]
  rfl

end Zonecast.Writer
