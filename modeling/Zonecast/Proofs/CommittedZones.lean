/-
What commits make of a zone, whatever the other collaborators do. A commit looks names up, has the
zone's id resolved and sends one patch. As long as lookups are answered from the registry's
content, no path through a commit that succeeds sends anything else than the patch of its names,
and none sends less: the directory can delay a commit or make it fail, but it has no say in what
is sent.
-/
import Zonecast.Proofs.PublishedZone

namespace Zonecast

open Zone Text Process

namespace Registry.Content

/-- A lookup is answered with what the registry holds; other calls are answered as they are. -/
def Told (content : Content) : Exchange Commit → Prop
  | ⟨.registry (.domain key), reply⟩ => reply = .ok (content.domain? key)
  | ⟨.registry (.host key), reply⟩ => reply = .ok (content.host? key)
  | _ => True

end Registry.Content

namespace Writer

/-- A call that looks a domain or a host up. -/
def isLookup : CommitCall → Prop
  | .registry (.domain _) | .registry (.host _) => True
  | _ => False

/-- The record sets that a call has put into the zone. -/
def sent : Exchange Commit → List RecordSet
  | ⟨.patch _ sets, reply⟩ =>
    match (reply : Except Backend.Error Unit) with
    | .ok () => sets
    | .error _ => []
  | _ => []

theorem sent_eq_nil_of_lookup {exchange : Exchange Commit} (lookup : isLookup exchange.request) :
    sent exchange = [] := by
  obtain ⟨request, reply⟩ := exchange
  cases request with
  | registry request => rfl
  | directory request => rfl
  | patch zone sets => exact lookup.elim

theorem sent_eq_nil_of_directory {exchange : Exchange Commit} {request : (Cached Upkeep).Call}
    (through : exchange.request = .directory request) : sent exchange = [] := by
  obtain ⟨_, reply⟩ := exchange
  dsimp only at through
  subst through
  rfl

theorem flatMap_sent_eq_nil {path : List (Exchange Commit)}
    (silent : ∀ exchange ∈ path, sent exchange = []) : path.flatMap sent = [] :=
  List.flatMap_eq_nil_iff.mpr silent

/-- A zone is resolved through the directory. -/
theorem directory_of_resolved {settings : Settings} {path : List (Exchange Commit)} {zone : String}
    {found : Except Error String}
    (resolved : Runs (resolve settings.defaults zone).run path found) :
    ∀ exchange ∈ path, ∃ inner, exchange.request = .directory inner := by
  have through : (resolve settings.defaults zone).run.Only fun request =>
      ∃ inner, (request : CommitCall) = .directory inner :=
    only_bind (only_embed throughDirectory _) fun _ => trivial
  exact kind_of_mem through resolved

namespace ZoneWriter

open Registry

/-! ### Collecting looks up and nothing else -/

theorem only_loadHosts (names : List String) : (loadHosts names).run.Only isLookup := by
  induction names with
  | nil => trivial
  | cons name rest inductionHypothesis =>
    refine only_run_bind ⟨trivial, fun _ => trivial⟩ fun host => ?_
    exact only_run_bind inductionHypothesis fun _ => trivial

theorem only_domainOperations (ttls : TimesToLive) (name : String) :
    (domainOperations ttls name).run.Only isLookup := by
  refine only_run_bind ⟨trivial, fun _ => trivial⟩ fun domain => ?_
  exact only_run_bind (only_loadHosts _) fun _ => trivial

theorem only_operationsOf (ttls : TimesToLive) (names : List String) :
    (operationsOf ttls names).run.Only isLookup := by
  induction names with
  | nil => trivial
  | cons name rest inductionHypothesis =>
    refine only_run_bind (only_domainOperations ttls name) fun first => ?_
    exact only_run_bind inductionHypothesis fun _ => trivial

theorem only_collectChanges (ttls : TimesToLive) (writer : ZoneWriter) :
    (writer.collectChanges ttls).run.Only isLookup :=
  only_run_bind (only_operationsOf ttls _) fun _ => trivial

/-! ### Paths through a commit -/

section Paths

variable (content : Content) (settings : Settings) (tld : String) (stagings : List Staging)

theorem committed_staged : (staged tld stagings).committed = false :=
  (staged_keeps tld stagings).2

/-- Whatever path the lookups take, they find the patch of the staged names and send nothing. -/
theorem collected_of_runs {path : List (Exchange Commit)} {result : Except Error (List Change)}
    (run : Runs ((staged tld stagings).collectChanges settings.ttls).run path result)
    (told : ∀ exchange ∈ path, content.Told exchange) :
    result = .ok (patchOf content settings.ttls tld stagings) ∧ path.flatMap sent = [] := by
  have lookups := kind_of_mem (only_collectChanges settings.ttls (staged tld stagings)) run
  have agrees : ∀ exchange ∈ path, exchange.reply = content.answer obliging exchange.request := by
    intro exchange member
    have kind := lookups exchange member
    have answered := told exchange member
    obtain ⟨request, reply⟩ := exchange
    cases request with
    | directory request => exact kind.elim
    | patch zone sets => exact kind.elim
    | registry request =>
      cases request with
      | domain key => exact answered
      | host key => exact answered
      | _ => exact kind.elim
  constructor
  · rw [eq_answered_of_runs run agrees, collectChanges_answered (content.tells_answer obliging)]
    rfl
  · exact flatMap_sent_eq_nil fun exchange member => sent_eq_nil_of_lookup (lookups exchange member)

/-- Resolving the zone sends nothing of the commit's. -/
theorem sent_of_runs_resolve {path : List (Exchange Commit)} {zone : String}
    {result : Except Error String}
    (run : Runs (resolve settings.defaults zone).run path result) : path.flatMap sent = [] := by
  refine flatMap_sent_eq_nil fun exchange member => ?_
  obtain ⟨inner, same⟩ := directory_of_resolved run exchange member
  exact sent_eq_nil_of_directory same

/-- A patch that succeeds sends its changes. -/
theorem sent_of_runs_patch {path : List (Exchange Commit)} {zone : String} {changes : List Change}
    (run : Runs (patch zone changes).run path (.ok ())) :
    path.flatMap sent = changes.map Change.toRecordSet := by
  obtain ⟨reply, rest, rfl, last⟩ := runs_call.mp run
  obtain ⟨rfl, same⟩ := runs_done.mp last
  change Except Backend.Error Unit at reply
  cases reply with
  | ok value => exact List.append_nil _
  | error error => cases same

/-- A path through a part that ends well goes well through each of its parts. -/
theorem runs_ok_bind {α β : Type} {step : Step α} {next : α → Step β}
    {path : List (Exchange Commit)} {result : β}
    (run : Runs (step >>= next).run path (.ok result)) :
    ∃ before value after, path = before ++ after ∧ Runs step.run before (.ok value) ∧
      Runs (next value).run after (.ok result) := by
  rw [run_bind] at run
  obtain ⟨before, value, after, whole, first, second⟩ := runs_bind.mp run
  cases value with
  | ok value => exact ⟨before, value, after, whole, first, second⟩
  | error error => cases (runs_done.mp second).2

/-- A commit that succeeds sends the patch of its names and nothing else. -/
theorem sent_of_runs_publish {path : List (Exchange Commit)}
    (run : Runs ((staged tld stagings).publish settings).run path (.ok ()))
    (told : ∀ exchange ∈ path, content.Told exchange) :
    path.flatMap sent = (patchOf content settings.ttls tld stagings).map Change.toRecordSet := by
  obtain ⟨before, changes, after, rfl, collecting, publishing⟩ := runs_ok_bind run
  obtain ⟨same, silent⟩ := collected_of_runs content settings tld stagings collecting
    fun exchange member => told exchange (List.mem_append_left _ member)
  injection same with same
  subst same
  rw [List.flatMap_append, silent, List.nil_append]
  split at publishing
  · rename_i empty
    rw [List.isEmpty_iff.mp empty]
    rw [(runs_done.mp publishing).1]
    rfl
  · obtain ⟨resolving, zone, patching, rfl, first, second⟩ := runs_ok_bind publishing
    rw [List.flatMap_append, sent_of_runs_resolve settings first, List.nil_append]
    exact sent_of_runs_patch second

end Paths

end ZoneWriter

/-! ### Commits of a zone -/

section Commits

open Registry ZoneWriter

variable (content : Content) (settings : Settings) (tld : String)

/-- Some commit of the staged names, with lookups answered from the content, succeeds and leaves
the zone with these record sets. Whichever id the directory answers is taken to be the zone's. -/
def Committed (stagings : List Staging) (stored after : List RecordSet) : Prop :=
  ∃ path writer, Runs ((staged tld stagings).commit settings) path (.ok (), writer) ∧
    (∀ exchange ∈ path, content.Told exchange) ∧
    after = Backend.applyRecordSets stored (path.flatMap sent)

/-- Several batches of names, committed one after the other. -/
inductive CommittedAll : List (List Staging) → List RecordSet → List RecordSet → Prop
  | none (stored : List RecordSet) : CommittedAll [] stored stored
  | next {stagings : List Staging} {others : List (List Staging)}
      {stored between after : List RecordSet}
      (first : Committed content settings tld stagings stored between)
      (rest : CommittedAll others between after) : CommittedAll (stagings :: others) stored after

variable {content settings tld}

theorem commit_staged (stagings : List Staging) :
    (staged tld stagings).commit settings =
      ((staged tld stagings).publish settings).run.bind fun result =>
        .done (result, { staged tld stagings with committed := true }) := by
  rw [commit, committed_staged]
  rfl

/-- A commit applies the patch of its names. -/
theorem Committed.eq_applied {stagings : List Staging} {stored after : List RecordSet}
    (committed : Committed content settings tld stagings stored after) :
    after = Backend.applyRecordSets stored
      ((patchOf content settings.ttls tld stagings).map Change.toRecordSet) := by
  obtain ⟨path, writer, run, told, rfl⟩ := committed
  rw [commit_staged] at run
  obtain ⟨before, result, rest, rfl, publishing, last⟩ := runs_bind.mp run
  obtain ⟨rfl, same⟩ := runs_done.mp last
  injection same with success _
  subst success
  rw [List.append_nil] at told ⊢
  rw [sent_of_runs_publish content settings tld stagings publishing told]

/-- Any names can be committed to any zone. -/
theorem exists_committed (content : Content) (settings : Settings) (tld : String)
    (stagings : List Staging) (stored : List RecordSet) :
    ∃ after, Committed content settings tld stagings stored after := by
  let answer := content.answer obliging
  have published : ((staged tld stagings).publish settings).run.answered answer = .ok () := by
    rw [ZoneWriter.publish, answered_run_bind,
      collectChanges_answered (content.tells_answer obliging)]
    dsimp only
    split
    · rfl
    · have resolved (zone : String) :
          (resolve settings.defaults zone).run.answered answer = .ok (Name.canonical zone) := rfl
      rw [answered_run_bind, resolved]
      rfl
  have run := runs_trace answer ((staged tld stagings).commit settings)
  have settled : ((staged tld stagings).commit settings).answered answer =
      (.ok (), { staged tld stagings with committed := true }) := by
    rw [commit_staged, answered_bind, published]
    rfl
  rw [settled] at run
  refine ⟨_, _, _, run, fun exchange member => ?_, rfl⟩
  have reply := reply_of_mem_trace member
  obtain ⟨request, given⟩ := exchange
  dsimp only at reply
  subst reply
  cases request with
  | directory | patch => trivial
  | registry request =>
    cases request with
    | domain key => rfl
    | host key => rfl
    | _ => trivial

theorem exists_committedAll (content : Content) (settings : Settings) (tld : String)
    (batches : List (List Staging)) (stored : List RecordSet) :
    ∃ after, CommittedAll content settings tld batches stored after := by
  induction batches generalizing stored with
  | nil => exact ⟨stored, .none stored⟩
  | cons stagings others inductionHypothesis =>
    obtain ⟨between, first⟩ := exists_committed content settings tld stagings stored
    obtain ⟨after, rest⟩ := inductionHypothesis between
    exact ⟨after, .next first rest⟩

end Commits

end Writer

end Zonecast
