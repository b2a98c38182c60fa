/-
The operations of a commit as a function of what the registry holds. A commit looks names up one
after the other, and as long as the registry holds still, the lookups add nothing to what could be
read off its content at once. So the operations for all names are those for each name, one after
the other, and whatever else a commit might have been told plays no part in them.

A registry's content is two ways of finding records, and nothing is said about what is found. That
the host found for a nameserver is the host of that name is a property of some contents only: names
are brought into their bare form before they are stored and again before they are looked up, and a
name of dots with blanks between them changes each time.
-/
import Zonecast.Proofs.Processes
import Zonecast.Writer.Zone

namespace Zonecast

namespace Registry

/-- The domains and hosts that a registry holds, as they are found. -/
structure Content where
  domain? : String → Option Domain
  host? : String → Option Host

namespace Content

/-- Lookups are answered with what the content holds; nothing is said about other calls. -/
structure Tells (content : Content) (answer : (request : Commit.Call) → Commit.Reply request) :
    Prop where
  domain : ∀ key, answer (.registry (.domain key)) = .ok (content.domain? key)
  host : ∀ key, answer (.registry (.host key)) = .ok (content.host? key)

/-- A commit's calls, with lookups answered from the content and the rest in some other way. -/
def answer (content : Content) (others : (request : Commit.Call) → Commit.Reply request) :
    (request : Commit.Call) → Commit.Reply request
  | .registry (.domain key) => .ok (content.domain? key)
  | .registry (.host key) => .ok (content.host? key)
  | request => others request

theorem tells_answer (content : Content)
    (others : (request : Commit.Call) → Commit.Reply request) :
    content.Tells (content.answer others) :=
  ⟨fun _ => rfl, fun _ => rfl⟩

/-- The nameservers of the domain at a name that need glue. -/
def needed (content : Content) (name : String) : List String :=
  match content.domain? (Name.bare name) with
  | some domain => if domain.publishable then Writer.ownNameservers domain else []
  | none => []

/-- The host found for a nameserver of the domain at a name that needs glue is the host of the
nameserver's name. -/
def NamedAt (content : Content) (owner : String) : Prop :=
  ∀ name ∈ content.needed owner, ∀ host, content.host? (Name.bare name) = some host →
    Name.canonical host.name = name

/-- Whatever the domain, its glue is that of the hosts of the names asked for. -/
def Named (content : Content) : Prop :=
  ∀ owner, content.NamedAt owner

/-- The hosts at those of these names that are registered. -/
def hostsAt (content : Content) (names : List String) : List Host :=
  names.filterMap fun name => content.host? (Name.bare name)

/-- The operations for the domain at a name. -/
def operationsAt (content : Content) (ttls : Writer.TimesToLive) (name : String) :
    List Zone.Operation :=
  Writer.delegation ttls name (content.domain? (Name.bare name))
    (content.hostsAt (content.needed name))

end Content

end Registry

namespace Writer

/-- Replies that let a commit go through: every zone is known and every patch is taken. -/
def obliging : (request : Commit.Call) → Commit.Reply request
  | .registry _ => .error (.store .other)
  | .patch _ _ => .ok ()
  | .directory (.lookup name) => some name
  | .directory (.store _ _) | .directory (.enter _) | .directory (.leave _) => ()
  | .directory (.load (.backend request)) => .error (.transport request.operation)
  | .directory (.load .now) => .ofMillis 0
  | .directory (.load (.countFailure _)) | .directory (.load .countRectifyFailure) => ()

namespace ZoneWriter

open Registry Process

variable {content : Content} {answer : (request : Commit.Call) → Commit.Reply request}
  (tells : content.Tells answer)

include tells

theorem loadHosts_answered (names : List String) :
    (loadHosts names).run.answered answer = .ok (content.hostsAt names) := by
  induction names with
  | nil => rfl
  | cons name rest inductionHypothesis =>
    have found : (lookup (.host (Name.bare name))).run.answered answer =
        .ok (content.host? (Name.bare name)) :=
      congrArg (Except.mapError Error.registry) (tells.host (Name.bare name))
    rw [loadHosts, answered_run_bind, found]
    dsimp only
    rw [answered_run_bind, inductionHypothesis]
    show Except.ok ((content.host? (Name.bare name)).toList ++ content.hostsAt rest) =
      Except.ok (content.hostsAt (name :: rest))
    unfold Content.hostsAt
    rw [List.filterMap_cons]
    cases content.host? (Name.bare name) <;> rfl

theorem domainOperations_answered (ttls : TimesToLive) (name : String) :
    (domainOperations ttls name).run.answered answer =
      .ok (content.operationsAt ttls name) := by
  have found : (lookup (.domain (Name.bare name))).run.answered answer =
      .ok (content.domain? (Name.bare name)) :=
    congrArg (Except.mapError Error.registry) (tells.domain (Name.bare name))
  refine (answered_run_bind answer (lookup (.domain (Name.bare name))) _).trans ?_
  rw [found]
  show (loadHosts (content.needed name) >>= fun glue => pure (delegation ttls name
    (content.domain? (Name.bare name)) glue)).run.answered answer = _
  rw [answered_run_bind, loadHosts_answered tells]
  rfl

theorem operationsOf_answered (ttls : TimesToLive) (names : List String) :
    (operationsOf ttls names).run.answered answer =
      .ok (names.flatMap (content.operationsAt ttls)) := by
  induction names with
  | nil => rfl
  | cons name rest inductionHypothesis =>
    rw [operationsOf, answered_run_bind, domainOperations_answered tells]
    dsimp only
    rw [answered_run_bind, inductionHypothesis]
    rfl

/-- All operations of a commit: those for each name to publish, and the wiping of each host. -/
def operations (content : Content) (ttls : TimesToLive) (writer : ZoneWriter) :
    List Zone.Operation :=
  writer.domainsToPublish.flatMap (content.operationsAt ttls) ++ writer.hosts.map .removeAll

/-- The changes of a commit are what its operations come to. -/
theorem collectChanges_answered (ttls : TimesToLive) (writer : ZoneWriter) :
    (writer.collectChanges ttls).run.answered answer =
      .ok (Zone.changes (writer.operations content ttls)) := by
  rw [collectChanges, answered_run_bind, operationsOf_answered tells]
  rfl

end ZoneWriter

end Writer

end Zonecast
