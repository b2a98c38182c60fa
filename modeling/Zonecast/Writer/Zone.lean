/-
The writer that publishes into the zone backend. Names are only noted when they are staged; all
lookups and backend calls belong to the commit. A commit loads every noted domain, and the
registered domain of every noted host, lays their operations together, and sends the changes they
come to in one request. A writer commits once.
-/
import Zonecast.Directory.Resolve
import Zonecast.Registry.Lookup
import Zonecast.Text.Pieces
import Zonecast.Writer.Delegation

namespace Zonecast

namespace Writer

open Zone

/-- Why a commit fails. -/
inductive Error
  | registry (error : Registry.Error)
  | directory (error : Directory.Error)
  | patch (error : Backend.Error)
  | alreadyCommitted
  /-- The time allowed, in seconds, ran out. -/
  | timedOut (seconds : Nat)
  deriving DecidableEq, Repr

/-- The wording of a failure. -/
def Error.message : Error → String
  | .registry error => error.message
  | .directory error => error.message
  | .patch error => "zone patch failed: " ++ error.message
  | .alreadyCommitted => "writer already committed"
  | .timedOut seconds => "publish did not finish within " ++ toString seconds ++ "s"

/-- A call that a commit makes. -/
inductive CommitCall
  | registry (request : Registry.Call)
  | directory (request : (Cached Upkeep).Call)
  | patch (zone : String) (recordSets : List RecordSet)

end Writer

/-- The interface of a commit. -/
def Commit : Interface where
  Call := Writer.CommitCall
  Reply
    | .registry request => Except Registry.Error (Registry.Value request)
    | .directory request => (Cached Upkeep).Reply request
    | .patch _ _ => Except Backend.Error Unit

namespace Writer

open Zone

/-- A part of a commit, which may fail. -/
abbrev Step (α : Type) := ExceptT Error (Process Commit) α

/-- A registry lookup. -/
def lookup (request : Registry.Call) : Step (Registry.Value request) :=
  ExceptT.mk (.call (.registry request) fun reply => .done (reply.mapError .registry))

/-- The directory's calls as calls of a commit. -/
def throughDirectory : Process.Inclusion (Cached Upkeep) Commit where
  call := .directory
  reply _ reply := reply

/-- The id of a zone. -/
def resolve (defaults : Upkeep.Defaults) (zone : String) : Step String :=
  ExceptT.mk ((fun reply => reply.mapError .directory) <$>
    (Directory.resolve defaults zone).embed throughDirectory)

/-- Sends changes to a zone. -/
def patch (zone : String) (changes : List Change) : Step Unit :=
  ExceptT.mk (.call (.patch zone (changes.map Change.toRecordSet)) fun reply =>
    .done (reply.mapError .patch))

/-- What the zone writer is set up with. -/
structure Settings where
  defaults : Upkeep.Defaults
  ttls : TimesToLive

/-- A zone writer: its zone and the names noted so far, in canonical form. -/
structure ZoneWriter where
  zone : String
  domains : List String
  hosts : List String
  committed : Bool
  deriving DecidableEq, Repr

namespace ZoneWriter

/-- A fresh writer for a TLD. -/
def create (tld : String) : ZoneWriter :=
  ⟨Name.canonical tld, [], [], false⟩

/-- The list with a member added at the end, unless it is there. -/
def note (name : String) (names : List String) : List String :=
  if name ∈ names then names else names ++ [name]

/-- Notes a domain. -/
def stageDomain (name : String) (writer : ZoneWriter) : ZoneWriter :=
  { writer with domains := note (Name.canonical name) writer.domains }

/-- Notes a host; one outside the zone is ignored. -/
def stageHost (name : String) (writer : ZoneWriter) : ZoneWriter :=
  let name := Name.canonical name
  if (Name.registeredDomain? name writer.zone).isNone then writer
  else { writer with hosts := note name writer.hosts }

/-- The domains to publish: those noted, and the registered domain of every noted host. -/
def domainsToPublish (writer : ZoneWriter) : List String :=
  writer.hosts.foldl (fun domains host =>
    match Name.registeredDomain? host writer.zone with
    | some domain => note (Name.canonical domain) domains
    | none => domains) writer.domains

/-- Loads the hosts of these names that are registered. -/
def loadHosts : List String → Step (List Host)
  | [] => return []
  | name :: rest => do
    let host ← lookup (.host (Name.bare name))
    let others ← loadHosts rest
    return host.toList ++ others

/-- The operations for one domain, as the registry has it. -/
def domainOperations (ttls : TimesToLive) (name : String) : Step (List Operation) := do
  let domain : Option Domain ← lookup (.domain (Name.bare name))
  let needed :=
    match domain with
    | some domain => if domain.publishable then ownNameservers domain else []
    | none => []
  let glue ← loadHosts needed
  return delegation ttls name domain glue

/-- The operations for several domains. -/
def operationsOf (ttls : TimesToLive) : List String → Step (List Operation)
  | [] => return []
  | name :: rest => do
    let first ← domainOperations ttls name
    let others ← operationsOf ttls rest
    return first ++ others

/-- The changes that everything noted comes to. Every noted host is wiped, which says nothing
where its addresses are asserted. -/
def collectChanges (ttls : TimesToLive) (writer : ZoneWriter) : Step (List Change) := do
  let operations ← operationsOf ttls writer.domainsToPublish
  return changes (operations ++ writer.hosts.map .removeAll)

/-- Publishes what was noted. -/
def publish (settings : Settings) (writer : ZoneWriter) : Step Unit := do
  let changes ← writer.collectChanges settings.ttls
  if changes.isEmpty then return
  let zone ← resolve settings.defaults writer.zone
  patch zone changes

/-- Commits the writer, unless it was committed before. -/
def commit (settings : Settings) (writer : ZoneWriter) :
    Process Commit (Except Error Unit × ZoneWriter) := do
  if writer.committed then return (.error .alreadyCommitted, writer)
  let result ← (writer.publish settings).run
  return (result, { writer with committed := true })

end ZoneWriter

end Writer

end Zonecast
