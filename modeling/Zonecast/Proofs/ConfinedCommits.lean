/-
Nothing outside of a TLD is published for it, and never its apex. The names of a batch are not to
be trusted, so those that do not lie strictly under the TLD are counted and left out. What a commit
then asks to be written comes from more than these names: the registered domains of hosts are
published with them, and the subordinate hosts of every domain found are cleared or glued. Each of
these lies under the TLD in turn, the last of them because the registry has no domain with a
subordinate host elsewhere.

That a name lies under another is a property of its bare form, which neither the canonical form
nor the way to a registered domain changes as long as the TLD has no blanks.
-/
import Zonecast.Proofs.Deliveries
import Zonecast.Proofs.RepeatedCommits

namespace Zonecast

open Zone Text Process Writer

namespace Registry.Content

/-! ### Touched names -/

section Touched

variable {content : Content} {tld : String} (blankFree : ∀ c ∈ tld.toList, isBlank c = false)
  (nested : content.Nested)

include blankFree nested

/-- A subordinate host of a domain under the TLD lies under the TLD. -/
theorem isStrictlyUnder_of_subordinate {owner name : String}
    (below : Name.isStrictlyUnder owner tld = true)
    (subordinate : name ∈ content.subordinates owner) : Name.isStrictlyUnder name tld = true := by
  have key : Name.isStrictlyUnder (Name.bare owner) tld = true := by
    rwa [Name.isStrictlyUnder_congr tld (Name.bare_bare_of_isStrictlyUnder blankFree below)]
  unfold subordinates at subordinate
  cases found : content.domain? (Name.bare owner) with
  | none => simp [found] at subordinate
  | some domain =>
    rw [found] at subordinate
    obtain ⟨host, listed, rfl⟩ := List.mem_map.mp subordinate
    rw [Name.isStrictlyUnder_canonical]
    rcases nested _ domain found host listed with same | under
    · rwa [← Name.isStrictlyUnder_canonical, same, Name.isStrictlyUnder_canonical]
    · exact Name.isStrictlyUnder_trans under key

/-- A commit that publishes and wipes names under the TLD touches no others. -/
theorem isStrictlyUnder_of_touched {names hosts : List String}
    (published : ∀ name ∈ names, Name.isStrictlyUnder name tld = true)
    (wiped : ∀ name ∈ hosts, Name.isStrictlyUnder name tld = true) {name : String}
    (touched : name ∈ content.touched names hosts) : Name.isStrictlyUnder name tld = true := by
  rcases (content.mem_touched names hosts name).mp touched with
    listed | listed | ⟨owner, listed, subordinate⟩
  · exact published name listed
  · exact wiped name listed
  · exact isStrictlyUnder_of_subordinate blankFree nested (published owner listed) subordinate

end Touched

end Registry.Content

namespace Writer

open Registry Registry.Content ZoneWriter

/-! ### Staged names -/

/-- The name that is staged. -/
def Staging.name : Staging → String
  | .domain name | .host name => name

/-- The staged names lie under the TLD. -/
def StagedUnder (tld : String) (stagings : List Staging) : Prop :=
  ∀ staging ∈ stagings, Name.isStrictlyUnder staging.name tld = true

section Staged

variable {tld : String} {stagings : List Staging}

theorem isStrictlyUnder_of_wiped (under : StagedUnder tld stagings) {name : String}
    (wiped : name ∈ wipedHosts tld stagings) : Name.isStrictlyUnder name tld = true := by
  obtain ⟨staging, listed, expanded⟩ := List.mem_filterMap.mp wiped
  cases staging with
  | domain other => cases expanded
  | host other =>
    obtain ⟨domain, _, rfl⟩ := Option.map_eq_some_iff.mp expanded
    rw [Name.isStrictlyUnder_canonical]
    exact under (.host other) listed

variable (blankFree : ∀ c ∈ tld.toList, isBlank c = false)

include blankFree

theorem isStrictlyUnder_of_published (under : StagedUnder tld stagings) {name : String}
    (published : name ∈ publishedNames tld stagings) : Name.isStrictlyUnder name tld = true := by
  obtain ⟨staging, listed, expanded⟩ := List.mem_filterMap.mp published
  cases staging with
  | domain other =>
    obtain rfl : Name.canonical other = name := Option.some.inj expanded
    rw [Name.isStrictlyUnder_canonical]
    exact under (.domain other) listed
  | host other =>
    obtain ⟨domain, registered, rfl⟩ := Option.map_eq_some_iff.mp expanded
    rw [Name.isStrictlyUnder_canonical]
    exact Name.isStrictlyUnder_of_isDirectlyUnder
      (Name.isDirectlyUnder_registeredDomain? blankFree registered)

/-- The patch of names under the TLD speaks of names under the TLD only. -/
theorem isStrictlyUnder_of_mem_patchOf {content : Content} (nested : content.Nested)
    (named : content.Named) (ttls : TimesToLive) (under : StagedUnder tld stagings)
    {change : Change} (member : change ∈ patchOf content ttls tld stagings) :
    Name.isStrictlyUnder change.name tld = true :=
  isStrictlyUnder_of_touched blankFree nested
    (fun _ published => isStrictlyUnder_of_published blankFree under published)
    (fun _ wiped => isStrictlyUnder_of_wiped under wiped)
    (key_of_mem_patchOf content ttls tld stagings (fun owner _ => named owner) change member).1

end Staged

/-! ### Commits -/

/-- The record sets that a call asks to be put into the zone. -/
def requested : CommitCall → List RecordSet
  | .patch _ sets => sets
  | _ => []

section Commits

variable {content : Content} {settings : Settings} {tld : String} {stagings : List Staging}

/-- Whatever path a commit takes and wherever it ends, it asks for the sets of its patch only. -/
theorem requested_of_runs {path : List (Exchange Commit)} {result : Except Error Unit × ZoneWriter}
    (run : Runs ((staged tld stagings).commit settings) path result)
    (told : ∀ exchange ∈ path, content.Told exchange) {exchange : Exchange Commit}
    (member : exchange ∈ path) {set : RecordSet} (asked : set ∈ requested exchange.request) :
    set ∈ (patchOf content settings.ttls tld stagings).map Change.toRecordSet := by
  let kind : CommitCall → Prop := fun request => ∀ set ∈ requested request,
    set ∈ (patchOf content settings.ttls tld stagings).map Change.toRecordSet
  rw [commit_staged] at run
  obtain ⟨publishing, outcome, rest, rfl, first, last⟩ := runs_bind.mp run
  obtain ⟨rfl, _⟩ := runs_done.mp last
  rw [List.append_nil] at told member
  rw [ZoneWriter.publish, run_bind] at first
  obtain ⟨lookups, found, more, rfl, collecting, following⟩ := runs_bind.mp first
  obtain ⟨rfl, _⟩ := collected_of_runs content settings tld stagings collecting
    fun exchange member => told exchange (List.mem_append_left _ member)
  rcases List.mem_append.mp member with earlier | later
  · have lookup := kind_of_mem (only_collectChanges settings.ttls (staged tld stagings)) collecting
      exchange earlier
    generalize exchange.request = request at lookup asked
    cases request with
    | registry | directory => cases asked
    | patch zone sets => exact lookup.elim
  · refine kind_of_mem (show Process.Only kind _ from ?_) following exchange later set asked
    dsimp only
    split
    · trivial
    · refine only_run_bind ?_ fun zone => ⟨fun _ asked => asked, fun _ => trivial⟩
      exact only_bind (only_mono (only_embed throughDirectory _) fun _ through => by
        obtain ⟨inner, rfl⟩ := through
        exact List.forall_mem_nil _) fun _ => trivial

end Commits

end Writer

namespace Publish

open Registry

/-! ### Deliveries -/

/-- The staging that a deed is. -/
def Deed.staging? : Deed → Option Staging
  | .stagedDomain name => some (.domain name)
  | .stagedHost name => some (.host name)
  | _ => none

/-- The names that are handed to the writer, in order. -/
def handed (deeds : List Deed) : List Staging :=
  deeds.filterMap Deed.staging?

/-- The names of a batch that lie strictly under the TLD, in order, domains first. -/
def belonging (batch : Batch) (tld : String) : List Staging :=
  ((batch.domains.filter fun name => Name.isStrictlyUnder name tld).map .domain) ++
    (batch.hosts.filter fun name => Name.isStrictlyUnder name tld).map .host

section Handed

variable (batch : Batch) (tld : String)

theorem stagedUnder_belonging : StagedUnder tld (belonging batch tld) := by
  intro staging member
  rcases List.mem_append.mp member with listed | listed
  · obtain ⟨name, kept, rfl⟩ := List.mem_map.mp listed
    exact (List.mem_filter.mp kept).2
  · obtain ⟨name, kept, rfl⟩ := List.mem_map.mp listed
    exact (List.mem_filter.mp kept).2

theorem handed_stagings : handed (stagings batch tld) = belonging batch tld := by
  have domains : Deed.staging? ∘ Deed.stagedDomain = some ∘ Staging.domain := rfl
  have hosts : Deed.staging? ∘ Deed.stagedHost = some ∘ Staging.host := rfl
  simp only [handed, stagings, belonging, List.filterMap_append, List.filterMap_map, domains,
    hosts, List.filterMap_eq_map]

theorem handed_publishing (reply? : Option (Except Writer.Error Unit)) :
    handed (publishing batch tld reply?) = belonging batch tld := by
  have front : handed (publishing batch tld reply?) = handed (stagings batch tld) := by
    simp [handed, publishing, tallies, List.filterMap_cons, Deed.staging?]
  rw [front, handed_stagings]

/-- Every name of a list is counted once. -/
theorem tally_total (names : List String) :
    (Leased.tally tld names).accepted + (Leased.tally tld names).rejected = names.length := by
  have others : (fun name => decide ¬Name.isStrictlyUnder name tld = true) =
      fun name => !Name.isStrictlyUnder name tld := by
    funext name
    simp
  rw [List.length_eq_countP_add_countP fun name => Name.isStrictlyUnder name tld, others]
  rfl

end Handed

/-- What is done with a batch under the lease stays within its TLD. -/
structure Confined (content : Content) (settings : Writer.Settings) (batch : Batch) (tld : String)
    (deeds : List Deed) (ended? : Option (Except LeasedError Outcome)) : Prop where
  /-- Every run asks for the writer of the batch, which need not be known. -/
  created : ∃ known, .created batch.writer tld known ∈ deeds
  handed : ∀ known, .created batch.writer tld known ∈ deeds →
    handed deeds = if known then belonging batch tld else []
  /-- The names that were handed to the writer are counted as accepted, the others as rejected. -/
  counted : .created batch.writer tld true ∈ deeds → ∃ domains hosts : Counts,
    domains.accepted = (batch.domains.filter fun name => Name.isStrictlyUnder name tld).length ∧
    domains.accepted + domains.rejected = batch.domains.length ∧
    hosts.accepted = (batch.hosts.filter fun name => Name.isStrictlyUnder name tld).length ∧
    hosts.accepted + hosts.rejected = batch.hosts.length ∧
    (∀ deed ∈ [Deed.counted (.domains tld .accepted (UInt64.ofNat domains.accepted)),
        .counted (.domains tld .rejected (UInt64.ofNat domains.rejected)),
        .counted (.hosts tld .accepted (UInt64.ofNat hosts.accepted)),
        .counted (.hosts tld .rejected (UInt64.ofNat hosts.rejected))], deed ∈ deeds) ∧
    ∀ outcome, ended? = some (.ok outcome) → outcome = .succeeded domains hosts
  /-- However the commit goes, it asks for sets under the TLD only, and for none at its apex. -/
  patched : ∀ path result,
    Runs ((ZoneWriter.staged tld (Publish.handed deeds)).commit settings) path result →
    (∀ exchange ∈ path, content.Told exchange) →
    ∀ exchange ∈ path, ∀ set ∈ requested exchange.request,
      Name.isStrictlyUnder set.name tld = true ∧ Name.canonical set.name ≠ Name.canonical tld

/-- Nothing outside of a TLD without blanks is published for it, and never its apex, whatever the
names of a batch are. The writer is handed the names strictly under the TLD, in order; all names
are counted; and if the subordinate hosts of every domain of the registry are the domain or lie
strictly under it and glue is found under its own name, every set that the writer's commit asks for
lies strictly under the TLD. -/
theorem confined_of_does (content : Content) (settings : Writer.Settings) (batch : Batch)
    (tld : String) (blankFree : ∀ c ∈ tld.toList, isBlank c = false) (nested : content.Nested)
    (named : content.Named) (deeds : List Deed) (ended? : Option (Except LeasedError Outcome))
    (done : Does (Delivery.underDeadline (Leased.work batch tld)) deeds ended?) :
    Confined content settings batch tld deeds ended? := by
  have worked := worked_of_does done
  have staged : StagedUnder tld (handed deeds) := by
    cases worked with
    | published reply? => exact handed_publishing batch tld reply? ▸ stagedUnder_belonging batch tld
    | returned reply? => exact fun _ => nofun
  constructor
  case created =>
    cases worked with
    | published reply? => exact ⟨true, by simp [publishing]⟩
    | returned reply? => exact ⟨false, by simp [returning]⟩
  case handed =>
    intro known member
    cases worked with
    | published reply? =>
      obtain rfl : known = true := by simpa [publishing, stagings, tallies] using member
      exact handed_publishing batch tld reply?
    | returned reply? =>
      obtain rfl : known = false := by simpa [returning] using member
      rfl
  case counted =>
    intro known
    cases worked with
    | returned reply? => simp [returning] at known
    | published reply? =>
      refine ⟨Leased.tally tld batch.domains, Leased.tally tld batch.hosts,
        List.countP_eq_length_filter, tally_total tld _, List.countP_eq_length_filter,
        tally_total tld _, fun deed member => ?_, fun outcome same => ?_⟩
      · exact List.mem_cons_of_mem _ (List.mem_append_right _ (List.mem_append_left _ member))
      · rcases reply? with _ | (source | value) <;> cases same
        rfl
  case patched =>
    intro path result run told exchange member set asked
    have patched := requested_of_runs run told member asked
    obtain ⟨change, changed, rfl⟩ := List.mem_map.mp patched
    have under := isStrictlyUnder_of_mem_patchOf blankFree nested named settings.ttls staged changed
    rw [toRecordSet_name]
    exact ⟨under, Name.canonical_ne_of_isStrictlyUnder under⟩

/-! ### Stray names -/

/-- A batch with names of another TLD, the TLD itself and a name that only ends like it. -/
def exampleStrays : Batch where
  tld := "test"
  writer := "PowerDnsWriter"
  lockIndex := 1
  lockCount := 1
  domains := ["example.test", "example.org", "test.", "contest", "www.Example.TEST.", " .test"]
  hosts := ["ns1.example.test", "ns.test.org"]
  enqueuedAt := .ofMillis 0
  itemsCreatedAt := .ofMillis 0

/-- The writer is known and its commit succeeds. -/
def exampleClimate : Climate := ⟨1, true, some (.ok ()), none⟩

def exampleWork : Process Delivery (Option (Except LeasedError Outcome)) :=
  Delivery.underDeadline (Leased.work exampleStrays "test")

theorem confined_exampleStrays :
    exampleContent.Nested ∧
      Does exampleWork (ledger (exampleWork.trace exampleClimate.reply))
        (some (.ok (.succeeded ⟨3, 3⟩ ⟨1, 1⟩))) ∧
      handed (ledger (exampleWork.trace exampleClimate.reply)) =
        [.domain "example.test", .domain "www.Example.TEST.", .domain " .test",
          .host "ns1.example.test"] ∧
      Confined exampleContent exampleSettings exampleStrays "test"
        (ledger (exampleWork.trace exampleClimate.reply))
        (some (.ok (.succeeded ⟨3, 3⟩ ⟨1, 1⟩))) := by
  have visible : ("test".toList.all fun c => isBlank c == false) = true := by decide
  have blankFree : ∀ c ∈ "test".toList, isBlank c = false :=
    fun c member => eq_of_beq (List.all_eq_true.mp visible c member)
  have ended : exampleWork.answered exampleClimate.reply =
      some (.ok (.succeeded ⟨3, 3⟩ ⟨1, 1⟩)) := by decide +kernel
  have done : Does exampleWork (ledger (exampleWork.trace exampleClimate.reply))
      (some (.ok (.succeeded ⟨3, 3⟩ ⟨1, 1⟩))) :=
    ⟨_, ended ▸ runs_trace exampleClimate.reply exampleWork, rfl⟩
  exact ⟨nested_exampleContent, done, by decide +kernel,
    confined_of_does exampleContent exampleSettings exampleStrays "test" blankFree
      nested_exampleContent named_exampleContent _ _ done⟩

end Publish

end Zonecast
