/-
From the names staged on a writer to the zone. A staged domain is published; a staged host has its
registered domain published and is wiped itself, unless it lies outside of the zone, where it is
ignored. The commit's patch and what it makes of any zone then follow from the names alone,
whatever order they were staged in and however often.
-/
import Zonecast.Proofs.AppliedSets
import Zonecast.Proofs.PatchedZone
import Zonecast.Proofs.StoredContent

namespace Zonecast

open Zone Text

namespace Registry.Content

variable (content : Content)

/-! ### Only which names are published matters -/

theorem delegated?_congr (names others : List String) (same : ∀ name, name ∈ names ↔ name ∈ others)
    (name : String) : content.delegated? names name = content.delegated? others name := by
  unfold delegated?
  by_cases published : name ∈ names
  · rw [if_pos published, if_pos ((same name).mp published)]
  · rw [if_neg published, if_neg (mt (same name).mpr published)]

theorem glued?_congr (names others : List String) (same : ∀ name, name ∈ names ↔ name ∈ others)
    (name : String) : content.glued? names name = content.glued? others name := by
  refine Option.ext fun host => ?_
  rw [glued?_eq_some_iff, glued?_eq_some_iff]
  simp only [same]

/-- What the zone is to hold depends only on which names are published. -/
theorem wanted_congr (ttls : Writer.TimesToLive) (names others : List String)
    (same : ∀ name, name ∈ names ↔ name ∈ others) (name : String) (type : RecordType) :
    content.wanted ttls names name type = content.wanted ttls others name type := by
  rw [wanted, wanted, values, values, delegated?_congr content names others same,
    glued?_congr content names others same]

theorem mem_touched_congr (names otherNames hosts otherHosts : List String)
    (sameNames : ∀ name, name ∈ names ↔ name ∈ otherNames)
    (sameHosts : ∀ name, name ∈ hosts ↔ name ∈ otherHosts) (name : String) :
    name ∈ content.touched names hosts ↔ name ∈ content.touched otherNames otherHosts := by
  rw [mem_touched, mem_touched, sameNames, sameHosts]
  simp only [sameNames]

end Registry.Content

namespace Name

/-- The registered domain does not depend on how host and TLD are written. -/
theorem registeredDomain?_canonical (host tld : String) :
    registeredDomain? (canonical host) (canonical tld) = registeredDomain? host tld := by
  rw [registeredDomain?, toList_canonical, bareChars_bareChars_dot, toList_canonical,
    bareChars_bareChars_dot, registeredDomain?]

end Name

namespace Writer

/-! ### Staging -/

/-- One name staged on a writer. -/
inductive Staging
  | domain (name : String)
  | host (name : String)
  deriving DecidableEq, Repr

namespace Staging

/-- The writer with the name staged. -/
def onto (writer : ZoneWriter) : Staging → ZoneWriter
  | .domain name => writer.stageDomain name
  | .host name => writer.stageHost name

/-- The name that is to be published for a staged one: the domain itself, or the registered domain
of the host. -/
def published? (tld : String) : Staging → Option String
  | .domain name => some (Name.canonical name)
  | .host name => (Name.registeredDomain? name tld).map Name.canonical

/-- The host that is to be wiped for a staged name. -/
def wiped? (tld : String) : Staging → Option String
  | .domain _ => none
  | .host name => (Name.registeredDomain? name tld).map fun _ => Name.canonical name

end Staging

/-- The names that are published for the staged ones. -/
def publishedNames (tld : String) (stagings : List Staging) : List String :=
  stagings.filterMap (Staging.published? tld)

/-- The hosts that are wiped for the staged names. -/
def wipedHosts (tld : String) (stagings : List Staging) : List String :=
  stagings.filterMap (Staging.wiped? tld)

namespace ZoneWriter

/-- A fresh writer with these names staged in this order. -/
def staged (tld : String) (stagings : List Staging) : ZoneWriter :=
  stagings.foldl Staging.onto (create tld)

theorem mem_note (name added : String) (names : List String) :
    name ∈ note added names ↔ name ∈ names ∨ name = added := by
  unfold note
  split
  · rename_i known
    exact ⟨Or.inl, fun either => either.elim id fun same => same ▸ known⟩
  · rw [List.mem_append, List.mem_singleton]

/-- The name to publish for a noted host. -/
def expansion? (writer : ZoneWriter) (host : String) : Option String :=
  (Name.registeredDomain? host writer.zone).map Name.canonical

theorem mem_domainsToPublish (writer : ZoneWriter) (name : String) :
    name ∈ writer.domainsToPublish ↔
      name ∈ writer.domains ∨ ∃ host ∈ writer.hosts, writer.expansion? host = some name := by
  unfold domainsToPublish expansion?
  generalize writer.domains = domains
  induction writer.hosts generalizing domains with
  | nil => simp
  | cons first rest inductionHypothesis =>
    rw [List.foldl_cons, inductionHypothesis]
    cases expanded : Name.registeredDomain? first writer.zone with
    | none => simp [expanded]
    | some domain =>
      have head : (Name.registeredDomain? first writer.zone).map Name.canonical = some name ↔
          name = Name.canonical domain := by
        rw [expanded, Option.map_some, Option.some.injEq, eq_comm]
      dsimp only
      rw [mem_note]
      simp only [List.mem_cons, exists_eq_or_imp]
      rw [head, or_assoc]

/-- The last name staged. -/
theorem staged_concat (tld : String) (stagings : List Staging) (last : Staging) :
    staged tld (stagings ++ [last]) = last.onto (staged tld stagings) := by
  rw [staged, List.foldl_append, List.foldl_cons, List.foldl_nil, staged]

/-- Staging neither moves a writer to another zone nor commits it. -/
theorem staged_keeps (tld : String) (stagings : List Staging) :
    (staged tld stagings).zone = Name.canonical tld ∧
      (staged tld stagings).committed = false := by
  induction stagings using List.reverseRecOn with
  | nil => exact ⟨rfl, rfl⟩
  | append_singleton stagings last inductionHypothesis =>
    rw [staged_concat]
    cases last with
    | domain name => exact inductionHypothesis
    | host name =>
      rw [Staging.onto, stageHost]
      split
      · exact inductionHypothesis
      · exact inductionHypothesis

theorem staged_zone (tld : String) (stagings : List Staging) :
    (staged tld stagings).zone = Name.canonical tld :=
  (staged_keeps tld stagings).1

/-- The hosts that a writer wipes are those staged in its zone. -/
theorem mem_hosts_staged (tld : String) (stagings : List Staging) (name : String) :
    name ∈ (staged tld stagings).hosts ↔ name ∈ wipedHosts tld stagings := by
  unfold wipedHosts
  induction stagings using List.reverseRecOn with
  | nil => exact Iff.rfl
  | append_singleton stagings last inductionHypothesis =>
    rw [staged_concat, List.filterMap_append, List.mem_append, ← inductionHypothesis]
    cases last with
    | domain other =>
      rw [Staging.onto, stageDomain]
      simp [Staging.wiped?]
    | host other =>
      rw [Staging.onto, stageHost, staged_zone, Name.registeredDomain?_canonical]
      cases within : Name.registeredDomain? other tld with
      | none => simp [Staging.wiped?, within]
      | some domain => simp [Staging.wiped?, within, mem_note]

/-- The names that a writer publishes are those that its staged names stand for. -/
theorem mem_domainsToPublish_staged (tld : String) (stagings : List Staging) (name : String) :
    name ∈ (staged tld stagings).domainsToPublish ↔ name ∈ publishedNames tld stagings := by
  rw [mem_domainsToPublish]
  unfold publishedNames expansion?
  rw [staged_zone]
  induction stagings using List.reverseRecOn with
  | nil => simp [staged, create]
  | append_singleton stagings last inductionHypothesis =>
    rw [staged_concat, List.filterMap_append, List.mem_append, ← inductionHypothesis]
    cases last with
    | domain other =>
      rw [Staging.onto, stageDomain]
      simp only [mem_note, Staging.published?, List.filterMap_cons, List.filterMap_nil,
        List.mem_singleton]
      exact or_right_comm
    | host other =>
      rw [Staging.onto, stageHost, staged_zone, Name.registeredDomain?_canonical]
      cases within : Name.registeredDomain? other tld with
      | none => simp [Staging.published?, within]
      | some domain =>
        have added : (∃ host, host = Name.canonical other ∧
            (Name.registeredDomain? host (Name.canonical tld)).map Name.canonical = some name) ↔
            name ∈ [Staging.host other].filterMap (Staging.published? tld) := by
          rw [exists_eq_left, Name.registeredDomain?_canonical, within, Option.map_some,
            Option.some.injEq, List.filterMap_cons, Staging.published?, within, Option.map_some,
            List.filterMap_nil, List.mem_singleton, eq_comm]
        rw [← added, or_assoc, ← exists_or]
        simp only [Option.isNone_some, Bool.false_eq_true, if_false, mem_note, or_and_right]

/-- Published names are in canonical form. -/
theorem canonical_of_published (tld : String) (stagings : List Staging) (name : String)
    (published : name ∈ publishedNames tld stagings) : Name.canonical name = name := by
  obtain ⟨staging, _, expanded⟩ := List.mem_filterMap.mp published
  cases staging with
  | domain other =>
    have same : Name.canonical other = name := Option.some.inj expanded
    exact same ▸ Name.canonical_canonical other
  | host other =>
    obtain ⟨domain, _, rfl⟩ := Option.map_eq_some_iff.mp expanded
    exact Name.canonical_canonical domain

theorem canonical_of_wiped (tld : String) (stagings : List Staging) (name : String)
    (wiped : name ∈ wipedHosts tld stagings) : Name.canonical name = name := by
  obtain ⟨staging, _, expanded⟩ := List.mem_filterMap.mp wiped
  cases staging with
  | domain other => cases expanded
  | host other =>
    obtain ⟨domain, _, rfl⟩ := Option.map_eq_some_iff.mp expanded
    exact Name.canonical_canonical other

/-! ### The patch and the zone -/

section Patch

open Registry

variable (content : Content) (ttls : TimesToLive) (tld : String) (stagings : List Staging)

/-- The glue of every name that a commit of the staged names publishes is that of the hosts of the
names asked for. -/
def NamedFor : Prop :=
  ∀ owner ∈ publishedNames tld stagings, content.NamedAt owner

/-- The changes of a commit of the staged names. -/
def patchOf : List Change :=
  changes (content.plan ttls (staged tld stagings).domainsToPublish (staged tld stagings).hosts)

/-- The names that a commit of the staged names touches. -/
def touchedNames : List String :=
  content.touched (publishedNames tld stagings) (wipedHosts tld stagings)

/-- What such a commit wants a type at a name to be. -/
def wantedAt (name : String) (type : RecordType) : Change :=
  content.wanted ttls (publishedNames tld stagings) name type

theorem mem_touchedNames (name : String) :
    name ∈ content.touched (staged tld stagings).domainsToPublish (staged tld stagings).hosts ↔
      name ∈ touchedNames content tld stagings :=
  content.mem_touched_congr _ _ _ _ (mem_domainsToPublish_staged tld stagings)
    (mem_hosts_staged tld stagings) name

theorem canonical_domainsToPublish (name : String)
    (published : name ∈ (staged tld stagings).domainsToPublish) : Name.canonical name = name :=
  canonical_of_published tld stagings name ((mem_domainsToPublish_staged _ _ _).mp published)

theorem canonical_hosts (name : String) (wiped : name ∈ (staged tld stagings).hosts) :
    Name.canonical name = name :=
  canonical_of_wiped tld stagings name ((mem_hosts_staged _ _ _).mp wiped)

theorem namedAt_domainsToPublish (named : NamedFor content tld stagings) (owner : String)
    (published : owner ∈ (staged tld stagings).domainsToPublish) : content.NamedAt owner :=
  named owner ((mem_domainsToPublish_staged tld stagings owner).mp published)

section Named

variable (named : NamedFor content tld stagings)

include named

/-- The patch speaks of touched names and supported types only. -/
theorem key_of_mem_patchOf (change : Change) (member : change ∈ patchOf content ttls tld stagings) :
    change.name ∈ touchedNames content tld stagings ∧ change.type.isSupported = true := by
  obtain ⟨supported, operation, listed, here⟩ := origin_of_mem_changes _ change member
  refine ⟨?_, supported⟩
  rw [← mem_touchedNames, ← here]
  exact content.subject_mem_touched ttls _ _ (canonical_domainsToPublish tld stagings)
    (canonical_hosts tld stagings) (namedAt_domainsToPublish content tld stagings named) operation
    listed

/-- The patch has one change for each supported type at a touched name, the wanted one. -/
theorem filter_patchOf (name : String) (touched : name ∈ touchedNames content tld stagings)
    (type : RecordType) (supported : type.isSupported = true) :
    (patchOf content ttls tld stagings).filter (·.concerns name type) =
      [wantedAt content ttls tld stagings name type] := by
  rw [← mem_touchedNames] at touched
  rw [patchOf, filter_concerns _ name type (nodup_keys_changes _),
    content.find?_changes_plan ttls _ _ (canonical_domainsToPublish tld stagings)
      (canonical_hosts tld stagings) (namedAt_domainsToPublish content tld stagings named) name
      type supported touched,
    content.wanted_congr ttls _ _ (mem_domainsToPublish_staged tld stagings) name type]
  rfl

/-- Every change of the patch is the wanted one. -/
theorem eq_wantedAt (change : Change) (member : change ∈ patchOf content ttls tld stagings) :
    change = wantedAt content ttls tld stagings change.name change.type := by
  obtain ⟨touched, supported⟩ :=
    key_of_mem_patchOf content ttls tld stagings named change member
  have concerned : change ∈ (patchOf content ttls tld stagings).filter
      (·.concerns change.name change.type) :=
    List.mem_filter.mpr ⟨member, (change.concerns_iff _ _).mpr ⟨rfl, rfl⟩⟩
  rw [filter_patchOf content ttls tld stagings named _ touched _ supported] at concerned
  exact List.mem_singleton.mp concerned

theorem nodup_values (change : Change) (member : change ∈ patchOf content ttls tld stagings)
    (values : List String) (replaced : change.mutation = .replace values) : values.Nodup := by
  rw [eq_wantedAt content ttls tld stagings named change member, wantedAt,
    Content.wanted] at replaced
  split at replaced
  · cases replaced
  · injection replaced with same
    exact same ▸ nodup_distinct _

/-- A zone that the patch was applied to holds at every touched name what is wanted there. -/
theorem setsAt_patched (stored : List RecordSet) (name : String)
    (touched : name ∈ touchedNames content tld stagings) (type : RecordType)
    (supported : type.isSupported = true) :
    Backend.setsAt (Backend.applyRecordSets stored
        ((patchOf content ttls tld stagings).map Change.toRecordSet)) name type.text =
      (wantedAt content ttls tld stagings name type).held := by
  rw [Backend.setsAt_applyRecordSets, setsAt_map_toRecordSet _ (fun change member =>
      (key_of_mem_patchOf content ttls tld stagings named change member).2) name type supported,
    filter_patchOf content ttls tld stagings named name touched type supported,
    List.map_singleton, List.getLast?_singleton, Option.map_some, Option.getD_some,
    left_toRecordSet]

/-- Whether a set lies at a touched name and is of a supported type. -/
def isSettled (name type : String) : Bool :=
  (touchedNames content tld stagings).contains name &&
    (RecordType.supported.map RecordType.text).contains type

theorem isSettled_of_mem_patchOf (change : Change)
    (member : change ∈ patchOf content ttls tld stagings) :
    isSettled content tld stagings change.toRecordSet.name change.toRecordSet.type = true := by
  obtain ⟨touched, supported⟩ :=
    key_of_mem_patchOf content ttls tld stagings named change member
  rw [isSettled, toRecordSet_name, toRecordSet_type, Bool.and_eq_true, List.contains_iff_mem,
    List.contains_iff_mem]
  exact ⟨touched, List.mem_map_of_mem ((RecordType.mem_supported_iff _).mpr supported)⟩

/-- All other sets of the zone stay as they were. -/
theorem filter_patched (stored : List RecordSet) :
    (Backend.applyRecordSets stored
        ((patchOf content ttls tld stagings).map Change.toRecordSet)).filter
          (fun set => !isSettled content tld stagings set.name set.type) =
      stored.filter fun set => !isSettled content tld stagings set.name set.type := by
  refine Backend.filter_applyRecordSets (fun name type => !isSettled content tld stagings name type)
    stored _ fun set listed => ?_
  obtain ⟨change, member, rfl⟩ := List.mem_map.mp listed
  rw [isSettled_of_mem_patchOf content ttls tld stagings named change member]
  rfl

/-- Whatever the registry holds, as long as glue is found under its own name, whichever names were
staged and whatever the zone held before: a commit finds a patch that has, for every touched name,
one change for each supported type and nothing else. Each change replaces what is there with the
registry's values, once each, or deletes it where the registry has none. Applied to a zone, the
patch makes the supported types at touched names equal to these values and leaves everything else
alone. -/
theorem commit_settles_touched_names
    (answer : (request : Commit.Call) → Commit.Reply request) (tells : content.Tells answer) :
    ∃ patch : List Change,
      ((staged tld stagings).collectChanges ttls).run.answered answer = .ok patch ∧
      (∀ change ∈ patch, change.name ∈ touchedNames content tld stagings ∧
        change.type.isSupported = true) ∧
      (∀ name ∈ touchedNames content tld stagings, ∀ type : RecordType, type.isSupported = true →
        patch.filter (·.concerns name type) = [wantedAt content ttls tld stagings name type]) ∧
      (∀ change ∈ patch, ∀ values, change.mutation = .replace values → values.Nodup) ∧
      ∀ stored : List RecordSet,
        (∀ name ∈ touchedNames content tld stagings, ∀ type : RecordType,
          type.isSupported = true →
          Backend.setsAt (Backend.applyRecordSets stored (patch.map Change.toRecordSet)) name
              type.text =
            (wantedAt content ttls tld stagings name type).held) ∧
        (Backend.applyRecordSets stored (patch.map Change.toRecordSet)).filter
            (fun set => !isSettled content tld stagings set.name set.type) =
          stored.filter fun set => !isSettled content tld stagings set.name set.type := by
  refine ⟨patchOf content ttls tld stagings, ?_,
    key_of_mem_patchOf content ttls tld stagings named,
    filter_patchOf content ttls tld stagings named,
    nodup_values content ttls tld stagings named, ?_⟩
  · exact collectChanges_answered tells ttls (staged tld stagings)
  · intro stored
    exact ⟨setsAt_patched content ttls tld stagings named stored,
      filter_patched content ttls tld stagings named stored⟩

end Named

end Patch

/-! ### Glue and its name -/

section Stored

open Registry

def exampleTtls : TimesToLive := ⟨3600, 10800, 3600⟩

/-- A domain is stored with its nameserver, which is a host of its own. -/
def exampleCourse : List Attempt :=
  [⟨.host ⟨"NS1.example.test", "registrar-1", [.v4 192 0 2 1], some "example.test"⟩, none⟩,
    ⟨.domain ⟨"example.test", "registrar-1", true, ["ns1.example.test."], [], []⟩, none⟩]

theorem steady_exampleCourse : Steady (course exampleCourse).1 := by
  have history : (course exampleCourse).1 = exampleCourse.map (·.edit) := by decide +kernel
  intro domain edited nameserver listed
  rw [history] at edited
  obtain rfl : domain = ⟨"example.test", "registrar-1", true, ["ns1.example.test."], [], []⟩ := by
    simpa [exampleCourse] using edited
  obtain rfl := List.mem_singleton.mp listed
  decide +kernel

/-- The lookups of a commit are met by the tables. It is asked to publish a host that is gone: the
old address of that host goes as well, and the glue of the domain comes into the zone. -/
theorem settled_exampleCourse :
    NamedFor (course exampleCourse).2.content "test" [.host "old.example.test"] ∧
      ∃ patch, ((staged "test" [.host "old.example.test"]).collectChanges
          exampleTtls).run.answered ((course exampleCourse).2.answer obliging) = .ok patch ∧
        Backend.setsAt (Backend.applyRecordSets [] (patch.map Change.toRecordSet))
            "ns1.example.test." RecordType.a.text =
          [⟨"ns1.example.test.", "A", 3600, none, [⟨"192.0.2.1", false⟩], []⟩] ∧
        Backend.setsAt (Backend.applyRecordSets
            [⟨"old.example.test.", "A", 3600, none, [⟨"192.0.2.2", false⟩], []⟩]
            (patch.map Change.toRecordSet)) "old.example.test." RecordType.a.text = [] := by
  have records := records_course exampleCourse
  have named : NamedFor (course exampleCourse).2.content "test" [.host "old.example.test"] :=
    fun owner _ => records.named steady_exampleCourse owner
  obtain ⟨patch, collected, _, _, _, settles⟩ :=
    commit_settles_touched_names (course exampleCourse).2.content exampleTtls "test"
      [.host "old.example.test"] named ((course exampleCourse).2.answer obliging)
      (records.tells obliging)
  refine ⟨named, patch, collected, ?_, ?_⟩
  · rw [(settles []).1 "ns1.example.test." (by decide +kernel) .a rfl]
    decide +kernel
  · rw [(settles _).1 "old.example.test." (by decide +kernel) .a rfl]
    decide +kernel

/-- The nameserver of a domain is a host of its own whose name has dots and blanks at its end. There
is another host, of the name that is left without them. -/
def blankDots : List Attempt :=
  [⟨.host ⟨"ns.example.test . .", "registrar-1", [], some "example.test"⟩, none⟩,
    ⟨.host ⟨"ns.example.test", "registrar-1", [.v4 192 0 2 1], none⟩, none⟩,
    ⟨.domain ⟨"example.test", "registrar-1", true, ["ns.example.test . ."], [], []⟩, none⟩]

/-- All of this is stored. The commit of the domain then finds the other host in place of the
nameserver, and puts the address of it at a name that it does not touch. -/
theorem strayed_blankDots :
    (course blankDots).1 = blankDots.map (·.edit) ∧
      ∃ patch, ((staged "test" [.domain "example.test"]).collectChanges exampleTtls).run.answered
          ((course blankDots).2.answer obliging) = .ok patch ∧
        ⟨"ns.example.test.", .a, 3600, .replace ["192.0.2.1"]⟩ ∈ patch ∧
        "ns.example.test." ∉ touchedNames (course blankDots).2.content "test"
          [.domain "example.test"] := by
  refine ⟨by decide +kernel, _,
    collectChanges_answered ((records_course blankDots).tells obliging) exampleTtls _, ?_, ?_⟩
  · decide +kernel
  · decide +kernel

end Stored

end ZoneWriter

end Writer

end Zonecast
