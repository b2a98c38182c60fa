/-
Names that are committed more than once. Deliveries come again, overlap, and are split, so the same
name is committed in several batches, each time next to different others, and a batch that names
only a host clears what another one may have put there. None of this shows in the zone.

The reason is that a touched name has one home, the domain directly under the TLD that it lies at
or under. Only the home decides what the name is to hold, and every batch that touches the name
publishes the home as well: a staged host brings its registered domain along, and a subordinate
host lies under the domain that was found with it. So a batch wants the same at the name, whatever
else it holds, and the last batch that touches a name leaves there what one commit of all names
would leave.
-/
import Zonecast.Proofs.CommittedZones
import Zonecast.Proofs.RegisteredDomains

namespace Zonecast

open Zone Text Writer

namespace Registry.Content

/-- Every subordinate host is its domain's own name or lies strictly under it. -/
def Nested (content : Content) : Prop :=
  ∀ key domain, content.domain? key = some domain → ∀ host ∈ domain.subordinateHosts,
    Name.canonical host = Name.canonical key ∨ Name.isStrictlyUnder host key = true

/-- Names in canonical form that lie directly under a TLD. -/
def Delegable (tld : String) (names : List String) : Prop :=
  ∀ name ∈ names, Name.canonical name = name ∧ Name.isDirectlyUnder name tld = true

/-- Some of the names is the registered domain of this one. -/
def HasHome (tld : String) (names : List String) (name : String) : Prop :=
  ∃ domain, Name.registeredDomain? name tld = some domain ∧ Name.canonical domain ∈ names

section Homes

variable {content : Content} {tld : String} (blankFree : ∀ c ∈ tld.toList, isBlank c = false)

include blankFree

/-! ### Homes -/

/-- The registered domain of a subordinate host is the domain that it was found with. -/
theorem registeredDomain?_of_subordinate (nested : content.Nested) {owner name : String}
    (direct : Name.isDirectlyUnder owner tld = true)
    (subordinate : name ∈ content.subordinates owner) :
    Name.registeredDomain? name tld = some (Name.bare owner) := by
  have stays : Name.bare (Name.bare owner) = Name.bare owner :=
    Name.bare_bare_of_isDirectlyUnder blankFree direct
  unfold subordinates at subordinate
  cases found : content.domain? (Name.bare owner) with
  | none =>
    rw [found] at subordinate
    cases subordinate
  | some domain =>
    rw [found] at subordinate
    obtain ⟨host, listed, rfl⟩ := List.mem_map.mp subordinate
    rw [Name.registeredDomain?_congr tld (Name.bare_canonical host)]
    rcases nested _ domain found host listed with same | below
    · have spelled : Name.bare host = Name.bare owner := by
        rw [← Name.bare_canonical host, same, Name.bare_canonical, stays]
      rw [Name.registeredDomain?_congr tld spelled]
      exact Name.registeredDomain?_of_isDirectlyUnder direct
    · have above : Name.isDirectlyUnder (Name.bare owner) tld = true := by
        rw [← Name.isDirectlyUnder_canonical,
          Name.canonical_bare_of_isDirectlyUnder blankFree direct, Name.isDirectlyUnder_canonical]
        exact direct
      rw [Name.registeredDomain?_of_isStrictlyUnder above below, stays]

/-- What is touched has its home among the published names. -/
theorem hasHome_of_touched (nested : content.Nested) {names hosts : List String}
    (delegable : Delegable tld names) (housed : ∀ host ∈ hosts, HasHome tld names host)
    {name : String} (touched : name ∈ content.touched names hosts) : HasHome tld names name := by
  have home : ∀ owner ∈ names, Name.canonical (Name.bare owner) ∈ names := by
    intro owner published
    obtain ⟨spelled, direct⟩ := delegable owner published
    rwa [Name.canonical_bare_of_isDirectlyUnder blankFree direct, spelled]
  rcases (content.mem_touched names hosts name).mp touched with
    published | wiped | ⟨owner, published, subordinate⟩
  · have direct := (delegable name published).2
    exact ⟨_, Name.registeredDomain?_of_isDirectlyUnder direct, home name published⟩
  · exact housed name wiped
  · have direct := (delegable owner published).2
    exact ⟨_, registeredDomain?_of_subordinate blankFree nested direct subordinate,
      home owner published⟩

/-- A name that is published anywhere is published wherever its home is. -/
theorem mem_of_hasHome {names : List String} {name : String}
    (direct : Name.isDirectlyUnder name tld = true) (spelled : Name.canonical name = name)
    (housed : HasHome tld names name) : name ∈ names := by
  obtain ⟨domain, registered, published⟩ := housed
  rw [Name.registeredDomain?_of_isDirectlyUnder direct] at registered
  obtain rfl : Name.bare name = domain := Option.some.inj registered
  rwa [Name.canonical_bare_of_isDirectlyUnder blankFree direct, spelled] at published

/-- A domain that glues a name is published wherever the name has its home. -/
theorem mem_of_needed (nested : content.Nested) {names : List String} {owner name : String}
    (direct : Name.isDirectlyUnder owner tld = true) (spelled : Name.canonical owner = owner)
    (needed : name ∈ content.needed owner) (housed : HasHome tld names name) : owner ∈ names := by
  have subordinate : name ∈ content.subordinates owner := by
    obtain ⟨domain, found, _, own⟩ := (mem_needed content owner name).mp needed
    rw [hasOwnNameserver, Bool.and_eq_true, List.contains_iff_mem, List.contains_iff_mem] at own
    rw [subordinates, found]
    exact own.2
  obtain ⟨domain, registered, published⟩ := housed
  rw [registeredDomain?_of_subordinate blankFree nested direct subordinate] at registered
  obtain rfl : Name.bare owner = domain := Option.some.inj registered
  rwa [Name.canonical_bare_of_isDirectlyUnder blankFree direct, spelled] at published

/-- What a name is to hold does not depend on what is published next to its home. -/
theorem wanted_of_hasHome (nested : content.Nested) (ttls : TimesToLive)
    {names whole : List String} (within : ∀ owner ∈ names, owner ∈ whole)
    (delegable : Delegable tld whole) {name : String} (housed : HasHome tld names name)
    (type : RecordType) :
    content.wanted ttls names name type = content.wanted ttls whole name type := by
  have published : name ∈ names ↔ name ∈ whole := by
    refine ⟨within name, fun listed => ?_⟩
    obtain ⟨spelled, direct⟩ := delegable name listed
    exact mem_of_hasHome blankFree direct spelled housed
  have delegated : content.delegated? names name = content.delegated? whole name := by
    unfold delegated?
    simp only [published]
  have glued : content.glued? names name = content.glued? whole name := by
    refine Option.ext fun host => ?_
    rw [glued?_eq_some_iff, glued?_eq_some_iff]
    refine and_congr_left fun _ => ⟨?_, ?_⟩
    · rintro ⟨owner, listed, needed⟩
      exact ⟨owner, within owner listed, needed⟩
    · rintro ⟨owner, listed, needed⟩
      obtain ⟨spelled, direct⟩ := delegable owner listed
      exact ⟨owner, mem_of_needed blankFree nested direct spelled needed housed, needed⟩
  rw [wanted, wanted, values, values, delegated, glued]

end Homes

end Registry.Content

namespace Writer

open Registry Registry.Content ZoneWriter

/-! ### Staged names -/

/-- The staged domains lie directly under the TLD. -/
def DirectlyStaged (tld : String) (stagings : List Staging) : Prop :=
  ∀ name, Staging.domain name ∈ stagings → Name.isDirectlyUnder name tld = true

section Staged

variable {content : Content} {tld : String} (blankFree : ∀ c ∈ tld.toList, isBlank c = false)

/-- A wiped host has its home among the names published with it. -/
theorem hasHome_of_wiped {stagings : List Staging} {name : String}
    (wiped : name ∈ wipedHosts tld stagings) :
    HasHome tld (publishedNames tld stagings) name := by
  obtain ⟨staging, listed, expanded⟩ := List.mem_filterMap.mp wiped
  cases staging with
  | domain other => cases expanded
  | host other =>
    obtain ⟨domain, registered, rfl⟩ := Option.map_eq_some_iff.mp expanded
    refine ⟨domain, ?_, List.mem_filterMap.mpr ⟨.host other, listed, ?_⟩⟩
    · rwa [Name.registeredDomain?_congr tld (Name.bare_canonical other)]
    · rw [Staging.published?, registered, Option.map_some]

include blankFree

theorem delegable_publishedNames {stagings : List Staging} (direct : DirectlyStaged tld stagings) :
    Delegable tld (publishedNames tld stagings) := by
  intro name published
  refine ⟨canonical_of_published tld stagings name published, ?_⟩
  obtain ⟨staging, listed, expanded⟩ := List.mem_filterMap.mp published
  cases staging with
  | domain other =>
    obtain rfl : Name.canonical other = name := Option.some.inj expanded
    rw [Name.isDirectlyUnder_canonical]
    exact direct other listed
  | host other =>
    obtain ⟨domain, registered, rfl⟩ := Option.map_eq_some_iff.mp expanded
    rw [Name.isDirectlyUnder_canonical]
    exact Name.isDirectlyUnder_registeredDomain? blankFree registered

/-- A batch wants at the names it touches what a batch with more names wants there. -/
theorem wantedAt_of_touched (nested : content.Nested) (ttls : TimesToLive)
    {batch whole : List Staging} (within : ∀ staging ∈ batch, staging ∈ whole)
    (direct : DirectlyStaged tld whole) {name : String}
    (touched : name ∈ touchedNames content tld batch) (type : RecordType) :
    wantedAt content ttls tld batch name type = wantedAt content ttls tld whole name type := by
  have directBatch : DirectlyStaged tld batch := fun name listed => direct name (within _ listed)
  have housed : HasHome tld (publishedNames tld batch) name :=
    hasHome_of_touched blankFree nested (delegable_publishedNames blankFree directBatch)
      (fun host wiped => hasHome_of_wiped wiped) touched
  refine wanted_of_hasHome blankFree nested ttls ?_ (delegable_publishedNames blankFree direct)
    housed type
  intro owner published
  obtain ⟨staging, listed, expanded⟩ := List.mem_filterMap.mp published
  exact List.mem_filterMap.mpr ⟨staging, within staging listed, expanded⟩

end Staged

/-- Batches touch, one by one, what their names touch together. -/
theorem isSettled_union (content : Content) (tld : String) {batches : List (List Staging)}
    {whole : List Staging}
    (union : ∀ staging, staging ∈ whole ↔ ∃ batch ∈ batches, staging ∈ batch) (name type : String) :
    isSettled content tld whole name type =
      batches.any fun batch => isSettled content tld batch name type := by
  have touched : name ∈ touchedNames content tld whole ↔
      ∃ batch ∈ batches, name ∈ touchedNames content tld batch := by
    simp only [touchedNames, mem_touched, publishedNames, wipedHosts, List.mem_filterMap, union]
    constructor
    · rintro (⟨staging, ⟨batch, listed, inBatch⟩, expanded⟩ |
        ⟨staging, ⟨batch, listed, inBatch⟩, expanded⟩ |
        ⟨owner, ⟨staging, ⟨batch, listed, inBatch⟩, expanded⟩, subordinate⟩)
      · exact ⟨batch, listed, Or.inl ⟨staging, inBatch, expanded⟩⟩
      · exact ⟨batch, listed, Or.inr (Or.inl ⟨staging, inBatch, expanded⟩)⟩
      · exact ⟨batch, listed, Or.inr (Or.inr ⟨owner, ⟨staging, inBatch, expanded⟩, subordinate⟩)⟩
    · rintro ⟨batch, listed, ⟨staging, inBatch, expanded⟩ | ⟨staging, inBatch, expanded⟩ |
        ⟨owner, ⟨staging, inBatch, expanded⟩, subordinate⟩⟩
      · exact Or.inl ⟨staging, ⟨batch, listed, inBatch⟩, expanded⟩
      · exact Or.inr (Or.inl ⟨staging, ⟨batch, listed, inBatch⟩, expanded⟩)
      · exact Or.inr (Or.inr ⟨owner, ⟨staging, ⟨batch, listed, inBatch⟩, expanded⟩, subordinate⟩)
  rw [Bool.eq_iff_iff, List.any_eq_true]
  simp only [isSettled, Bool.and_eq_true, List.contains_iff_mem, touched]
  constructor
  · rintro ⟨⟨batch, listed, reached⟩, supported⟩
    exact ⟨batch, listed, reached, supported⟩
  · rintro ⟨batch, listed, reached, supported⟩
    exact ⟨⟨batch, listed, reached⟩, supported⟩

/-! ### One commit and several -/

section Commits

variable {content : Content} {settings : Settings} {tld : String}

/-- What a commit leaves at a name and a type: what it wants there, if it touches the name. -/
theorem setsAt_committed {stagings : List Staging} (named : NamedFor content tld stagings)
    {stored after : List RecordSet}
    (committed : Committed content settings tld stagings stored after) (name type : String) :
    Backend.setsAt after name type =
      if isSettled content tld stagings name type then
        (wantedAt content settings.ttls tld stagings name (RecordType.ofText type)).held
      else Backend.setsAt stored name type := by
  rw [committed.eq_applied]
  split
  · rename_i settled
    rw [isSettled, Bool.and_eq_true, List.contains_iff_mem, List.contains_iff_mem] at settled
    obtain ⟨touched, typed⟩ := settled
    obtain ⟨supportedType, listed, rfl⟩ := List.mem_map.mp typed
    have supported := (RecordType.mem_supported_iff supportedType).mp listed
    rw [ofText_text supportedType supported]
    exact setsAt_patched content settings.ttls tld stagings named stored name touched
      supportedType supported
  · rename_i unsettled
    rw [Bool.not_eq_true] at unsettled
    -- The sets at this key are among those that the patch leaves alone.
    have narrowed (sets : List RecordSet) : Backend.setsAt sets name type = Backend.setsAt
        (sets.filter fun set => !isSettled content tld stagings set.name set.type) name type := by
      rw [Backend.setsAt, Backend.setsAt, List.filter_filter]
      refine List.filter_congr fun set _ => ?_
      by_cases here : set.name = name ∧ set.type = type
      · rw [here.1, here.2, unsettled, Bool.not_false, Bool.and_true]
      · have apart : (set.name == name && set.type == type) = false := by
          rw [← Bool.not_eq_true]
          simpa using here
        rw [apart, Bool.false_and]
    rw [narrowed, filter_patched content settings.ttls tld stagings named stored, ← narrowed]

variable (blankFree : ∀ c ∈ tld.toList, isBlank c = false)

include blankFree

/-- What a sequence of commits leaves at a name and a type: what one commit of all names wants
there, if any of them touches the name. -/
theorem setsAt_committedAll (nested : content.Nested) (named : content.Named) {whole : List Staging}
    (direct : DirectlyStaged tld whole) {batches : List (List Staging)}
    (within : ∀ batch ∈ batches, ∀ staging ∈ batch, staging ∈ whole)
    {stored after : List RecordSet}
    (sequence : CommittedAll content settings tld batches stored after)
    (name type : String) :
    Backend.setsAt after name type =
      if batches.any fun batch => isSettled content tld batch name type then
        (wantedAt content settings.ttls tld whole name (RecordType.ofText type)).held
      else Backend.setsAt stored name type := by
  induction sequence with
  | none stored => rfl
  | @next batch others stored between after first rest inductionHypothesis =>
    have withinOthers : ∀ batch ∈ others, ∀ staging ∈ batch, staging ∈ whole :=
      fun batch listed => within batch (List.mem_cons_of_mem _ listed)
    rw [inductionHypothesis withinOthers, List.any_cons,
      setsAt_committed (fun owner _ => named owner) first]
    by_cases later : (others.any fun batch => isSettled content tld batch name type) = true
    · rw [if_pos later, later, Bool.or_true, if_pos rfl]
    · rw [if_neg later, Bool.eq_false_iff.mpr later, Bool.or_false]
      split
      · rename_i settled
        rw [isSettled, Bool.and_eq_true, List.contains_iff_mem] at settled
        rw [wantedAt_of_touched blankFree nested settings.ttls
          (within batch List.mem_cons_self) direct settled.1]
      · rfl

end Commits

/-- Whatever the zone held before and however the staged names are spread over batches: as long as
subordinate hosts lie at or under their domains, glue is found under its own name and the staged
domains lie directly under a TLD without blanks, committing the batches one after the other leaves
at every name and type what a single commit of all their names leaves there, and there is such a
commit. -/
theorem committed_once (content : Content) (settings : Settings) (tld : String)
    (blankFree : ∀ c ∈ tld.toList, isBlank c = false) (nested : content.Nested)
    (named : content.Named) (batches : List (List Staging)) (whole : List Staging)
    (union : ∀ staging, staging ∈ whole ↔ ∃ batch ∈ batches, staging ∈ batch)
    (direct : DirectlyStaged tld whole) (stored after : List RecordSet)
    (sequence : CommittedAll content settings tld batches stored after) :
    (∃ single, Committed content settings tld whole stored single) ∧
      ∀ single, Committed content settings tld whole stored single →
        ∀ name type, Backend.setsAt after name type = Backend.setsAt single name type := by
  refine ⟨exists_committed content settings tld whole stored, ?_⟩
  intro single committed name type
  have within : ∀ batch ∈ batches, ∀ staging ∈ batch, staging ∈ whole :=
    fun batch listed staging inBatch => (union staging).mpr ⟨batch, listed, inBatch⟩
  rw [setsAt_committedAll blankFree nested named direct within sequence,
    setsAt_committed (fun owner _ => named owner) committed, isSettled_union content tld union]

/-! ### A host that comes again -/

/-- A registry with one domain, which two of its own hosts belong to; one of them is its
nameserver and is registered. -/
def exampleContent : Content where
  domain? key :=
    if key = "example.test" then
      some ⟨"example.test", "registrar-1", true, ["ns1.example.test", "ns.other.test"], [],
        ["NS1.example.test", "ns2.example.test"]⟩
    else none
  host? key :=
    if key = "ns1.example.test" then
      some ⟨"ns1.example.test", "registrar-1", [.v4 192 0 2 1], some "example.test"⟩
    else none

def exampleSettings : Settings :=
  ⟨⟨"ns.test.", "hostmaster.test.", ["ns.test."], 3600, false, false⟩, ⟨300, 3600, 1800⟩⟩

/-- The domain is published, its nameserver comes alone, then both, and the host again. -/
def exampleBatches : List (List Staging) :=
  [[.domain "example.test"], [.host "ns1.example.test"],
    [.host "ns2.example.test", .domain "Example.test."], [.host "ns1.example.test"]]

theorem nested_exampleContent : exampleContent.Nested := by
  intro key domain found host listed
  simp only [exampleContent] at found
  split at found
  · rename_i here
    obtain rfl := Option.some.inj found
    rw [here]
    have below : ∀ host ∈ ["NS1.example.test", "ns2.example.test"],
        Name.isStrictlyUnder host "example.test" = true := by decide +kernel
    exact Or.inr (below host listed)
  · cases found

theorem named_exampleContent : exampleContent.Named := by
  refine named_of_found _ fun key host found => ?_
  simp only [exampleContent] at found
  split at found
  · rename_i here
    obtain rfl := Option.some.inj found
    rw [here]
    decide +kernel
  · cases found

theorem committed_exampleBatches :
    ∃ after, CommittedAll exampleContent exampleSettings "test" exampleBatches [] after ∧
      Backend.setsAt after "ns1.example.test." "A" =
        [⟨"ns1.example.test.", "A", 300, none, [⟨"192.0.2.1", false⟩], []⟩] ∧
      (∃ single, Committed exampleContent exampleSettings "test" exampleBatches.flatten [] single) ∧
      ∀ single, Committed exampleContent exampleSettings "test" exampleBatches.flatten [] single →
        ∀ name type, Backend.setsAt after name type = Backend.setsAt single name type := by
  have visible : ("test".toList.all fun c => isBlank c == false) = true := by decide
  have blankFree : ∀ c ∈ "test".toList, isBlank c = false :=
    fun c member => eq_of_beq (List.all_eq_true.mp visible c member)
  have union : ∀ staging, staging ∈ exampleBatches.flatten ↔
      ∃ batch ∈ exampleBatches, staging ∈ batch := fun staging => List.mem_flatten
  have direct : DirectlyStaged "test" exampleBatches.flatten := by
    intro name listed
    have spelled : name = "example.test" ∨ name = "Example.test." := by
      simpa [exampleBatches] using listed
    rcases spelled with rfl | rfl
    · decide +kernel
    · decide +kernel
  obtain ⟨after, sequence⟩ :=
    exists_committedAll exampleContent exampleSettings "test" exampleBatches []
  refine ⟨after, sequence, ?_, committed_once exampleContent exampleSettings "test" blankFree
    nested_exampleContent named_exampleContent exampleBatches _ union direct [] after sequence⟩
  rw [setsAt_committedAll blankFree nested_exampleContent named_exampleContent direct
    (fun batch listed staging inBatch => (union staging).mpr ⟨batch, listed, inBatch⟩) sequence]
  decide +kernel

end Writer

end Zonecast
