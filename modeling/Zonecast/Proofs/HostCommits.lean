/-
Committing a host and committing its domain come to the same. A staged host has its registered
domain published, which is found from its labels, while the registry says on its own account which
domain a host belongs to. Where the two agree, a commit of the host alone and one of the domain
alone publish the same name and touch the same others, so they leave the same zone; and glue that
the domain needs is there after either.

The two agree if the domain is its own registered domain, the one directly under the TLD. The
registry may hold a host of a domain further down. Its commit then publishes the domain directly
under the TLD, which knows nothing of the host, and takes the host's glue out of the zone.
-/
import Zonecast.Proofs.RepeatedCommits

namespace Zonecast

open Zone Text

/-- A registry whose domains list as subordinate those hosts that name them as superordinate. -/
def Registry.Content.Matched (content : Content) : Prop :=
  ∀ key domain, content.domain? key = some domain → ∀ name,
    Name.canonical name ∈ domain.subordinateHosts.map Name.canonical ↔
      ∃ host superordinate, content.host? (Name.bare name) = some host ∧
        host.superordinateDomain = some superordinate ∧ Name.bare superordinate = key

/-- The contents of the records of a type at a name. -/
def Backend.contentsAt (sets : List RecordSet) (name : String) (type : RecordType) : List String :=
  (setsAt sets name type.text).flatMap fun set => set.records.map (·.content)

theorem Writer.contents_held (change : Change) :
    (change.held.flatMap fun set => set.records.map (·.content)) =
      match change.mutation with
      | .replace values => values
      | .delete => [] := by
  unfold Change.held
  cases change.mutation with
  | replace values =>
    rw [List.flatMap_singleton, List.map_map]
    exact List.map_id values
  | delete => rfl

namespace Zone

/-- Patches that have the same change for every key make the same of every zone. -/
theorem setsAt_applied_of_find? {first second : List Operation}
    (same : ∀ name type, type.isSupported = true →
      (changes first).find? (·.concerns name type) = (changes second).find? (·.concerns name type))
    (stored : List RecordSet) (name type : String) :
    Backend.setsAt (Backend.applyRecordSets stored ((changes first).map Change.toRecordSet)) name
        type =
      Backend.setsAt (Backend.applyRecordSets stored ((changes second).map Change.toRecordSet)) name
        type := by
  have carried (operations : List Operation) :
      ∀ change ∈ changes operations, change.type.isSupported = true :=
    fun change member => (origin_of_mem_changes operations change member).1
  have listed : Backend.setsAt ((changes first).map Change.toRecordSet) name type =
      Backend.setsAt ((changes second).map Change.toRecordSet) name type := by
    by_cases typed : type ∈ RecordType.supported.map RecordType.text
    · obtain ⟨supportedType, member, rfl⟩ := List.mem_map.mp typed
      have supported := (RecordType.mem_supported_iff supportedType).mp member
      rw [setsAt_map_toRecordSet _ (carried first) name supportedType supported,
        setsAt_map_toRecordSet _ (carried second) name supportedType supported,
        filter_concerns _ _ _ (nodup_keys_changes first),
        filter_concerns _ _ _ (nodup_keys_changes second), same name supportedType supported]
    · -- No patch has a set of another type.
      have none (operations : List Operation) :
          Backend.setsAt ((changes operations).map Change.toRecordSet) name type = [] := by
        refine List.filter_eq_nil_iff.mpr fun set member => ?_
        obtain ⟨change, changed, rfl⟩ := List.mem_map.mp member
        rw [Bool.and_eq_true, beq_iff_eq, beq_iff_eq, toRecordSet_type]
        rintro ⟨_, rfl⟩
        exact typed (List.mem_map_of_mem
          ((RecordType.mem_supported_iff _).mpr (carried operations change changed)))
      rw [none, none]
  rw [Backend.setsAt_applyRecordSets, Backend.setsAt_applyRecordSets, listed]

end Zone

/-- Wiping a name that is touched anyway changes nothing. -/
theorem Registry.Content.find?_changes_wiped (content : Content) (ttls : Writer.TimesToLive)
    {names : List String} {host : String}
    (canonicalNames : ∀ owner ∈ names, Name.canonical owner = owner)
    (spelled : Name.canonical host = host) (touched : host ∈ content.touched names [])
    (name : String) (type : RecordType) (supported : type.isSupported = true) :
    (changes (content.plan ttls names [host])).find? (·.concerns name type) =
      (changes (content.plan ttls names [])).find? (·.concerns name type) := by
  have whole : content.plan ttls names [host] =
      content.plan ttls names [] ++ [.removeAll host] := by
    rw [plan, plan, List.map_nil, List.append_nil]
    rfl
  have asserted : assertedNames (content.plan ttls names [host]) =
      assertedNames (content.plan ttls names []) := by
    rw [whole, assertedNames, assertedNames, List.filterMap_append]
    exact List.append_nil _
  rw [find?_changes _ name type supported, find?_changes _ name type supported, asserted, whole,
    Writer.assertions_append, List.any_append]
  have silent : Zone.assertions name type [.removeAll host] = [] := rfl
  rw [silent, List.append_nil]
  by_cases last : Operation.removes
      (assertedNames (content.plan ttls names [])) name type (.removeAll host) = true
  · have here : host = name := by
      rw [Operation.removes, decide_eq_true_iff, spelled] at last
      exact last.1
    rw [here] at touched
    rw [content.removes_touched ttls names [] canonicalNames (List.forall_mem_nil _) name type
      supported touched, Bool.true_or]
  · rw [List.any_cons, List.any_nil, Bool.or_false, Bool.eq_false_iff.mpr last, Bool.or_false]

namespace Writer

open Registry Registry.Content ZoneWriter

/-- A host of the registry and the domain that it says it belongs to, as both lie in the zone of a
TLD: the host at or below the domain, and the domain its own registered domain. -/
structure Housed (content : Content) (tld name owner : String) (host : Host) (domain : Domain) :
    Prop where
  host_found : content.host? (Name.bare name) = some host
  superordinate : host.superordinateDomain = some owner
  domain_found : content.domain? (Name.bare owner) = some domain
  below : Name.canonical name = Name.canonical owner ∨ Name.isStrictlyUnder name owner = true
  registered : (Name.registeredDomain? owner tld).map Name.canonical = some (Name.canonical owner)

section Housed

variable {content : Content} {settings : Settings} {tld name owner : String} {host : Host}
  {domain : Domain}

/-- The labels of the host lead to the domain that the registry has for it. -/
theorem Housed.publishedNames (housed : Housed content tld name owner host domain) :
    publishedNames tld [.host name] = [Name.canonical owner] := by
  have same : Name.registeredDomain? name tld = Name.registeredDomain? owner tld := by
    rcases housed.below with here | below
    · refine Name.registeredDomain?_congr tld ?_
      rw [← Name.bare_canonical name, here, Name.bare_canonical]
    · obtain ⟨registered, found, _⟩ := Option.map_eq_some_iff.mp housed.registered
      have above : Name.isStrictlyUnder owner tld = true := by
        obtain ⟨filled, before, _, whole, _⟩ :=
          (Name.registeredDomain?_eq_some_iff owner tld registered).mp found
        exact (Name.isStrictlyUnder_iff owner tld).mpr ⟨filled, before, whole⟩
      exact Name.registeredDomain?_of_below below above
  exact List.filterMap_cons_some ((congrArg _ same).trans housed.registered)

/-- A commit of the host alone publishes the domain and wipes the host. -/
theorem Housed.patchOf_host (housed : Housed content tld name owner host domain)
    (ttls : TimesToLive) : patchOf content ttls tld [.host name] =
      changes (content.plan ttls [Name.canonical owner] [Name.canonical name]) := by
  have published := housed.publishedNames
  rw [Writer.publishedNames, List.filterMap_cons, Staging.published?] at published
  obtain ⟨registered, found⟩ : ∃ registered, Name.registeredDomain? name tld = some registered := by
    cases found : Name.registeredDomain? name tld with
    | some registered => exact ⟨registered, rfl⟩
    | none =>
      rw [found] at published
      cases published
  rw [found] at published
  have spelled : Name.canonical registered = Name.canonical owner := (List.cons.inj published).1
  have within : Name.registeredDomain? (Name.canonical name) (Name.canonical tld) =
      some registered := (Name.registeredDomain?_canonical name tld).trans found
  have writer : staged tld [.host name] =
      ⟨Name.canonical tld, [], [Name.canonical name], false⟩ := by
    rw [staged, List.foldl_cons, List.foldl_nil, Staging.onto, stageHost, create, within]
    rfl
  have names : (staged tld [.host name]).domainsToPublish = [Name.canonical owner] := by
    rw [writer, ← spelled, domainsToPublish, List.foldl_cons, List.foldl_nil, within]
    rfl
  rw [patchOf, names, writer]

/-- A commit of the domain alone publishes it. -/
theorem patchOf_domain (content : Content) (ttls : TimesToLive) (tld owner : String) :
    patchOf content ttls tld [.domain owner] =
      changes (content.plan ttls [Name.canonical owner] []) :=
  rfl

/-- The host's name is touched with the domain's, as a subordinate host. -/
theorem Housed.touched (housed : Housed content tld name owner host domain)
    (matched : content.Matched) :
    Name.canonical name ∈ content.touched [Name.canonical owner] [] := by
  refine (content.mem_touched _ _ _).mpr (Or.inr (Or.inr ⟨_, List.mem_singleton_self _, ?_⟩))
  rw [subordinates, Name.bare_canonical, housed.domain_found]
  exact (matched _ _ housed.domain_found name).mpr
    ⟨host, owner, housed.host_found, housed.superordinate, rfl⟩

/-- The domain needs the addresses of its host if it uses the host as nameserver. -/
theorem Housed.glued (housed : Housed content tld name owner host domain)
    (matched : content.Matched) (publishable : domain.publishable = true)
    (used : Name.canonical name ∈ domain.nameservers.map Name.canonical) :
    content.glued? [Name.canonical owner] (Name.canonical name) = some host := by
  rw [glued?_eq_some_iff, Name.bare_canonical]
  refine ⟨⟨_, List.mem_singleton_self _, ?_⟩, housed.host_found⟩
  rw [mem_needed, Name.bare_canonical]
  refine ⟨domain, housed.domain_found, publishable, ?_⟩
  rw [hasOwnNameserver, Bool.and_eq_true, List.contains_iff_mem, List.contains_iff_mem]
  exact ⟨used, (matched _ _ housed.domain_found name).mpr
    ⟨host, owner, housed.host_found, housed.superordinate, rfl⟩⟩

/-- What a change that is wanted leaves behind are the wanted values. -/
theorem contents_wanted (content : Content) (ttls : TimesToLive) (names : List String)
    (name : String) (type : RecordType) :
    ((content.wanted ttls names name type).held.flatMap fun set => set.records.map (·.content)) =
      distinct (content.values names name type) := by
  rw [contents_held, Content.wanted]
  by_cases none : distinct (content.values names name type) = []
  · rw [if_pos none, none]
    rfl
  · rw [if_neg none]

/-- After a commit of the domain its glue is there. -/
theorem Housed.contentsAt (housed : Housed content tld name owner host domain)
    (matched : content.Matched) (named : content.NamedAt (Name.canonical owner))
    (publishable : domain.publishable = true)
    (used : Name.canonical name ∈ domain.nameservers.map Name.canonical)
    {stored after : List RecordSet}
    (committed : Committed content settings tld [.domain owner] stored after) {type : RecordType}
    (address : type = .a ∨ type = .aaaa) :
    Backend.contentsAt after (Name.canonical name) type = distinct (hostValues type host) := by
  have supported : type.isSupported = true := by rcases address with rfl | rfl <;> rfl
  have settled : ZoneWriter.isSettled content tld [.domain owner] (Name.canonical name) type.text =
      true := by
    rw [ZoneWriter.isSettled, Bool.and_eq_true, List.contains_iff_mem, List.contains_iff_mem]
    exact ⟨housed.touched matched,
      List.mem_map_of_mem ((RecordType.mem_supported_iff type).mpr supported)⟩
  -- The domain's own values are of other types.
  have domains : ∀ domain? : Option Domain, (domain?.map (domainValues type)).getD [] = [] := by
    rcases address with rfl | rfl <;> rintro (_ | _) <;> rfl
  have namedFor : NamedFor content tld [.domain owner] := by
    intro other published
    obtain rfl : other = Name.canonical owner := List.mem_singleton.mp published
    exact named
  rw [Backend.contentsAt, setsAt_committed namedFor committed, if_pos settled,
    ofText_text type supported]
  refine (contents_wanted content settings.ttls _ _ type).trans ?_
  rw [values, domains, List.nil_append]
  exact congrArg distinct (congrArg (fun host? => (Option.map (hostValues type) host?).getD [])
    (housed.glued matched publishable used))

/-- Committing a host alone and committing its domain alone leave the same at every name, and glue
that the domain needs is among it if glue is found under its own name. -/
theorem host_commits_as_domain (content : Content) (settings : Settings) (tld : String)
    (matched : content.Matched) (name owner : String) (host : Host) (domain : Domain)
    (housed : Housed content tld name owner host domain) (stored : List RecordSet) :
    (∃ after, Committed content settings tld [.host name] stored after) ∧
      (∃ after, Committed content settings tld [.domain owner] stored after) ∧
      ∀ first second, Committed content settings tld [.host name] stored first →
        Committed content settings tld [.domain owner] stored second →
        (∀ other type, Backend.setsAt first other type = Backend.setsAt second other type) ∧
        (content.NamedAt (Name.canonical owner) → domain.publishable = true →
          Name.canonical name ∈ domain.nameservers.map Name.canonical →
          ∀ type, type = .a ∨ type = .aaaa →
            Backend.contentsAt first (Name.canonical name) type =
              distinct (hostValues type host)) := by
  refine ⟨exists_committed _ _ _ _ _, exists_committed _ _ _ _ _, ?_⟩
  intro first second committed other
  have agree : ∀ other type,
      Backend.setsAt first other type = Backend.setsAt second other type := by
    intro key type
    rw [committed.eq_applied, other.eq_applied, housed.patchOf_host, patchOf_domain]
    refine setsAt_applied_of_find? (content.find?_changes_wiped settings.ttls ?_
      (Name.canonical_canonical name) (housed.touched matched)) stored key type
    intro published listed
    obtain rfl := List.mem_singleton.mp listed
    exact Name.canonical_canonical owner
  refine ⟨agree, fun named publishable used type address => ?_⟩
  rw [Backend.contentsAt, agree]
  exact housed.contentsAt matched named publishable used other address

end Housed

/-! ### One domain and its nameserver -/

/-- A registry of one domain and one host, which is its nameserver and its subordinate host. -/
def pairContent (name owner : String) : Content where
  domain? key :=
    if key = owner then some ⟨owner, "registrar-1", true, [name], [], [name]⟩ else none
  host? key :=
    if key = name then some ⟨name, "registrar-1", [.v4 192 0 2 1], some owner⟩ else none

theorem named_pairContent {name owner : String} (plain : Name.bare name = name) :
    (pairContent name owner).Named := by
  refine named_of_found _ fun key host found => ?_
  simp only [pairContent] at found
  split at found
  · rename_i here
    obtain rfl := Option.some.inj found
    exact plain.trans here.symm
  · cases found

theorem matched_pairContent {name owner : String} (plain : Name.bare name = name)
    (plainOwner : Name.bare owner = owner) : (pairContent name owner).Matched := by
  intro key domain found other
  simp only [pairContent] at found ⊢
  split at found
  · rename_i here
    obtain rfl := Option.some.inj found
    rw [List.map_singleton, List.mem_singleton]
    constructor
    · intro same
      have spelled : Name.bare other = name := by
        rw [← Name.bare_canonical other, same, Name.bare_canonical, plain]
      exact ⟨_, owner, if_pos spelled, rfl, plainOwner.trans here.symm⟩
    · rintro ⟨host, superordinate, registered, _, _⟩
      split at registered
      · rename_i spelled
        exact Name.canonical_eq_of_bare_eq _ _ (spelled.trans plain.symm)
      · cases registered
  · cases found

/-- The domain lies directly under the TLD. -/
def directContent : Content :=
  pairContent "ns.example.test" "example.test"

/-- The zone has an old address of the nameserver, which is committed alone. -/
theorem host_commits_as_domain_directContent :
    ∃ after, Committed directContent exampleSettings "test" [.host "NS.example.test"]
        [⟨"ns.example.test.", "A", 300, none, [⟨"192.0.2.9", false⟩], []⟩] after ∧
      Backend.contentsAt after "ns.example.test." .a = ["192.0.2.1"] := by
  have housed : Housed directContent "test" "NS.example.test" "example.test"
      ⟨"ns.example.test", "registrar-1", [.v4 192 0 2 1], some "example.test"⟩
      ⟨"example.test", "registrar-1", true, ["ns.example.test"], [], ["ns.example.test"]⟩ :=
    ⟨by decide +kernel, rfl, by decide +kernel, Or.inr (by decide +kernel), by decide +kernel⟩
  obtain ⟨⟨after, committed⟩, ⟨other, also⟩, agree⟩ :=
    host_commits_as_domain directContent exampleSettings "test"
      (matched_pairContent (by decide +kernel) (by decide +kernel)) _ _ _ _ housed
      [⟨"ns.example.test.", "A", 300, none, [⟨"192.0.2.9", false⟩], []⟩]
  have spelled : Name.canonical "NS.example.test" = "ns.example.test." := by decide +kernel
  refine ⟨after, committed, ?_⟩
  rw [← spelled, (agree after other committed also).2 (named_pairContent (by decide +kernel) _) rfl
    (by decide +kernel) .a (Or.inl rfl)]
  decide +kernel

/-- The domain lies two labels under the TLD. -/
def deeperContent : Content :=
  pairContent "ns.b.a.test" "b.a.test"

/-- A zone with the glue of that domain. -/
def gluedZone : List RecordSet :=
  [⟨"ns.b.a.test.", "A", 300, none, [⟨"192.0.2.1", false⟩], []⟩]

/-- Committed alone, the nameserver of a domain further down loses the address that a commit of
the domain leaves in the zone. -/
theorem host_departs_from_deeper_domain :
    deeperContent.Matched ∧
      (deeperContent.host? "ns.b.a.test").bind (·.superordinateDomain) = some "b.a.test" ∧
      (deeperContent.domain? "b.a.test").isSome ∧ Name.isStrictlyUnder "b.a.test" "test" = true ∧
      Name.isStrictlyUnder "ns.b.a.test" "b.a.test" = true ∧
      ∃ first second,
        Committed deeperContent exampleSettings "test" [.host "ns.b.a.test"] gluedZone first ∧
        Committed deeperContent exampleSettings "test" [.domain "b.a.test"] gluedZone second ∧
        Backend.contentsAt first "ns.b.a.test." .a = [] ∧
        Backend.contentsAt second "ns.b.a.test." .a = ["192.0.2.1"] := by
  refine ⟨matched_pairContent (by decide +kernel) (by decide +kernel), by decide +kernel,
    by decide +kernel, by decide +kernel, by decide +kernel, ?_⟩
  obtain ⟨first, committed⟩ :=
    exists_committed deeperContent exampleSettings "test" [.host "ns.b.a.test"] gluedZone
  obtain ⟨second, also⟩ :=
    exists_committed deeperContent exampleSettings "test" [.domain "b.a.test"] gluedZone
  have named : deeperContent.Named := named_pairContent (by decide +kernel)
  refine ⟨first, second, committed, also, ?_, ?_⟩
  · rw [Backend.contentsAt, setsAt_committed (fun owner _ => named owner) committed]
    decide +kernel
  · rw [Backend.contentsAt, setsAt_committed (fun owner _ => named owner) also]
    decide +kernel

end Writer

end Zonecast
