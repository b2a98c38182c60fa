/-
What a commit makes of a zone. The names that a commit touches are those it publishes, the hosts
that were staged, and the subordinate hosts of every domain that it finds. At each of them, and
nowhere else, its patch holds exactly one change of each supported type: the one that brings the
type to what the registry wants. A zone that the patch is applied to therefore holds, at every
touched name, what the registry wants and nothing else of these types, whatever it held before.

The step that needs care is the removal. Where nothing is asserted at a name, the removal of all
types reaches every type; where something is, it reaches none. So every name at which anything is
asserted must be cleared type by type as well.
-/
import Zonecast.Backend.Store
import Zonecast.Proofs.WantedRecords

namespace Zonecast

open Zone Text Writer

namespace Writer

/-! ### Removals -/

theorem remove_mem_clear (name : String) (type : RecordType) (supported : type.isSupported = true) :
    Operation.remove name type ∈ clear name :=
  List.mem_cons_of_mem _ (List.mem_map_of_mem ((RecordType.mem_supported_iff type).mpr supported))

theorem subject_clear (name : String) (operation : Operation) (member : operation ∈ clear name) :
    operation.subject = Name.canonical name := by
  rcases List.mem_cons.mp member with rfl | removal
  · rfl
  · obtain ⟨type, _, rfl⟩ := List.mem_map.mp removal
    rfl

theorem subject_glueOperations (ttls : TimesToLive) (name : String) (addresses : List Address)
    (operation : Operation) (member : operation ∈ glueOperations ttls name addresses) :
    operation.subject = Name.canonical name := by
  rcases List.mem_append.mp member with cleared | asserted
  · exact subject_clear name operation cleared
  · obtain ⟨address, _, rfl⟩ := List.mem_map.mp asserted
    rfl

/-- What a publishable domain asserts speaks of its own name or of a glue host's. -/
theorem mem_assertions (ttls : TimesToLive) (name : String) (domain : Domain) (glue : List Host)
    (operation : Operation) (member : operation ∈ assertions ttls name domain glue) :
    operation.subject = Name.canonical name ∨
      ∃ host ∈ glue, operation ∈ glueOperations ttls (Name.canonical host.name) host.addresses := by
  rw [assertions, List.mem_append, List.mem_append] at member
  rcases member with (nameserver | signer) | glued
  · obtain ⟨_, _, rfl⟩ := List.mem_map.mp nameserver
    exact Or.inl rfl
  · obtain ⟨_, _, rfl⟩ := List.mem_map.mp signer
    exact Or.inl rfl
  · exact Or.inr (List.mem_flatMap.mp glued)

/-- Where a delegation asserts anything at a name, it removes every type there. -/
theorem removesTyped_of_assert (ttls : TimesToLive) (owner : String) (domain : Option Domain)
    (glue : List Host) (name : String) (assertedType type : RecordType) (ttl : UInt32)
    (content : String) (supported : type.isSupported = true)
    (member : .assert name assertedType ttl content ∈ delegation ttls owner domain glue) :
    removesTyped (delegation ttls owner domain glue) (Name.canonical name) type := by
  have noClear : ∀ other, Operation.assert name assertedType ttl content ∉ clear other := by
    simp [clear]
  cases domain with
  | none => exact absurd member (noClear _)
  | some domain =>
    rw [delegation, List.mem_append, List.mem_append] at member
    rcases member with (cleared | asserted) | orphaned
    · exact absurd cleared (noClear _)
    · split at asserted
      · rename_i allowed
        rcases mem_assertions _ _ _ _ _ asserted with own | ⟨host, loaded, glued⟩
        · refine ⟨Name.canonical owner, ?_, own.symm⟩
          exact List.mem_append_left _ (List.mem_append_left _ (remove_mem_clear _ type supported))
        · refine ⟨Name.canonical host.name, ?_, (subject_glueOperations _ _ _ _ glued).symm⟩
          refine List.mem_append_left _ (List.mem_append_right _ ?_)
          rw [if_pos allowed, assertions]
          refine List.mem_append_right _ (List.mem_flatMap.mpr ⟨host, loaded, ?_⟩)
          exact List.mem_append_left _ (remove_mem_clear _ type supported)
      · cases asserted
    · obtain ⟨_, _, impossible⟩ := List.mem_map.mp orphaned
      cases impossible

/-- A delegation removes every type at its own name. -/
theorem removesTyped_owner (ttls : TimesToLive) (owner : String) (domain : Option Domain)
    (glue : List Host) (type : RecordType) (supported : type.isSupported = true) :
    removesTyped (delegation ttls owner domain glue) (Name.canonical owner) type := by
  refine ⟨Name.canonical owner, ?_, Name.canonical_canonical owner⟩
  cases domain with
  | none => exact remove_mem_clear _ type supported
  | some domain =>
    exact List.mem_append_left _ (List.mem_append_left _ (remove_mem_clear _ type supported))

/-- At a subordinate host, a delegation removes every type, or all types as a whole. -/
theorem removes_subordinate (ttls : TimesToLive) (owner : String) (domain : Domain)
    (glue : List Host) (name : String) (type : RecordType) (supported : type.isSupported = true)
    (subordinate : name ∈ domain.subordinateHosts.map Name.canonical) :
    removesTyped (delegation ttls owner (some domain) glue) name type ∨
      Operation.removeAll name ∈ delegation ttls owner (some domain) glue := by
  by_cases glued : domain.publishable = true ∧ name ∈ glue.map fun host => Name.canonical host.name
  · obtain ⟨host, loaded, rfl⟩ := List.mem_map.mp glued.2
    refine Or.inl ⟨Name.canonical host.name, ?_, Name.canonical_canonical host.name⟩
    refine List.mem_append_left _ (List.mem_append_right _ ?_)
    rw [if_pos glued.1, assertions]
    refine List.mem_append_right _ (List.mem_flatMap.mpr ⟨host, loaded, ?_⟩)
    exact List.mem_append_left _ (remove_mem_clear _ type supported)
  · refine Or.inr (List.mem_append_right _ (List.mem_map_of_mem (List.mem_filter.mpr ?_)))
    refine ⟨subordinate, ?_⟩
    rw [Bool.not_eq_true', Bool.eq_false_iff]
    intro listed
    rw [List.contains_iff_mem] at listed
    split at listed
    · rename_i allowed
      exact glued ⟨allowed, listed⟩
    · cases listed

/-- A delegation speaks of its own name, of hosts loaded for it, and of subordinate hosts. -/
theorem subject_delegation (ttls : TimesToLive) (owner : String) (domain : Domain)
    (glue : List Host) (operation : Operation)
    (member : operation ∈ delegation ttls owner (some domain) glue) :
    operation.subject = Name.canonical owner ∨
      (∃ host ∈ glue, operation.subject = Name.canonical host.name) ∨
      operation.subject ∈ domain.subordinateHosts.map Name.canonical := by
  rw [delegation, List.mem_append, List.mem_append] at member
  rcases member with (cleared | asserted) | orphaned
  · exact Or.inl ((subject_clear _ operation cleared).trans (Name.canonical_canonical owner))
  · split at asserted
    · rcases mem_assertions _ _ _ _ _ asserted with own | ⟨host, loaded, glued⟩
      · exact Or.inl (own.trans (Name.canonical_canonical owner))
      · refine Or.inr (Or.inl ⟨host, loaded, ?_⟩)
        exact (subject_glueOperations _ _ _ _ glued).trans (Name.canonical_canonical host.name)
    · cases asserted
  · obtain ⟨name, kept, rfl⟩ := List.mem_map.mp orphaned
    have subordinate := (List.mem_filter.mp kept).1
    obtain ⟨host, _, rfl⟩ := List.mem_map.mp subordinate
    refine Or.inr (Or.inr ?_)
    rwa [Operation.subject, Name.canonical_canonical]

end Writer

namespace Registry.Content

variable (content : Content)

/-! ### The operations of a commit -/

/-- The operations of a commit that publishes the domains at some names and wipes some hosts. -/
def plan (ttls : TimesToLive) (names hosts : List String) : List Operation :=
  names.flatMap (content.operationsAt ttls) ++ hosts.map .removeAll

/-- The subordinate hosts of the domain at a name. -/
def subordinates (name : String) : List String :=
  match content.domain? (Name.bare name) with
  | some domain => domain.subordinateHosts.map Name.canonical
  | none => []

/-- The names that such a commit touches. -/
def touched (names hosts : List String) : List String :=
  names ++ hosts ++ names.flatMap content.subordinates

theorem mem_touched (names hosts : List String) (name : String) :
    name ∈ content.touched names hosts ↔
      name ∈ names ∨ name ∈ hosts ∨ ∃ owner ∈ names, name ∈ content.subordinates owner := by
  rw [touched, List.mem_append, List.mem_append, List.mem_flatMap, or_assoc]

/-- A host that is loaded for a domain is a subordinate host of it. -/
theorem subordinate_of_loaded (owner : String) (named : content.NamedAt owner) (host : Host)
    (loaded : host ∈ content.hostsAt (content.needed owner)) :
    Name.canonical host.name ∈ content.subordinates owner := by
  obtain ⟨domain, found, _, own⟩ :=
    (mem_needed content owner _).mp (host_of_needed content owner named host loaded).1
  rw [hasOwnNameserver, Bool.and_eq_true, List.contains_iff_mem, List.contains_iff_mem] at own
  rw [subordinates, found]
  exact own.2

theorem mem_plan (ttls : TimesToLive) (names hosts : List String) (operation : Operation) :
    operation ∈ content.plan ttls names hosts ↔
      (∃ owner ∈ names, operation ∈ content.operationsAt ttls owner) ∨
        ∃ host ∈ hosts, operation = .removeAll host := by
  rw [plan, List.mem_append, List.mem_flatMap, List.mem_map]
  simp only [eq_comm]

/-- No operation speaks of a name that is not touched. -/
theorem subject_mem_touched (ttls : TimesToLive) (names hosts : List String)
    (canonicalNames : ∀ owner ∈ names, Name.canonical owner = owner)
    (canonicalHosts : ∀ host ∈ hosts, Name.canonical host = host)
    (named : ∀ owner ∈ names, content.NamedAt owner) (operation : Operation)
    (member : operation ∈ content.plan ttls names hosts) :
    operation.subject ∈ content.touched names hosts := by
  rw [mem_touched]
  rcases (mem_plan content ttls names hosts operation).mp member with
    ⟨owner, published, staged⟩ | ⟨host, wiped, rfl⟩
  · have own : Name.canonical owner ∈ names := (canonicalNames owner published).symm ▸ published
    unfold operationsAt at staged
    cases found : content.domain? (Name.bare owner) with
    | none =>
      rw [found] at staged
      rw [subject_clear _ operation staged, Name.canonical_canonical]
      exact Or.inl own
    | some domain =>
      rw [found] at staged
      rcases subject_delegation _ _ _ _ _ staged with here | ⟨host, loaded, there⟩ | subordinate
      · exact Or.inl (here ▸ own)
      · refine Or.inr (Or.inr ⟨owner, published, ?_⟩)
        exact there ▸ subordinate_of_loaded content owner (named owner published) host loaded
      · refine Or.inr (Or.inr ⟨owner, published, ?_⟩)
        rwa [subordinates, found]
  · refine Or.inr (Or.inl ?_)
    rwa [Operation.subject, canonicalHosts host wiped]

theorem removes_of_removesTyped (operations : List Operation) (asserted : List String)
    (name : String) (type : RecordType) (typed : removesTyped operations name type) :
    operations.any (·.removes asserted name type) = true := by
  obtain ⟨other, member, here⟩ := typed
  rw [List.any_eq_true]
  exact ⟨_, member, by simp [Operation.removes, here]⟩

/-- Where anything is asserted, every type is removed by itself. -/
theorem removesTyped_of_asserted (ttls : TimesToLive) (names hosts : List String) (name : String)
    (type : RecordType) (supported : type.isSupported = true)
    (asserted : name ∈ assertedNames (content.plan ttls names hosts)) :
    removesTyped (content.plan ttls names hosts) name type := by
  obtain ⟨other, assertedType, ttl, value, member, rfl⟩ := (mem_assertedNames _ _).mp asserted
  rcases (mem_plan content ttls names hosts _).mp member with
    ⟨owner, published, staged⟩ | ⟨host, _, impossible⟩
  · obtain ⟨removed, removal, here⟩ :=
      removesTyped_of_assert ttls owner _ _ other assertedType type ttl value supported staged
    exact ⟨removed, (mem_plan _ _ _ _ _).mpr (Or.inl ⟨owner, published, removal⟩), here⟩
  · cases impossible

/-- Every supported type is removed at every touched name. -/
theorem removes_touched (ttls : TimesToLive) (names hosts : List String)
    (canonicalNames : ∀ owner ∈ names, Name.canonical owner = owner)
    (canonicalHosts : ∀ host ∈ hosts, Name.canonical host = host) (name : String)
    (type : RecordType) (supported : type.isSupported = true)
    (reached : name ∈ content.touched names hosts) :
    (content.plan ttls names hosts).any
      (·.removes (assertedNames (content.plan ttls names hosts)) name type) = true := by
  by_cases asserted : name ∈ assertedNames (content.plan ttls names hosts)
  · exact removes_of_removesTyped _ _ name type
      (removesTyped_of_asserted content ttls names hosts name type supported asserted)
  -- Nothing is asserted at the name, so a removal of all types there is heard.
  have heard : Operation.removeAll name ∈ content.plan ttls names hosts →
      Name.canonical name = name → (content.plan ttls names hosts).any
        (·.removes (assertedNames (content.plan ttls names hosts)) name type) = true := by
    intro member here
    rw [List.any_eq_true]
    exact ⟨_, member, by simp [Operation.removes, here, asserted]⟩
  have within : ∀ owner ∈ names, removesTyped (content.operationsAt ttls owner) name type →
      (content.plan ttls names hosts).any
        (·.removes (assertedNames (content.plan ttls names hosts)) name type) = true := by
    rintro owner published ⟨other, removal, here⟩
    exact removes_of_removesTyped _ _ name type
      ⟨other, (mem_plan _ _ _ _ _).mpr (Or.inl ⟨owner, published, removal⟩), here⟩
  rcases (mem_touched content names hosts name).mp reached with
    published | wiped | ⟨owner, published, subordinate⟩
  · have typed := removesTyped_owner ttls name (content.domain? (Name.bare name))
      (content.hostsAt (content.needed name)) type supported
    rw [canonicalNames name published] at typed
    exact within name published typed
  · exact heard ((mem_plan _ _ _ _ _).mpr (Or.inr ⟨name, wiped, rfl⟩)) (canonicalHosts name wiped)
  · rw [subordinates] at subordinate
    cases found : content.domain? (Name.bare owner) with
    | none =>
      rw [found] at subordinate
      cases subordinate
    | some domain =>
      rw [found] at subordinate
      rcases removes_subordinate ttls owner domain (content.hostsAt (content.needed owner)) name
        type supported subordinate with typed | whole
      · exact within owner published (by rwa [operationsAt, found])
      · obtain ⟨host, _, rfl⟩ := List.mem_map.mp subordinate
        refine heard ((mem_plan _ _ _ _ _).mpr (Or.inl ⟨owner, published, ?_⟩))
          (Name.canonical_canonical host)
        rwa [operationsAt, found]

/-! ### The changes of a commit -/

/-- What a commit asserts for a key is blocks, each of them empty or all that the key is to hold. -/
theorem distinct_assertions_plan (ttls : TimesToLive) (names hosts : List String)
    (canonicalNames : ∀ owner ∈ names, Name.canonical owner = owner)
    (named : ∀ owner ∈ names, content.NamedAt owner) (name : String) (type : RecordType) :
    ∃ asserted : List String,
      Zone.assertions name type (content.plan ttls names hosts) =
        asserted.map (fun value => (ttls.of type, value)) ∧
      distinct asserted = distinct (content.values names name type) := by
  refine ⟨(names.flatMap fun owner => content.blocks owner name type).flatten, ?_, ?_⟩
  · rw [plan, assertions_append, assertions_removeAll, List.append_nil, assertions_flatMap]
    clear canonicalNames named
    induction names with
    | nil => rfl
    | cons owner rest inductionHypothesis =>
      rw [List.flatMap_cons, List.flatMap_cons, List.flatten_append, List.map_append,
        assertions_operationsAt, inductionHypothesis]
  · refine distinct_flatten_of_repeated _ _ ?_ ?_
    · intro block member
      obtain ⟨owner, published, inBlocks⟩ := List.mem_flatMap.mp member
      exact block_eq content names canonicalNames named owner name published type block inBlocks
    · intro filled
      exact List.mem_flatMap.mpr (exists_block content names canonicalNames named name type filled)

/-- The change of a touched key is the one that is wanted. -/
theorem find?_changes_plan (ttls : TimesToLive) (names hosts : List String)
    (canonicalNames : ∀ owner ∈ names, Name.canonical owner = owner)
    (canonicalHosts : ∀ host ∈ hosts, Name.canonical host = host)
    (named : ∀ owner ∈ names, content.NamedAt owner) (name : String)
    (type : RecordType) (supported : type.isSupported = true)
    (reached : name ∈ content.touched names hosts) :
    (changes (content.plan ttls names hosts)).find? (·.concerns name type) =
      some (content.wanted ttls names name type) := by
  obtain ⟨asserted, stamped, same⟩ :=
    distinct_assertions_plan content ttls names hosts canonicalNames named name type
  rw [find?_changes _ name type supported, stamped,
    removes_touched content ttls names hosts canonicalNames canonicalHosts name type supported
      reached, wanted, ← same]
  cases asserted with
  | nil => rfl
  | cons first rest =>
    have filled : distinct (first :: rest) ≠ [] :=
      fun empty => List.cons_ne_nil _ _ ((distinct_eq_nil_iff _).mp empty)
    rw [if_neg filled, List.map_cons, settled, ← List.map_cons, List.map_map]
    dsimp only
    rw [show ((fun pair : UInt32 × String => pair.2) ∘ fun value => (ttls.of type, value)) = id
      from rfl, List.map_id]

end Registry.Content

end Zonecast
