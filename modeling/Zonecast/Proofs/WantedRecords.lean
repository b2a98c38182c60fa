/-
What the registry wants the zone to hold, name by name, and what the operations of a commit assert
and remove. A name can stand in several relations to the names being published at once: it can be
one of them, the host of another, and a host of a third that is no nameserver any more. Still all
operations agree about it. Whatever asserts values of a type at a name asserts the same values, so
repeating them adds nothing; and a name at which anything is asserted is cleared type by type,
because the removal of all types at once says nothing there.
-/
import Zonecast.Proofs.Changes
import Zonecast.Proofs.Names
import Zonecast.Proofs.RegistryContent

namespace Zonecast

open Zone Text

namespace Writer

/-! ### Wanted values -/

/-- The time to live of the published records of a type. -/
def TimesToLive.of (ttls : TimesToLive) : RecordType → UInt32
  | .a | .aaaa => ttls.address
  | .ns => ttls.nameserver
  | .ds => ttls.signer
  | .other _ => 0

/-- The values of a type that a domain delegates with. -/
def domainValues (type : RecordType) (domain : Domain) : List String :=
  match type with
  | .ns => domain.nameservers.map Name.canonical
  | .ds => domain.signers.map DelegationSigner.rdata
  | _ => []

/-- The values of a type that a host is reached at. -/
def hostValues (type : RecordType) (host : Host) : List String :=
  (host.addresses.filter fun address => addressType address = type).map Address.text

/-- Whether a domain uses a name as nameserver and owns it as subordinate host. -/
def hasOwnNameserver (domain : Domain) (name : String) : Bool :=
  (domain.nameservers.map Name.canonical).contains name &&
    (domain.subordinateHosts.map Name.canonical).contains name

end Writer

namespace Registry.Content

open Writer

/-- The domain at a name that is published and publishable. -/
def delegated? (content : Content) (names : List String) (name : String) : Option Domain :=
  if name ∈ names then (content.domain? (Name.bare name)).filter (·.publishable) else none

/-- The host at a name that some delegated domain uses as its own nameserver. -/
def glued? (content : Content) (names : List String) (name : String) : Option Host :=
  if names.any fun owner => (content.delegated? names owner).any (hasOwnNameserver · name) then
    content.host? (Name.bare name)
  else none

/-- The values of a type that the zone is to hold at a name when these names are published: the
domain's for NS and DS, the host's for A and AAAA. -/
def values (content : Content) (names : List String) (name : String) (type : RecordType) :
    List String :=
  ((content.delegated? names name).map (domainValues type)).getD [] ++
    ((content.glued? names name).map (hostValues type)).getD []

/-- The change that brings a type at a name to what the zone is to hold. -/
def wanted (content : Content) (ttls : TimesToLive) (names : List String) (name : String)
    (type : RecordType) : Change :=
  let values := distinct (content.values names name type)
  if values = [] then deletion name type else ⟨name, type, ttls.of type, .replace values⟩

end Registry.Content

namespace Writer

/-! ### What operations assert -/

theorem assertions_append (name : String) (type : RecordType) (first second : List Operation) :
    Zone.assertions name type (first ++ second) =
      Zone.assertions name type first ++ Zone.assertions name type second :=
  List.filterMap_append

theorem assertions_flatMap {ι : Type} (name : String) (type : RecordType) (items : List ι)
    (operations : ι → List Operation) :
    Zone.assertions name type (items.flatMap operations) =
      items.flatMap fun item => Zone.assertions name type (operations item) :=
  List.filterMap_flatMap

theorem assertions_clear (name other : String) (type : RecordType) :
    Zone.assertions name type (clear other) = [] := by
  rw [Zone.assertions, List.filterMap_eq_nil_iff]
  intro operation member
  rcases List.mem_cons.mp member with rfl | removal
  · rfl
  · obtain ⟨removed, _, rfl⟩ := List.mem_map.mp removal
    rfl

theorem assertions_removeAll (name : String) (type : RecordType) (names : List String) :
    Zone.assertions name type (names.map .removeAll) = [] := by
  rw [Zone.assertions, List.filterMap_eq_nil_iff]
  intro operation member
  obtain ⟨removed, _, rfl⟩ := List.mem_map.mp member
  rfl

/-- Values that are asserted together at one name and type. -/
theorem assertions_assert {ι : Type} (name other : String) (type otherType : RecordType)
    (ttl : UInt32) (items : List ι) (content : ι → String) :
    Zone.assertions name type (items.map fun item => .assert other otherType ttl (content item)) =
      if Name.canonical other = name ∧ otherType = type then
        items.map fun item => (ttl, content item)
      else [] := by
  induction items with
  | nil => split <;> rfl
  | cons first rest inductionHypothesis =>
    unfold Zone.assertions at inductionHypothesis ⊢
    rw [List.map_cons, List.filterMap_cons, inductionHypothesis]
    by_cases same : Name.canonical other = name ∧ otherType = type
    · simp only [Operation.assertion?, if_pos same, List.map_cons]
    · simp only [Operation.assertion?, if_neg same]

theorem addressType_ttl (ttls : TimesToLive) (address : Address) :
    ttls.of (addressType address) = ttls.address := by
  cases address <;> rfl

/-- The glue of a host asserts the host's values at its name. -/
theorem assertions_glueOperations (ttls : TimesToLive) (name other : String) (type : RecordType)
    (host : Host) :
    Zone.assertions name type (glueOperations ttls other host.addresses) =
      (if Name.canonical other = name then hostValues type host else []).map
        fun value => (ttls.of type, value) := by
  rw [glueOperations, assertions_append, assertions_clear, List.nil_append, hostValues]
  induction host.addresses with
  | nil => split <;> rfl
  | cons first rest inductionHypothesis =>
    unfold Zone.assertions at inductionHypothesis ⊢
    rw [List.map_cons, List.filterMap_cons, inductionHypothesis]
    by_cases here : Name.canonical other = name
    · by_cases same : addressType first = type
      · subst same
        simp [Operation.assertion?, here, addressType_ttl]
      · simp [Operation.assertion?, here, same]
    · simp [Operation.assertion?, here]

/-- Nameservers and delegation signers of a domain assert the domain's values at its name. -/
theorem assertions_domain (ttls : TimesToLive) (name other : String) (type : RecordType)
    (domain : Domain) :
    Zone.assertions name type (domain.nameservers.map fun nameserver =>
        .assert (Name.canonical other) .ns ttls.nameserver (Name.canonical nameserver)) ++
      Zone.assertions name type (domain.signers.map fun signer =>
        .assert (Name.canonical other) .ds ttls.signer signer.rdata) =
      (if Name.canonical other = name then domainValues type domain else []).map
        fun value => (ttls.of type, value) := by
  rw [assertions_assert, assertions_assert, Name.canonical_canonical]
  by_cases here : Name.canonical other = name
  · rw [if_pos here]
    cases type <;> simp [here, domainValues, TimesToLive.of]
  · rw [if_neg here, if_neg fun both => here both.1, if_neg fun both => here both.1]
    rfl

/-- A publishable domain asserts its own values at its name, and those of its glue at theirs. -/
theorem assertions_assertions (ttls : TimesToLive) (owner name : String) (type : RecordType)
    (domain : Domain) (glue : List Host) :
    Zone.assertions name type (assertions ttls (Name.canonical owner) domain glue) =
      ((if Name.canonical owner = name then domainValues type domain else []) ::
        glue.map fun host =>
          if Name.canonical host.name = name then hostValues type host else []).flatten.map
        fun value => (ttls.of type, value) := by
  have hosts : Zone.assertions name type (glue.flatMap fun host =>
      glueOperations ttls (Name.canonical host.name) host.addresses) =
      (glue.map fun host =>
        if Name.canonical host.name = name then hostValues type host else []).flatten.map
          fun value => (ttls.of type, value) := by
    rw [assertions_flatMap, List.map_flatten, List.map_map, List.flatMap_def]
    refine congrArg List.flatten (List.map_congr_left fun host _ => ?_)
    rw [assertions_glueOperations, Name.canonical_canonical, Function.comp_apply]
  rw [assertions, assertions_append, assertions_append, assertions_domain, hosts,
    List.flatten_cons, List.map_append]

/-- A domain that is not publishable asserts nothing. -/
theorem assertions_delegation (ttls : TimesToLive) (owner name : String) (type : RecordType)
    (domain : Domain) (glue : List Host) :
    Zone.assertions name type (delegation ttls owner (some domain) glue) =
      if domain.publishable then
        Zone.assertions name type (assertions ttls (Name.canonical owner) domain glue)
      else [] := by
  rw [delegation, assertions_append, assertions_append, assertions_clear, assertions_removeAll,
    List.nil_append, List.append_nil]
  split <;> rfl

end Writer

namespace Registry.Content

open Writer

variable (content : Content)

/-! ### Hosts that are loaded -/

theorem mem_ownNameservers (domain : Domain) (name : String) :
    name ∈ ownNameservers domain ↔ hasOwnNameserver domain name = true := by
  rw [ownNameservers, List.mem_filter, hasOwnNameserver, Bool.and_eq_true, List.contains_iff_mem,
    List.contains_iff_mem]

theorem mem_needed (owner name : String) :
    name ∈ content.needed owner ↔ ∃ domain, content.domain? (Name.bare owner) = some domain ∧
      domain.publishable = true ∧ hasOwnNameserver domain name = true := by
  unfold needed
  cases content.domain? (Name.bare owner) with
  | none => simp
  | some domain =>
    by_cases open' : domain.publishable = true
    · simp [open', mem_ownNameservers]
    · simp [open']

/-- A name that is needed is in canonical form. -/
theorem canonical_of_needed (owner name : String) (needed : name ∈ content.needed owner) :
    Name.canonical name = name := by
  obtain ⟨domain, _, _, own⟩ := (mem_needed content owner name).mp needed
  rw [hasOwnNameserver, Bool.and_eq_true, List.contains_iff_mem, List.contains_iff_mem] at own
  obtain ⟨nameserver, _, rfl⟩ := List.mem_map.mp own.1
  exact Name.canonical_canonical nameserver

/-- Glue is found under its own name where every host is found under the bare form of its name. -/
theorem named_of_found
    (own : ∀ key host, content.host? key = some host → Name.bare host.name = key) :
    content.Named := by
  intro owner name needed host found
  exact (Name.canonical_eq_of_bare_eq host.name name (own _ host found)).trans
    (canonical_of_needed content owner name needed)

/-- A host that is loaded is the one at the needed name that it was loaded for. -/
theorem host_of_needed (owner : String) (named : content.NamedAt owner) (host : Host)
    (loaded : host ∈ content.hostsAt (content.needed owner)) :
    Name.canonical host.name ∈ content.needed owner ∧
      content.host? (Name.bare (Name.canonical host.name)) = some host := by
  obtain ⟨name, needed, found⟩ := List.mem_filterMap.mp loaded
  rw [named name needed host found]
  exact ⟨needed, found⟩

theorem delegated?_of_mem (names : List String) (name : String) (published : name ∈ names) :
    content.delegated? names name = (content.domain? (Name.bare name)).filter (·.publishable) :=
  if_pos published

theorem any_delegated?_iff (names : List String) (owner name : String)
    (published : owner ∈ names) :
    (content.delegated? names owner).any (hasOwnNameserver · name) = true ↔
      name ∈ content.needed owner := by
  rw [mem_needed, delegated?_of_mem content names owner published]
  cases content.domain? (Name.bare owner) with
  | none => simp
  | some domain => by_cases open' : domain.publishable = true <;> simp [Option.filter, open']

/-- A host is glued where some published name needs it and it is registered. -/
theorem glued?_eq_some_iff (names : List String) (name : String) (host : Host) :
    content.glued? names name = some host ↔
      (∃ owner ∈ names, name ∈ content.needed owner) ∧
        content.host? (Name.bare name) = some host := by
  have needs : (names.any fun owner =>
      (content.delegated? names owner).any (hasOwnNameserver · name)) = true ↔
      ∃ owner ∈ names, name ∈ content.needed owner := by
    rw [List.any_eq_true]
    exact exists_congr fun owner => and_congr_right fun published =>
      any_delegated?_iff content names owner name published
  unfold glued?
  split
  · rename_i some'
    exact ⟨fun found => ⟨needs.mp some', found⟩, fun both => both.2⟩
  · rename_i none'
    exact ⟨fun found => (by cases found), fun both => absurd (needs.mpr both.1) none'⟩

/-! ### Blocks of values -/

/-- The values that publishing `owner` asserts for a key, in blocks: those of its domain, if it is
the key's name, and those of each host that is loaded for it. -/
def blocks (owner name : String) (type : RecordType) : List (List String) :=
  (if Name.canonical owner = name then
      (((content.domain? (Name.bare owner)).filter (·.publishable)).map (domainValues type)).getD []
    else []) ::
    (content.hostsAt (content.needed owner)).map fun host =>
      if Name.canonical host.name = name then hostValues type host else []

/-- What publishing a name asserts for a key is its blocks, one after the other. -/
theorem assertions_operationsAt (ttls : TimesToLive) (owner name : String) (type : RecordType) :
    Zone.assertions name type (content.operationsAt ttls owner) =
      (content.blocks owner name type).flatten.map fun value => (ttls.of type, value) := by
  unfold operationsAt blocks needed
  cases content.domain? (Name.bare owner) with
  | none =>
    rw [Option.filter_none, Option.map_none, Option.getD_none, ite_self]
    exact assertions_clear name _ type
  | some domain =>
    rw [assertions_delegation]
    by_cases allowed : domain.publishable = true
    · rw [if_pos allowed, Option.filter_some, if_pos allowed, Option.map_some, Option.getD_some]
      dsimp only
      rw [if_pos allowed]
      exact assertions_assertions ttls owner name type domain _
    · rw [if_neg allowed, Option.filter_some, if_neg allowed, Option.map_none, Option.getD_none,
        ite_self]
      dsimp only
      rw [if_neg allowed]
      rfl

/-- No type has values from a domain and from a host. -/
theorem domainValues_or_hostValues (type : RecordType) (domain : Domain) (host : Host) :
    domainValues type domain = [] ∨ hostValues type host = [] := by
  have away : ∀ type : RecordType, type ≠ .a → type ≠ .aaaa → hostValues type host = [] := by
    intro type notA notAaaa
    rw [hostValues, List.map_eq_nil_iff, List.filter_eq_nil_iff]
    intro address _
    cases address <;> simp [addressType, Ne.symm notA, Ne.symm notAaaa]
  cases type with
  | a | aaaa => exact Or.inl rfl
  | ds | ns | other => exact Or.inr (away _ (by simp) (by simp))

/-- The values of a key are those of its domain alone, or those of its host alone. -/
theorem values_eq_or (names : List String) (name : String) (type : RecordType) :
    (content.values names name type =
        ((content.delegated? names name).map (domainValues type)).getD [] ∧
      ((content.glued? names name).map (hostValues type)).getD [] = []) ∨
    (content.values names name type =
        ((content.glued? names name).map (hostValues type)).getD [] ∧
      ((content.delegated? names name).map (domainValues type)).getD [] = []) := by
  unfold values
  cases content.delegated? names name with
  | none => exact Or.inr ⟨rfl, rfl⟩
  | some domain =>
    cases content.glued? names name with
    | none => exact Or.inl ⟨List.append_nil _, rfl⟩
    | some host =>
      rcases domainValues_or_hostValues type domain host with none' | none'
      · exact Or.inr ⟨by simp [none'], none'⟩
      · exact Or.inl ⟨by simp [none'], none'⟩

/-- Every block of a key is empty, or it is all that the key is to hold. -/
theorem block_eq (names : List String)
    (canonicalNames : ∀ owner ∈ names, Name.canonical owner = owner)
    (named : ∀ owner ∈ names, content.NamedAt owner) (owner name : String)
    (published : owner ∈ names) (type : RecordType) (block : List String)
    (member : block ∈ content.blocks owner name type) :
    block = [] ∨ block = content.values names name type := by
  rcases List.mem_cons.mp member with own | inHosts
  · rw [own]
    split
    · rename_i here
      have same : owner = name := (canonicalNames owner published).symm.trans here
      subst same
      rw [← delegated?_of_mem content names owner published]
      rcases values_eq_or content names owner type with ⟨whole, _⟩ | ⟨_, empty⟩
      · exact Or.inr whole.symm
      · exact Or.inl empty
    · exact Or.inl rfl
  · obtain ⟨host, loaded, rfl⟩ := List.mem_map.mp inHosts
    split
    · rename_i here
      have known := host_of_needed content owner (named owner published) host loaded
      rw [here] at known
      have glued := (glued?_eq_some_iff content names name host).mpr
        ⟨⟨owner, published, known.1⟩, known.2⟩
      rcases values_eq_or content names name type with ⟨_, empty⟩ | ⟨whole, _⟩
      · rw [glued] at empty
        exact Or.inl empty
      · rw [glued] at whole
        exact Or.inr whole.symm
    · exact Or.inl rfl

/-- What a key is to hold, if that is anything, is a block of some published name. -/
theorem exists_block (names : List String)
    (canonicalNames : ∀ owner ∈ names, Name.canonical owner = owner)
    (named : ∀ owner ∈ names, content.NamedAt owner) (name : String) (type : RecordType)
    (filled : content.values names name type ≠ []) :
    ∃ owner ∈ names, content.values names name type ∈ content.blocks owner name type := by
  rcases values_eq_or content names name type with ⟨whole, _⟩ | ⟨whole, _⟩
  · have published : name ∈ names := by
      by_contra absent
      rw [whole, delegated?, if_neg absent] at filled
      exact filled rfl
    refine ⟨name, published, List.mem_cons.mpr (Or.inl ?_)⟩
    rw [if_pos (canonicalNames name published), whole,
      delegated?_of_mem content names name published]
  · cases glued : content.glued? names name with
    | none =>
      rw [whole, glued] at filled
      exact absurd rfl filled
    | some host =>
      obtain ⟨⟨owner, published, needed⟩, found⟩ :=
        (glued?_eq_some_iff content names name host).mp glued
      have loaded : host ∈ content.hostsAt (content.needed owner) :=
        List.mem_filterMap.mpr ⟨name, needed, found⟩
      have here : Name.canonical host.name = name := named owner published name needed host found
      refine ⟨owner, published, List.mem_cons.mpr (Or.inr (List.mem_map.mpr ⟨host, loaded, ?_⟩))⟩
      rw [if_pos here, whole, glued]
      rfl

end Registry.Content

end Zonecast
