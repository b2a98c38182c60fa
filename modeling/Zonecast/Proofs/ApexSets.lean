/-
The record sets at the apex of a zone, and what patches make of them. A set that is stored takes
the place of those of its type and name and leaves all others alone. So the SOA and the NS set that
upkeep sends are recognised by the very checks that sent them, and neither of the two patches
undoes what the other one did.

Of what is stored only the sets themselves matter here, not their order; within a set the records
keep theirs. Names that differ in spelling only are one name.
-/
import Zonecast.Proofs.AppliedSets
import Zonecast.Proofs.Names
import Zonecast.Upkeep.Apex

namespace Zonecast.Upkeep

open Backend Zone

/-! ### Storing -/

/-- A stored set gives way to a sent one of its type and name. -/
def Displaces (set stored : RecordSet) : Prop :=
  stored.type = set.type ∧ Name.canonical stored.name = Name.canonical set.name

/-- What is held once a set was stored. -/
def Stores (set : RecordSet) (before after : List RecordSet) : Prop :=
  ∀ stored, stored ∈ after ↔ stored ∈ left set ∨ stored ∈ before ∧ ¬Displaces set stored

/-- What is held once the sets of a patch were stored in order. -/
def StoresAll : List RecordSet → List RecordSet → List RecordSet → Prop
  | [], before, after => ∀ stored, stored ∈ after ↔ stored ∈ before
  | set :: sets, before, after => ∃ middle, Stores set before middle ∧ StoresAll sets middle after

/-- Where all names are canonical, the store in memory stores a set. -/
theorem stores_applyRecordSet {stored : List RecordSet} {set : RecordSet}
    (canonical : ∀ other ∈ stored, Name.canonical other.name = other.name)
    (named : Name.canonical set.name = set.name) :
    Stores set stored (applyRecordSet stored set) := by
  intro other
  rw [applyRecordSet_eq, List.mem_append, List.mem_filter, or_comm]
  refine or_congr_right (and_congr_right fun member => ?_)
  rw [Displaces, canonical other member, named, Bool.not_eq_true', ← Bool.not_eq_true,
    Bool.and_eq_true, beq_iff_eq, beq_iff_eq, and_comm]

/-- Where all names are canonical, the store in memory stores the sets of a patch. -/
theorem storesAll_applyRecordSets {stored sets : List RecordSet}
    (canonical : ∀ other ∈ stored, Name.canonical other.name = other.name)
    (named : ∀ set ∈ sets, Name.canonical set.name = set.name) :
    StoresAll sets stored (applyRecordSets stored sets) := by
  induction sets generalizing stored with
  | nil => exact fun _ => Iff.rfl
  | cons set rest inductionHypothesis =>
    obtain ⟨first, later⟩ := List.forall_mem_cons.mp named
    refine ⟨_, stores_applyRecordSet canonical first, inductionHypothesis ?_ later⟩
    intro other member
    rw [applyRecordSet_eq, List.mem_append] at member
    rcases member with kept | sent
    · exact canonical other (List.mem_filter.mp kept).1
    · rw [(mem_left set other sent).1, first]

/-! ### The apex -/

/-- The set is one of this type at the apex of a zone of this name. -/
def AtApex (name type : String) (set : RecordSet) : Prop :=
  set.type = type ∧ Name.bare set.name = Name.bare name

/-- At most one set of this type is at the apex. -/
def Single (name type : String) (sets : List RecordSet) : Prop :=
  ∀ first ∈ sets, ∀ second ∈ sets, AtApex name type first → AtApex name type second →
    first = second

instance (name type : String) (set : RecordSet) : Decidable (AtApex name type set) :=
  inferInstanceAs (Decidable (_ ∧ _))

instance (name type : String) (sets : List RecordSet) : Decidable (Single name type sets) :=
  inferInstanceAs (Decidable (∀ first ∈ sets, ∀ second ∈ sets, _ → _ → first = second))

/-- Some sets are those of others as far as this type at the apex goes. -/
def Agrees (name type : String) (sets others : List RecordSet) : Prop :=
  ∀ set, AtApex name type set → (set ∈ sets ↔ set ∈ others)

section Apex

variable {name type : String} {set stored : RecordSet} {before after : List RecordSet}
  {zone later : Detail}

/-- A single set at the apex is the one that is found there. -/
theorem apex?_eq_some_iff (single : Single zone.name type zone.recordSets) :
    zone.apex? type = some set ↔ set ∈ zone.recordSets ∧ AtApex zone.name type set := by
  let test : RecordSet → Bool := fun other =>
    other.type == type && Name.bare other.name == Name.bare zone.name
  have passes : ∀ other, test other = true ↔ AtApex zone.name type other := by
    intro other
    rw [Bool.and_eq_true, beq_iff_eq, beq_iff_eq, AtApex]
  have search : zone.apex? type = zone.recordSets.find? test := rfl
  rw [search]
  constructor
  · intro found
    exact ⟨List.mem_of_find?_eq_some found, (passes set).mp (List.find?_some found)⟩
  · rintro ⟨member, here⟩
    have present := List.find?_isSome.mpr ⟨set, member, (passes set).mpr here⟩
    obtain ⟨other, found⟩ := Option.isSome_iff_exists.mp present
    have same : other = set := single other (List.mem_of_find?_eq_some found) set member
      ((passes other).mp (List.find?_some found)) here
    rw [found, same]

theorem Single.congr (single : Single name type before) (agrees : Agrees name type after before) :
    Single name type after :=
  fun first member second held here there => single first ((agrees first here).mp member) second
    ((agrees second there).mp held) here there

/-- Zones that agree on a single set find the same one. -/
theorem apex?_congr (named : later.name = zone.name)
    (single : Single zone.name type zone.recordSets)
    (agrees : Agrees zone.name type later.recordSets zone.recordSets) :
    later.apex? type = zone.apex? type := by
  have still : Single later.name type later.recordSets := named ▸ single.congr agrees
  ext set
  rw [apex?_eq_some_iff still, apex?_eq_some_iff single, named]
  exact and_congr_left fun here => agrees set here

/-- A set at the apex gives way to any of its type that is sent to the apex. -/
theorem displaces_iff (here : AtApex name type set) :
    Displaces set stored ↔ AtApex name type stored := by
  rw [Displaces, AtApex, here.1]
  refine and_congr_right fun _ => ⟨fun same => ?_, fun same => ?_⟩
  · rw [← Name.bare_canonical stored.name, same, Name.bare_canonical, here.2]
  · exact Name.canonical_eq_of_bare_eq _ _ (same.trans here.2.symm)

/-- Once a set is stored at the apex, nothing else of its type is there. -/
theorem Stores.mem_iff (stores : Stores set before after) (here : AtApex name type set)
    (there : AtApex name type stored) : stored ∈ after ↔ stored ∈ left set := by
  rw [stores stored, or_iff_left]
  exact fun kept => kept.2 ((displaces_iff here).mpr there)

/-- A set leaves those of other types alone. -/
theorem Stores.agrees (stores : Stores set before after) (other : set.type ≠ type) :
    Agrees name type after before := by
  intro stored here
  have apart : stored.type ≠ set.type := fun same => other (same.symm.trans here.1)
  rw [stores stored, or_iff_right fun sent => apart (mem_left set stored sent).2, and_iff_left]
  exact fun displaced => apart displaced.1

/-- Once a set is stored at the apex, it is the one that is found there. -/
theorem Stores.found {ttl : UInt32} {contents : List String}
    (stores : Stores (.replacing (Name.canonical zone.name) type ttl contents) before
      zone.recordSets) :
    Single zone.name type zone.recordSets ∧
      zone.apex? type =
        some ⟨Name.canonical zone.name, type, ttl, none, contents.map (⟨·, false⟩), []⟩ := by
  have here : AtApex zone.name type (.replacing (Name.canonical zone.name) type ttl contents) :=
    ⟨rfl, Name.bare_canonical zone.name⟩
  have kept : ∀ stored, AtApex zone.name type stored → (stored ∈ zone.recordSets ↔
      stored = ⟨Name.canonical zone.name, type, ttl, none, contents.map (⟨·, false⟩), []⟩) :=
    fun stored there => (stores.mem_iff here there).trans List.mem_singleton
  have single : Single zone.name type zone.recordSets :=
    fun first member second held there too =>
      ((kept first there).mp member).trans ((kept second too).mp held).symm
  refine ⟨single, (apex?_eq_some_iff single).mpr ⟨(kept _ ?_).mpr rfl, ?_⟩⟩ <;> exact here

end Apex

/-! ### The two checks -/

/-- The SOA of a zone is as expected, and its NS set is still the one that was read. -/
structure Underway (defaults : Defaults) (reading zone : Detail) : Prop where
  named : zone.name = reading.name
  oneAuthority : Single zone.name "SOA" zone.recordSets
  oneNameservers : Single zone.name "NS" zone.recordSets
  authority : authorityIsValid defaults zone = true
  nameservers : zone.apex? "NS" = reading.apex? "NS"

/-- The apex of a zone is as expected. -/
structure Furnished (defaults : Defaults) (zone : Detail) : Prop where
  oneAuthority : Single zone.name "SOA" zone.recordSets
  oneNameservers : Single zone.name "NS" zone.recordSets
  authority : authorityIsValid defaults zone = true
  nameservers : nameserversAreValid defaults zone = true

section Checks

variable {defaults : Defaults} {reading zone later : Detail} {before : List RecordSet}

theorem authorityIsValid_congr (same : later.apex? "SOA" = zone.apex? "SOA") :
    authorityIsValid defaults later = authorityIsValid defaults zone := by
  rw [authorityIsValid, authorityIsValid, same]

theorem nameserversAreValid_congr (same : later.apex? "NS" = zone.apex? "NS") :
    nameserversAreValid defaults later = nameserversAreValid defaults zone := by
  rw [nameserversAreValid, nameserversAreValid, same]

/-- A valid SOA is left alone. -/
theorem checkAuthority_of_valid (valid : authorityIsValid defaults zone = true) :
    checkAuthority defaults zone = pure () := by
  rw [checkAuthority, valid]
  rfl

theorem checkAuthority_of_invalid (invalid : authorityIsValid defaults zone = false) :
    checkAuthority defaults zone =
      ask (.patchZone zone.id [defaults.authority zone.name (zone.serial.getD 1)]) := by
  rw [checkAuthority, invalid]
  rfl

/-- A valid NS set is left alone. -/
theorem checkNameservers_of_valid (valid : nameserversAreValid defaults zone = true) :
    checkNameservers defaults zone = pure () := by
  rw [checkNameservers, valid]
  rfl

theorem checkNameservers_of_invalid (invalid : nameserversAreValid defaults zone = false) :
    checkNameservers defaults zone = ask (.patchZone zone.id [defaults.nameservers zone.name]) := by
  rw [checkNameservers, invalid]
  rfl

/-- The SOA that upkeep sends is valid, whatever its serial. -/
theorem authorityIsValid_of_stores {serial : UInt32}
    (stores : Stores (defaults.authority zone.name serial) before zone.recordSets) :
    authorityIsValid defaults zone = true := by
  rw [authorityIsValid, stores.found.2]
  show List.isPrefixOf _ _ = true
  rw [List.isPrefixOf_iff_prefix]
  refine ⟨(toString serial.toNat).toList ++ " 900 1800 6048000 ".toList ++
    (toString defaults.ttl.toNat).toList, ?_⟩
  simp only [String.toList_append, List.append_assoc]

/-- The NS set that upkeep sends is valid. -/
theorem nameserversAreValid_of_stores
    (stores : Stores (defaults.nameservers zone.name) before zone.recordSets) :
    nameserversAreValid defaults zone = true := by
  rw [nameserversAreValid, stores.found.2]
  simp

/-- A zone whose SOA was replaced is halfway. -/
theorem underway_of_stores {serial : UInt32} (named : later.name = zone.name)
    (one : Single zone.name "NS" zone.recordSets)
    (stores : Stores (defaults.authority zone.name serial) zone.recordSets later.recordSets) :
    Underway defaults zone later := by
  have agrees : Agrees zone.name "NS" later.recordSets zone.recordSets :=
    stores.agrees (show "SOA" ≠ "NS" by decide)
  have replaced : Stores (defaults.authority later.name serial) zone.recordSets
      later.recordSets := named ▸ stores
  exact ⟨named, replaced.found.1, named ▸ one.congr agrees, authorityIsValid_of_stores replaced,
    apex?_congr named one agrees⟩

theorem Underway.furnished (underway : Underway defaults reading zone)
    (valid : nameserversAreValid defaults reading = true) : Furnished defaults zone :=
  ⟨underway.oneAuthority, underway.oneNameservers, underway.authority,
    (nameserversAreValid_congr underway.nameservers).trans valid⟩

/-- A zone that was halfway is furnished once its NS set was replaced. -/
theorem Underway.furnished_of_stores (underway : Underway defaults reading zone)
    (named : later.name = zone.name)
    (stores : Stores (defaults.nameservers zone.name) zone.recordSets later.recordSets) :
    Furnished defaults later := by
  have agrees : Agrees zone.name "SOA" later.recordSets zone.recordSets :=
    stores.agrees (show "NS" ≠ "SOA" by decide)
  have replaced : Stores (defaults.nameservers later.name) zone.recordSets later.recordSets :=
    named ▸ stores
  have found := apex?_congr named underway.oneAuthority agrees
  exact ⟨named ▸ underway.oneAuthority.congr agrees, replaced.found.1,
    (authorityIsValid_congr found).trans underway.authority,
    nameserversAreValid_of_stores replaced⟩

/-- Zones that hold the same sets are furnished alike. -/
theorem Furnished.congr (furnished : Furnished defaults zone) (named : later.name = zone.name)
    (same : ∀ set, set ∈ later.recordSets ↔ set ∈ zone.recordSets) :
    Furnished defaults later := by
  have agrees : ∀ type, Agrees zone.name type later.recordSets zone.recordSets :=
    fun _ set _ => same set
  exact ⟨named ▸ furnished.oneAuthority.congr (agrees _),
    named ▸ furnished.oneNameservers.congr (agrees _),
    (authorityIsValid_congr (apex?_congr named furnished.oneAuthority (agrees _))).trans
      furnished.authority,
    (nameserversAreValid_congr (apex?_congr named furnished.oneNameservers (agrees _))).trans
      furnished.nameservers⟩

/-- A zone that was created with both sets is furnished. -/
theorem furnished_of_storesAll {serial : UInt32}
    (stores : StoresAll [defaults.authority zone.name serial, defaults.nameservers zone.name] []
      zone.recordSets) : Furnished defaults zone := by
  obtain ⟨middle, first, last, second, same⟩ := stores
  have underway : Underway defaults { zone with recordSets := [] }
      { zone with recordSets := middle } :=
    underway_of_stores rfl (fun _ member => absurd member List.not_mem_nil) first
  have furnished : Furnished defaults { zone with recordSets := last } :=
    underway.furnished_of_stores rfl second
  exact furnished.congr rfl same

end Checks

end Zonecast.Upkeep
