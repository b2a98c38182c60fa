/-
What operations of unsupported types do to the changes of a list. A removal of such a type does
nothing. An assertion of one creates no change either, yet it is an assertion: it silences the
removals of all types at its name. Taken out together with those it leaves the changes as they are,
and it can be taken out alone wherever a supported type is asserted beside it, or nothing is there
to be silenced.

So where all types are removed and no record is put in, all of them are deleted, unless a record of
an unsupported type was asserted at the name: then only those types are that are removed by
themselves.
-/
import Zonecast.Proofs.RequestedChanges

namespace Zonecast.Zone

/-! ### Operations taken out of a list -/

/-- Operations that change nothing can be taken out of a list, unless a removal of all types that
stays in it comes to be heard. -/
theorem changes_filter {operations : List Operation} {keeps : Operation → Bool}
    (idle : ∀ operation ∈ operations, keeps operation = false → ∀ reached,
      stage (assertedNames operations) reached operation = reached)
    (silent : ∀ name, .removeAll name ∈ operations.filter keeps →
      Name.canonical name ∈ assertedNames operations →
      Name.canonical name ∈ assertedNames (operations.filter keeps)) :
    changes (operations.filter keeps) = changes operations := by
  have fewer : assertedNames (operations.filter keeps) ⊆ assertedNames operations :=
    (List.filter_sublist.filterMap _).subset
  have staged : ∀ reached, ∀ operation ∈ operations.filter keeps,
      stage (assertedNames (operations.filter keeps)) reached operation =
        stage (assertedNames operations) reached operation := by
    intro reached operation member
    cases operation with
    | assert | remove => rfl
    | removeAll name =>
      have same := Iff.intro (@fewer (Name.canonical name)) (silent name member)
      simp only [stage, same]
  calc (operations.filter keeps).foldl (stage (assertedNames (operations.filter keeps))) []
      = (operations.filter keeps).foldl (stage (assertedNames operations)) [] :=
        List.foldl_ext _ _ _ staged
    _ = operations.foldl (stage (assertedNames operations)) [] := by
        rw [List.foldl_filter]
        refine List.foldl_ext _ _ _ fun reached operation member => ?_
        cases kept : keeps operation with
        | true => rfl
        | false => exact (idle operation member kept reached).symm

/-! ### Unsupported types -/

/-- Whether an operation is not about one type that is unsupported. -/
def Operation.isSupported : Operation → Bool
  | .assert _ type _ _ | .remove _ type => type.isSupported
  | .removeAll _ => true

/-- Whether an operation removes a type that is unsupported. -/
def Operation.removesUnsupported : Operation → Bool
  | .remove _ type => !type.isSupported
  | _ => false

/-- Whether a record of an unsupported type is asserted at a name. -/
def assertsUnsupported (operations : List Operation) (name : String) : Bool :=
  operations.any fun
    | .assert other type _ _ => !type.isSupported && Name.canonical other == name
    | _ => false

/-- The operations without those of unsupported types and without the removals of all types at the
names where such a type is asserted. -/
def supportedPart (operations : List Operation) : List Operation :=
  operations.filter fun
    | .removeAll name => !assertsUnsupported operations (Name.canonical name)
    | operation => operation.isSupported

section Taken

variable {operations : List Operation} {name : String}

theorem assertsUnsupported_iff : assertsUnsupported operations name = true ↔
    ∃ type : RecordType, type.isSupported = false ∧ asserts operations name type := by
  rw [assertsUnsupported, List.any_eq_true]
  constructor
  · rintro ⟨operation, member, here⟩
    cases operation with
    | assert other type ttl content =>
      simp only [Bool.and_eq_true, Bool.not_eq_true', beq_iff_eq] at here
      exact ⟨type, here.1, other, ttl, content, member, here.2⟩
    | remove | removeAll => cases here
  · rintro ⟨type, unsupported, other, ttl, content, member, here⟩
    refine ⟨_, member, ?_⟩
    simp only [Bool.and_eq_true, Bool.not_eq_true', beq_iff_eq]
    exact ⟨unsupported, here⟩

/-- Nothing comes of an operation of an unsupported type. -/
theorem stage_of_not_isSupported {operation : Operation}
    (unsupported : operation.isSupported = false) (asserted : List String)
    (reached : List Change) : stage asserted reached operation = reached := by
  cases operation with
  | assert name type | remove name type =>
    rw [Operation.isSupported] at unsupported
    rw [stage, unsupported, if_neg Bool.false_ne_true]
  | removeAll => cases unsupported

/-- Assertions that stay still silence the removals at their name. -/
theorem mem_assertedNames_filter {keeps : Operation → Bool} {type : RecordType}
    (asserted : asserts operations name type)
    (kept : ∀ other ttl content, keeps (.assert other type ttl content) = true) :
    name ∈ assertedNames (operations.filter keeps) := by
  obtain ⟨other, ttl, content, member, here⟩ := asserted
  exact (mem_assertedNames _ _).mpr
    ⟨other, type, ttl, content, List.mem_filter.mpr ⟨member, kept other ttl content⟩, here⟩

/-- Removals of unsupported types do nothing. -/
theorem changes_without_removals (operations : List Operation) :
    changes (operations.filter fun operation => !operation.removesUnsupported) =
      changes operations := by
  refine changes_filter (fun operation _ dropped => stage_of_not_isSupported ?_ _) ?_
  · cases operation with
    | remove name type => simpa [Operation.removesUnsupported, Operation.isSupported] using dropped
    | assert | removeAll => cases dropped
  · intro name _ among
    obtain ⟨type, asserted⟩ := mem_assertedNames_iff.mp among
    exact mem_assertedNames_filter asserted fun _ _ _ => rfl

/-- Everything of unsupported types does nothing but silence the removals at the names where such
a type is asserted. -/
theorem changes_supportedPart (operations : List Operation) :
    changes (supportedPart operations) = changes operations := by
  refine changes_filter (fun operation _ dropped reached => ?_) fun name kept among => ?_
  · cases operation with
    | assert | remove => exact stage_of_not_isSupported dropped _ reached
    | removeAll name =>
      rw [Bool.not_eq_false', assertsUnsupported_iff] at dropped
      obtain ⟨type, _, asserted⟩ := dropped
      rw [stage, if_pos (mem_assertedNames_iff.mpr ⟨type, asserted⟩)]
  · obtain ⟨type, asserted⟩ := mem_assertedNames_iff.mp among
    have stays := (List.mem_filter.mp kept).2
    refine mem_assertedNames_filter asserted fun _ _ _ => ?_
    -- An assertion of an unsupported type would have silenced the removal.
    rw [Bool.not_eq_true', Bool.eq_false_iff, ne_eq, assertsUnsupported_iff] at stays
    show type.isSupported = true
    exact Bool.of_not_eq_false fun unsupported => stays ⟨type, unsupported, asserted⟩

/-- They can be taken out alone wherever a removal that they silence is silenced without them. -/
theorem changes_filter_isSupported
    (silenced : ∀ name, removesAll operations name → assertsUnsupported operations name = true →
      ∃ type : RecordType, type.isSupported = true ∧ asserts operations name type) :
    changes (operations.filter Operation.isSupported) = changes operations := by
  refine changes_filter (fun operation _ dropped => stage_of_not_isSupported dropped _)
    fun name kept among => ?_
  obtain ⟨type, asserted⟩ := mem_assertedNames_iff.mp among
  have removed : removesAll operations (Name.canonical name) :=
    ⟨name, List.mem_of_mem_filter kept, rfl⟩
  cases carried : type.isSupported with
  | true => exact mem_assertedNames_filter asserted fun _ _ _ => carried
  | false =>
    obtain ⟨other, supported, beside⟩ :=
      silenced _ removed (assertsUnsupported_iff.mpr ⟨type, carried, asserted⟩)
    exact mem_assertedNames_filter beside fun _ _ _ => supported

/-! ### Names where no record is put in -/

/-- No change puts records in at the name. -/
def OnlyDeletes (changes : List Change) (name : String) : Prop :=
  ∀ change ∈ changes, change.name = name → change.isDelete = true

theorem not_asserts_of_onlyDeletes (only : OnlyDeletes (changes operations) name)
    {type : RecordType} (supported : type.isSupported = true) :
    ¬ asserts operations name type := by
  intro asserted
  obtain ⟨ttl, values, member⟩ :=
    ((fulfils_changes operations).replaces name type supported).mpr asserted
  cases only _ member rfl

/-- The changes of a key where no record is put in are its deletion, if it is removed. -/
theorem filter_concerns_of_onlyDeletes (only : OnlyDeletes (changes operations) name)
    {type : RecordType} (supported : type.isSupported = true) :
    (changes operations).filter (·.concerns name type) =
      if operations.any (·.removes (assertedNames operations) name type) then
        [deletion name type] else [] := by
  have none : assertions name type operations = [] := by
    have silent := not_asserts_of_onlyDeletes only supported
    rwa [asserts_iff, not_not] at silent
  rw [filter_concerns _ _ _ (nodup_keys_changes operations), find?_changes _ _ _ supported, none,
    settled]
  split <;> rfl

end Taken

/-- Operations of unsupported types are set aside, but for the removals of all types that their
assertions silence. -/
structure SetsAside (operations : List Operation) : Prop where
  removals : changes (operations.filter fun operation => !operation.removesUnsupported) =
    changes operations
  /-- With the removals that they silence, all of them can be taken out. -/
  silencing : changes (supportedPart operations) = changes operations
  /-- So can they alone, where a supported type is asserted at every name at which they silence a
  removal of all types. -/
  alone : (∀ name, removesAll operations name → assertsUnsupported operations name = true →
      ∃ type : RecordType, type.isSupported = true ∧ asserts operations name type) →
    changes (operations.filter Operation.isSupported) = changes operations
  /-- A removal of all types at a name where no record is put in deletes each of them, -/
  expands : ∀ name, removesAll operations name → OnlyDeletes (changes operations) name →
    assertsUnsupported operations name = false → ∀ type ∈ RecordType.supported,
      (changes operations).filter (·.concerns name type) = [deletion name type]
  /-- unless a record of an unsupported type was asserted there: then those types are deleted that
  are removed by themselves. -/
  silences : ∀ name, OnlyDeletes (changes operations) name →
    assertsUnsupported operations name = true → ∀ type ∈ RecordType.supported,
      (deletion name type ∈ changes operations ↔ removesTyped operations name type)

theorem unsupported_set_aside (operations : List Operation) : SetsAside operations where
  removals := changes_without_removals operations
  silencing := changes_supportedPart operations
  alone := changes_filter_isSupported
  expands name removed only none type listed := by
    have supported := (RecordType.mem_supported_iff type).mp listed
    have heard : ∀ other, ¬ asserts operations name other := fun other asserted => by
      cases carried : other.isSupported with
      | true => exact not_asserts_of_onlyDeletes only carried asserted
      | false =>
        have there := assertsUnsupported_iff.mpr ⟨other, carried, asserted⟩
        exact Bool.false_ne_true (none.symm.trans there)
    rw [filter_concerns_of_onlyDeletes only supported,
      if_pos (any_removes_iff.mpr (.inr ⟨removed, heard⟩))]
  silences name only unsupported type listed := by
    have supported := (RecordType.mem_supported_iff type).mp listed
    obtain ⟨other, _, asserted⟩ := assertsUnsupported_iff.mp unsupported
    have unasserted := not_asserts_of_onlyDeletes only supported
    rw [deletion, mem_changes_delete, asksToDelete]
    constructor
    · rintro ⟨_, _, _, typed | ⟨_, heard⟩⟩
      · exact typed
      · exact absurd asserted (heard other)
    · exact fun typed => ⟨supported, rfl, unasserted, .inl typed⟩

/-- A text record and a removal of all types at one name. -/
def exampleSilenced : List Operation :=
  [.assert "a.test" (.other "TXT") 300 "text", .removeAll "a.test"]

/-- Without the text record the removal comes to four deletions, with it to nothing. -/
theorem silenced_exampleSilenced :
    removesAll exampleSilenced "a.test." ∧
      changes (exampleSilenced.filter Operation.isSupported) =
        RecordType.supported.map (deletion "a.test.") ∧
      changes exampleSilenced = [] ∧
      changes (exampleSilenced.filter Operation.isSupported) ≠ changes exampleSilenced := by
  have alone : changes (exampleSilenced.filter Operation.isSupported) =
      RecordType.supported.map (deletion "a.test.") := by decide +kernel
  have silenced : changes exampleSilenced = [] := by decide +kernel
  refine ⟨⟨"a.test", List.mem_cons_of_mem _ List.mem_cons_self, by decide⟩, alone, silenced, ?_⟩
  rw [alone, silenced]
  decide

end Zonecast.Zone
