/-
What a list of staged operations asks for, and that its changes are just that. A key is a name in
canonical form and a supported type. Where anything is asserted for a key, its records are to be
replaced; where nothing is, they are to be deleted if the type is removed at the name, or if
everything is removed there and nothing of any type is asserted. `Fulfils` says this of a list of
changes without a walk through the operations, each key by itself, and then in which order the keys
stand.

From this description alone it follows that the order of the operations decides little: the order
of the changes, the order of the values, and which of the asserted times to live is taken.
-/
import Zonecast.Proofs.Changes
import Zonecast.Proofs.Names

namespace Zonecast.Zone

open Zonecast.Text

/-! ### What is asked for -/

/-- Something is asserted for a key. -/
def asserts (operations : List Operation) (name : String) (type : RecordType) : Prop :=
  ∃ other ttl content, Operation.assert other type ttl content ∈ operations ∧
    Name.canonical other = name

/-- Everything is removed at a name. -/
def removesAll (operations : List Operation) (name : String) : Prop :=
  ∃ other, Operation.removeAll other ∈ operations ∧ Name.canonical other = name

/-- A key is to be deleted. -/
def asksToDelete (operations : List Operation) (name : String) (type : RecordType) : Prop :=
  ¬ asserts operations name type ∧ (removesTyped operations name type ∨
    removesAll operations name ∧ ∀ other, ¬ asserts operations name other)

/-- The changes are those that the operations ask for. -/
structure Fulfils (operations : List Operation) (changes : List Change) : Prop where
  /-- No name and type has two changes. -/
  single : (changes.map Change.key).Nodup
  canonical : ∀ change ∈ changes, Name.canonical change.name = change.name
  supported : ∀ change ∈ changes, change.type.isSupported = true
  replaces : ∀ name type, type.isSupported = true →
    ((∃ ttl values, ⟨name, type, ttl, .replace values⟩ ∈ changes) ↔ asserts operations name type)
  /-- A replacement holds what is asserted, once each and in order of first assertion, with the
  time to live of the first. -/
  values : ∀ name type ttl values, ⟨name, type, ttl, .replace values⟩ ∈ changes →
    (assertions name type operations).head?.map (·.1) = some ttl ∧
      values = distinct ((assertions name type operations).map (·.2))
  deletes : ∀ name type, type.isSupported = true →
    ((∃ ttl, ⟨name, type, ttl, .delete⟩ ∈ changes) ↔ asksToDelete operations name type)
  /-- A deletion has no time to live. -/
  lifeless : ∀ change ∈ changes, change.mutation = .delete → change.ttl = 0
  /-- Changes stand in the order in which their keys first come up. -/
  inOrder : changes.map Change.key =
    distinct (operations.flatMap (·.keys (assertedNames operations)))

section Asking

variable {operations : List Operation} {name : String} {type : RecordType}

theorem asserts_iff : asserts operations name type ↔ assertions name type operations ≠ [] := by
  constructor
  · rintro ⟨other, ttl, content, member, here⟩
    have asserted : (ttl, content) ∈ assertions name type operations := by
      refine List.mem_filterMap.mpr ⟨_, member, ?_⟩
      rw [Operation.assertion?, if_pos ⟨here, rfl⟩]
    exact List.ne_nil_of_mem asserted
  · intro nonempty
    obtain ⟨_, asserted⟩ := List.exists_mem_of_ne_nil _ nonempty
    obtain ⟨operation, member, asserts⟩ := List.mem_filterMap.mp asserted
    cases operation with
    | assert other otherType otherTtl otherContent =>
      rw [Operation.assertion?, Option.ite_none_right_eq_some] at asserts
      obtain ⟨⟨here, rfl⟩, _⟩ := asserts
      exact ⟨other, otherTtl, otherContent, member, here⟩
    | remove | removeAll => cases asserts

theorem mem_assertedNames_iff :
    name ∈ assertedNames operations ↔ ∃ other, asserts operations name other := by
  rw [mem_assertedNames]
  constructor
  · rintro ⟨other, type, ttl, content, member, here⟩
    exact ⟨type, other, ttl, content, member, here⟩
  · rintro ⟨type, other, ttl, content, member, here⟩
    exact ⟨other, type, ttl, content, member, here⟩

/-- A key is removed by a removal of its type, or by one of all types that is not silenced. -/
theorem any_removes_iff :
    operations.any (·.removes (assertedNames operations) name type) = true ↔
      removesTyped operations name type ∨
        removesAll operations name ∧ ∀ other, ¬ asserts operations name other := by
  rw [List.any_eq_true]
  constructor
  · rintro ⟨operation, member, removes⟩
    cases operation with
    | assert => cases removes
    | remove other otherType =>
      simp only [Operation.removes, decide_eq_true_eq] at removes
      obtain ⟨here, rfl⟩ := removes
      exact .inl ⟨other, member, here⟩
    | removeAll other =>
      simp only [Operation.removes, decide_eq_true_eq] at removes
      obtain ⟨here, silent⟩ := removes
      exact .inr ⟨⟨other, member, here⟩, not_exists.mp (mt mem_assertedNames_iff.mpr silent)⟩
  · rintro (⟨other, member, here⟩ | ⟨⟨other, member, here⟩, silent⟩)
    · refine ⟨_, member, ?_⟩
      simp only [Operation.removes, decide_eq_true_eq]
      exact ⟨here, trivial⟩
    · refine ⟨_, member, ?_⟩
      simp only [Operation.removes, decide_eq_true_eq]
      exact ⟨here, mt mem_assertedNames_iff.mp (not_exists.mpr silent)⟩

/-! ### The changes of a list -/

/-- A change is the one that its key comes to. -/
theorem mem_changes_iff {change : Change} : change ∈ changes operations ↔
    change.type.isSupported = true ∧
      settled change.name change.type
        (operations.any (·.removes (assertedNames operations) change.name change.type))
        (assertions change.name change.type operations) = some change := by
  have found (supported : change.type.isSupported = true) :=
    find?_changes operations change.name change.type supported
  constructor
  · intro member
    have supported := (origin_of_mem_changes operations change member).1
    have own := filter_concerns (changes operations) change.name change.type
      (nodup_keys_changes operations)
    have listed : change ∈ (changes operations).filter (·.concerns change.name change.type) :=
      List.mem_filter.mpr ⟨member, (change.concerns_iff _ _).mpr ⟨rfl, rfl⟩⟩
    rw [own, Option.mem_toList, found supported] at listed
    exact ⟨supported, listed⟩
  · rintro ⟨supported, settled⟩
    exact List.mem_of_find?_eq_some ((found supported).trans settled)

theorem mem_changes_replace {ttl : UInt32} {values : List String} :
    ⟨name, type, ttl, .replace values⟩ ∈ changes operations ↔ type.isSupported = true ∧
      (assertions name type operations).head?.map (·.1) = some ttl ∧
        values = distinct ((assertions name type operations).map (·.2)) := by
  rw [mem_changes_iff]
  refine and_congr_right fun _ => ?_
  cases assertions name type operations with
  | nil => cases operations.any (·.removes (assertedNames operations) name type) <;>
      simp [settled, deletion]
  | cons first rest =>
    simp only [settled, Option.some.injEq, Change.mk.injEq, Mutation.replace.injEq, true_and,
      List.head?_cons, Option.map_some]
    exact and_congr_right fun _ => eq_comm

theorem mem_changes_delete {ttl : UInt32} :
    ⟨name, type, ttl, .delete⟩ ∈ changes operations ↔
      type.isSupported = true ∧ ttl = 0 ∧ asksToDelete operations name type := by
  rw [mem_changes_iff, asksToDelete, asserts_iff, not_not, ← any_removes_iff]
  refine and_congr_right fun _ => ?_
  cases assertions name type operations with
  | nil => cases operations.any (·.removes (assertedNames operations) name type) <;>
      simp [settled, deletion, eq_comm]
  | cons first rest => simp [settled]

end Asking

theorem fulfils_changes (operations : List Operation) :
    Fulfils operations (changes operations) where
  single := nodup_keys_changes operations
  canonical change member := by
    obtain ⟨_, operation, _, own⟩ := origin_of_mem_changes operations change member
    rw [← own]
    cases operation <;> exact Name.canonical_canonical _
  supported change member := (origin_of_mem_changes operations change member).1
  replaces name type supported := by
    simp only [mem_changes_replace, asserts_iff]
    cases assertions name type operations <;> simp [supported]
  values name type ttl values member := (mem_changes_replace.mp member).2
  deletes name type supported := by
    simp [mem_changes_delete, supported]
  lifeless := by
    rintro ⟨name, type, ttl, mutation⟩ member rfl
    exact (mem_changes_delete.mp member).2.1
  inOrder := keys_changes operations

/-! ### Any order of the operations -/

/-- The two are changes of one key and do the same to it, values in any order. -/
def Change.Resembles (first second : Change) : Prop :=
  first.key = second.key ∧
    match first.mutation, second.mutation with
    | .replace values, .replace others => values.Perm others
    | .delete, .delete => first.ttl = second.ttl
    | _, _ => False

/-- The same changes in any order, their values in any order, replacements under any time to
live. -/
def Alike (first second : List Change) : Prop :=
  ∃ matched, matched.Perm second ∧ List.Forall₂ Change.Resembles first matched

/-- Lists whose members are told apart by keys and have each its counterpart in the other are the
same up to order. -/
theorem exists_matched {α κ : Type} [DecidableEq α] {key : α → κ} {relates : α → α → Prop}
    (keeps : ∀ first second, relates first second → key first = key second)
    {firsts seconds : List α} (single : (firsts.map key).Nodup)
    (singleSecond : (seconds.map key).Nodup)
    (there : ∀ first ∈ firsts, ∃ second ∈ seconds, relates first second)
    (back : ∀ second ∈ seconds, ∃ first ∈ firsts, relates first second) :
    ∃ matched, matched.Perm seconds ∧ List.Forall₂ relates firsts matched := by
  induction firsts generalizing seconds with
  | nil =>
    have none : seconds = [] := List.eq_nil_iff_forall_not_mem.mpr fun second member => by
      obtain ⟨_, impossible, _⟩ := back second member
      cases impossible
    exact ⟨[], none ▸ .refl _, .nil⟩
  | cons first rest inductionHypothesis =>
    obtain ⟨own, listed, related⟩ := there first List.mem_cons_self
    have split : seconds.Perm (own :: seconds.erase own) := List.perm_cons_erase listed
    obtain ⟨fresh, singleRest⟩ := List.nodup_cons.mp single
    obtain ⟨freshOwn, singleErased⟩ :=
      List.nodup_cons.mp ((split.map key).nodup_iff.mp singleSecond)
    obtain ⟨matched, same, pairs⟩ := inductionHypothesis singleRest singleErased
      (fun other member => by
        obtain ⟨second, among, relatesOther⟩ := there other (List.mem_cons_of_mem _ member)
        refine ⟨second, (List.mem_erase_of_ne ?_).mpr among, relatesOther⟩
        rintro rfl
        refine fresh (List.mem_map.mpr ⟨other, member, ?_⟩)
        rw [keeps _ _ relatesOther, keeps _ _ related])
      (fun second among => by
        obtain ⟨other, member, relatesSecond⟩ := back second (List.mem_of_mem_erase among)
        rcases List.mem_cons.mp member with rfl | later
        · refine absurd (List.mem_map.mpr ⟨second, among, ?_⟩) freshOwn
          rw [← keeps _ _ relatesSecond, ← keeps _ _ related]
        · exact ⟨other, later, relatesSecond⟩)
    exact ⟨own :: matched, (same.cons own).trans split.symm, .cons related pairs⟩

section Permuted

variable {operations permuted : List Operation} {changes others : List Change}

theorem asserts_of_perm (same : operations.Perm permuted) (name : String) (type : RecordType) :
    asserts operations name type ↔ asserts permuted name type := by
  simp only [asserts, same.mem_iff]

theorem asksToDelete_of_perm (same : operations.Perm permuted) (name : String)
    (type : RecordType) :
    asksToDelete operations name type ↔ asksToDelete permuted name type := by
  simp only [asksToDelete, removesTyped, removesAll, asserts, same.mem_iff]

/-- What is asserted for a key, each once, is the same up to order. -/
theorem perm_distinct_assertions (same : operations.Perm permuted) (name : String)
    (type : RecordType) :
    (distinct ((assertions name type operations).map (·.2))).Perm
      (distinct ((assertions name type permuted).map (·.2))) := by
  refine (List.perm_ext_iff_of_nodup (nodup_distinct _) (nodup_distinct _)).mpr fun content => ?_
  rw [mem_distinct, mem_distinct]
  exact ((same.filterMap _).map _).mem_iff

/-- Every change has its counterpart among the changes of the same operations in another order. -/
theorem Fulfils.exists_resembling (fulfils : Fulfils operations changes)
    (fulfilsOther : Fulfils permuted others) (same : operations.Perm permuted) {change : Change}
    (member : change ∈ changes) : ∃ other ∈ others, change.Resembles other := by
  obtain ⟨name, type, ttl, mutation⟩ := change
  have supported : type.isSupported = true := fulfils.supported _ member
  cases mutation with
  | replace values =>
    have asserted := (fulfils.replaces name type supported).mp ⟨ttl, values, member⟩
    obtain ⟨otherTtl, otherValues, listed⟩ := (fulfilsOther.replaces name type supported).mpr
      ((asserts_of_perm same name type).mp asserted)
    refine ⟨_, listed, rfl, ?_⟩
    rw [(fulfils.values _ _ _ _ member).2, (fulfilsOther.values _ _ _ _ listed).2]
    exact perm_distinct_assertions same name type
  | delete =>
    have asked := (fulfils.deletes name type supported).mp ⟨ttl, member⟩
    obtain ⟨otherTtl, listed⟩ := (fulfilsOther.deletes name type supported).mpr
      ((asksToDelete_of_perm same name type).mp asked)
    exact ⟨_, listed, rfl,
      (fulfils.lifeless _ member rfl).trans (fulfilsOther.lifeless _ listed rfl).symm⟩

theorem Change.Resembles.symm {first second : Change} (resembles : first.Resembles second) :
    second.Resembles first := by
  obtain ⟨name, type, ttl, mutation⟩ := first
  obtain ⟨otherName, otherType, otherTtl, otherMutation⟩ := second
  obtain ⟨same, does⟩ := resembles
  cases mutation <;> cases otherMutation
  · exact ⟨same.symm, List.Perm.symm does⟩
  · exact does.elim
  · exact does.elim
  · exact ⟨same.symm, Eq.symm does⟩

/-- Whatever fulfils the same operations in another order is alike. -/
theorem Fulfils.alike (fulfils : Fulfils operations changes)
    (fulfilsOther : Fulfils permuted others) (same : operations.Perm permuted) :
    Alike changes others :=
  exists_matched (fun _ _ resembles => resembles.1) fulfils.single fulfilsOther.single
    (fun _ member => fulfils.exists_resembling fulfilsOther same member)
    fun _ member => by
      obtain ⟨change, listed, resembles⟩ := fulfilsOther.exists_resembling fulfils same.symm member
      exact ⟨change, listed, resembles.symm⟩

end Permuted

/-- The changes of a list of operations are those that it asks for, and in any other order it asks
for the same. -/
theorem changes_fulfil (operations : List Operation) :
    Fulfils operations (changes operations) ∧
      ∀ permuted : List Operation, operations.Perm permuted →
        Alike (changes operations) (changes permuted) :=
  ⟨fulfils_changes operations, fun permuted same =>
    (fulfils_changes operations).alike (fulfils_changes permuted) same⟩

/-- One name in three spellings, a removal of all types and one that is silenced by a record of
another type. -/
def exampleOperations : List Operation :=
  [.removeAll "gone.test", .remove "a.test" .ns, .assert "A.test." .ns 3600 "ns1.test.",
    .assert " a.test" .ns 60 "ns2.test.", .assert "a.test" .ns 60 "ns1.test.",
    .assert "b.test" (.other "TXT") 60 "text", .removeAll "B.test", .remove "gone.test" .a]

/-- The first time to live and the order of the values are those of the first assertions; the other
way round they are others. -/
theorem fulfilled_exampleOperations :
    exampleOperations.Perm exampleOperations.reverse ∧
      changes exampleOperations =
        [deletion "gone.test." .a, deletion "gone.test." .aaaa, deletion "gone.test." .ds,
          deletion "gone.test." .ns, ⟨"a.test.", .ns, 3600, .replace ["ns1.test.", "ns2.test."]⟩] ∧
      Fulfils exampleOperations (changes exampleOperations) ∧
      Alike (changes exampleOperations) (changes exampleOperations.reverse) := by
  have same : exampleOperations.Perm exampleOperations.reverse := (List.reverse_perm _).symm
  exact ⟨same, by decide +kernel, (changes_fulfil exampleOperations).1,
    (changes_fulfil exampleOperations).2 _ same⟩

end Zonecast.Zone
