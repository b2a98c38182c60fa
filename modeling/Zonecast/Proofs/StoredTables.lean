/-
Values by name, as the store in memory keeps them. A name is known once a value was put under it. It
then has the value that was put there last, and putting a value leaves all other names as they are.
-/
import Mathlib.Data.List.Basic
import Zonecast.Backend.Store

namespace Zonecast.Backend.Table

variable {α : Type} {table : Table α} {name other : String} {value : α}

/-! ### Known names -/

theorem mem_of_get? (found : table.get? name = some value) : (name, value) ∈ table := by
  obtain ⟨entry, there, rfl⟩ := Option.map_eq_some_iff.mp found
  have named : (entry.1 == name) = true :=
    List.find?_some (p := fun entry : String × α => entry.1 == name) there
  exact eq_of_beq named ▸ List.mem_of_find?_eq_some there

theorem mem_names_of_get? (found : table.get? name = some value) : name ∈ table.map (·.1) :=
  List.mem_map_of_mem (mem_of_get? found)

theorem not_mem_names_of_get? (missing : table.get? name = none) : name ∉ table.map (·.1) := by
  intro member
  obtain ⟨entry, held, rfl⟩ := List.mem_map.mp member
  unfold Table.get? at missing
  rw [Option.map_eq_none_iff] at missing
  exact List.find?_eq_none.mp missing entry held (beq_self_eq_true _)

/-- Where no name occurs twice, every value is found under its name. -/
theorem get?_of_mem (once : (table.map Prod.fst).Nodup) (member : (name, value) ∈ table) :
    table.get? name = some value := by
  induction table with
  | nil => cases member
  | cons first rest inductionHypothesis =>
    rw [List.map_cons, List.nodup_cons] at once
    unfold get?
    rw [List.find?_cons]
    rcases List.mem_cons.mp member with rfl | later
    · rw [beq_self_eq_true]
      rfl
    · have different : first.1 ≠ name := by
        rintro rfl
        exact once.1 (List.mem_map.mpr ⟨_, later, rfl⟩)
      rw [beq_eq_false_iff_ne.mpr different]
      exact inductionHypothesis once.2 later

theorem mem_sorted : value ∈ table.sorted ↔ ∃ name, (name, value) ∈ table := by
  unfold sorted
  rw [List.mem_map]
  constructor
  · rintro ⟨⟨name, _⟩, member, rfl⟩
    exact ⟨name, (List.mergeSort_perm _ _).mem_iff.mp member⟩
  · rintro ⟨name, member⟩
    exact ⟨(name, value), (List.mergeSort_perm _ _).mem_iff.mpr member, rfl⟩

/-! ### Putting a value -/

/-- An entry that gives way to another keeps its name. -/
theorem fst_replaced (entry : String × α) :
    (if entry.1 == name then (name, value) else entry).1 = entry.1 := by
  split
  · rename_i named
    exact (eq_of_beq named).symm
  · rfl

/-- So every name is found where it was. -/
theorem find?_replaced (table : Table α) (other : String) :
    (table.map fun entry => if entry.1 == name then (name, value) else entry).find?
        (fun entry => entry.1 == other) =
      (table.find? fun entry => entry.1 == other).map fun entry =>
        if entry.1 == name then (name, value) else entry := by
  have same : ((fun entry : String × α => entry.1 == other) ∘ fun entry =>
      if entry.1 == name then (name, value) else entry) = fun entry => entry.1 == other := by
    funext entry
    rw [Function.comp_apply, fst_replaced]
  rw [List.find?_map, same]

/-- The value of a name is the one that was put there last. -/
theorem get?_put (table : Table α) (name : String) (value : α) :
    (table.put name value).get? name = some value := by
  unfold put
  split
  · rename_i held
    obtain ⟨old, whole⟩ := Option.isSome_iff_exists.mp held
    obtain ⟨entry, found, _⟩ := Option.map_eq_some_iff.mp whole
    have named : (entry.1 == name) = true :=
      List.find?_some (p := fun entry : String × α => entry.1 == name) found
    unfold get?
    rw [find?_replaced, found, Option.map_some, Option.map_some, if_pos named]
  · rename_i absent
    unfold get? at absent ⊢
    rw [Option.isSome_map, Bool.not_eq_true, Option.isSome_eq_false_iff, Option.isNone_iff_eq_none]
      at absent
    rw [List.find?_append, absent, Option.none_or, List.find?_singleton, if_pos
      (beq_self_eq_true name)]
    rfl

/-- Putting a value under one name leaves the others as they are. -/
theorem get?_put_other (table : Table α) (value : α) (different : name ≠ other) :
    (table.put name value).get? other = table.get? other := by
  unfold put
  split
  · unfold get?
    rw [find?_replaced]
    cases found : table.find? fun entry => entry.1 == other with
    | none => rfl
    | some entry =>
      have named : (entry.1 == other) = true :=
        List.find?_some (p := fun entry : String × α => entry.1 == other) found
      have unnamed : ¬(entry.1 == name) = true := fun same =>
        different ((eq_of_beq same).symm.trans (eq_of_beq named))
      rw [Option.map_some, if_neg unnamed]
  · unfold get?
    rw [List.find?_append, List.find?_singleton, if_neg (beq_iff_eq.not.mpr different),
      Option.or_none]

/-- Putting a value under a known name leaves the names as they are. -/
theorem names_put (known : (table.get? name).isSome) :
    (table.put name value).map (·.1) = table.map (·.1) := by
  rw [put, if_pos known, List.map_map]
  exact List.map_congr_left fun entry _ => fst_replaced entry

theorem eq_or_mem_of_mem_put {entry : String × α} (member : entry ∈ table.put name value) :
    entry = (name, value) ∨ entry ∈ table := by
  unfold put at member
  split at member
  · obtain ⟨old, there, rfl⟩ := List.mem_map.mp member
    split
    · exact .inl rfl
    · exact .inr there
  · exact (List.mem_append.mp member).symm.imp_left List.mem_singleton.mp

/-- A name is known once something was put under it, and no other name is. -/
theorem mem_names_put (table : Table α) (name other : String) (value : α) :
    other ∈ (table.put name value).map (·.1) ↔ other ∈ table.map (·.1) ∨ name = other := by
  by_cases known : (table.get? name).isSome
  · rw [names_put known]
    refine (or_iff_left_of_imp ?_).symm
    rintro rfl
    obtain ⟨held, found⟩ := Option.isSome_iff_exists.mp known
    exact mem_names_of_get? found
  · rw [put, if_neg known, List.map_append, List.mem_append, List.map_singleton,
      List.mem_singleton, eq_comm]

theorem sorted_perm (table : Table α) : table.sorted.Perm (table.map (·.2)) :=
  (List.mergeSort_perm _ _).map _

end Zonecast.Backend.Table
