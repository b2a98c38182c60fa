/-
Lists with only the first of equal members kept. Batches keep each of their names once, and a
record set keeps each of its values once; in both, order is that of first occurrence. What is
shown here is what a reader expects of `distinct`: the members are those of the list, none occurs
twice, and members that have occurred before add nothing.
-/
import Mathlib.Data.List.Induction
import Mathlib.Data.List.Nodup
import Zonecast.Text.Pieces

namespace Zonecast.Text

variable {α : Type} [DecidableEq α]

/-! ### One member more -/

theorem distinct_nil : distinct ([] : List α) = [] := rfl

theorem distinct_concat (items : List α) (item : α) :
    distinct (items ++ [item]) =
      if item ∈ distinct items then distinct items else distinct items ++ [item] := by
  unfold distinct
  rw [List.foldl_append, List.foldl_cons, List.foldl_nil]

theorem mem_distinct (items : List α) (item : α) : item ∈ distinct items ↔ item ∈ items := by
  induction items using List.reverseRecOn with
  | nil => rw [distinct_nil]
  | append_singleton items last inductionHypothesis =>
    rw [distinct_concat]
    split
    · rename_i kept
      rw [inductionHypothesis, List.mem_append, List.mem_singleton]
      constructor
      · exact Or.inl
      · rintro (member | rfl)
        · exact member
        · exact inductionHypothesis.mp kept
    · rw [List.mem_append, List.mem_append, inductionHypothesis]

theorem nodup_distinct (items : List α) : (distinct items).Nodup := by
  induction items using List.reverseRecOn with
  | nil => exact List.nodup_nil
  | append_singleton items last inductionHypothesis =>
    rw [distinct_concat]
    split
    · exact inductionHypothesis
    · rename_i fresh
      rw [List.nodup_append]
      refine ⟨inductionHypothesis, List.nodup_singleton last, ?_⟩
      rintro item member other single rfl
      rw [List.mem_singleton] at single
      exact fresh (single ▸ member)

theorem distinct_eq_nil_iff (items : List α) : distinct items = [] ↔ items = [] := by
  rw [List.eq_nil_iff_forall_not_mem, List.eq_nil_iff_forall_not_mem]
  simp only [mem_distinct]

/-- A list without repetitions stays as it is. -/
theorem distinct_of_nodup {items : List α} (single : items.Nodup) : distinct items = items := by
  induction items using List.reverseRecOn with
  | nil => rfl
  | append_singleton items last inductionHypothesis =>
    obtain ⟨before, _, apart⟩ := List.nodup_append.mp single
    have fresh : last ∉ items :=
      fun member => apart last member last (List.mem_singleton_self _) rfl
    rw [distinct_concat, inductionHypothesis before, if_neg fresh]

/-- Members are kept in the order in which they first occur. -/
theorem pairwise_distinct (items : List α) :
    (distinct items).Pairwise fun earlier later => items.idxOf earlier < items.idxOf later := by
  induction items using List.reverseRecOn with
  | nil => exact List.Pairwise.nil
  | append_singleton items last inductionHypothesis =>
    have kept : ∀ item ∈ distinct items, (items ++ [last]).idxOf item = items.idxOf item :=
      fun item member => List.idxOf_append_of_mem ((mem_distinct items item).mp member)
    have before : (distinct items).Pairwise fun earlier later =>
        (items ++ [last]).idxOf earlier < (items ++ [last]).idxOf later :=
      inductionHypothesis.imp_of_mem fun first second => by
        rw [kept _ first, kept _ second]
        exact id
    rw [distinct_concat]
    split
    · exact before
    · rename_i fresh
      rw [mem_distinct] at fresh
      refine List.pairwise_append.mpr ⟨before, List.pairwise_singleton _ _, fun item member other
        single => ?_⟩
      obtain rfl := List.mem_singleton.mp single
      rw [kept item member, List.idxOf_append_of_notMem fresh]
      exact Nat.lt_add_right _ (List.idxOf_lt_length_of_mem ((mem_distinct items item).mp member))

/-! ### Members that occurred before -/

/-- What is added to a list without bringing in a new member adds nothing. -/
theorem distinct_append_of_subset (items more : List α) (known : ∀ item ∈ more, item ∈ items) :
    distinct (items ++ more) = distinct items := by
  induction more using List.reverseRecOn with
  | nil => rw [List.append_nil]
  | append_singleton more last inductionHypothesis =>
    have same : distinct (items ++ more) = distinct items :=
      inductionHypothesis fun item member => known item (List.mem_append_left _ member)
    have seen : last ∈ distinct items := (mem_distinct items last).mpr
      (known last (List.mem_append_right _ (List.mem_singleton_self _)))
    rw [← List.append_assoc, distinct_concat, same, if_pos seen]

/-- A list that is repeated, with nothing in between, keeps what its first copy keeps. -/
theorem distinct_flatten_of_repeated (blocks : List (List α)) (block : List α)
    (each : ∀ other ∈ blocks, other = [] ∨ other = block) (present : block ≠ [] → block ∈ blocks) :
    distinct blocks.flatten = distinct block := by
  induction blocks with
  | nil =>
    have empty : block = [] := Classical.not_not.mp fun filled => by cases present filled
    rw [empty, List.flatten_nil]
  | cons first rest inductionHypothesis =>
    have restEach : ∀ other ∈ rest, other = [] ∨ other = block :=
      fun other member => each other (List.mem_cons_of_mem _ member)
    rw [List.flatten_cons]
    by_cases same : first = block
    · subst same
      refine distinct_append_of_subset _ _ fun item member => ?_
      obtain ⟨other, inRest, inOther⟩ := List.mem_flatten.mp member
      rcases restEach other inRest with rfl | rfl
      · cases inOther
      · exact inOther
    · have empty : first = [] := (each first List.mem_cons_self).resolve_right same
      have restPresent : block ≠ [] → block ∈ rest :=
        fun filled => (List.mem_cons.mp (present filled)).resolve_left (Ne.symm same)
      rw [empty, List.nil_append, inductionHypothesis restEach restPresent]

end Zonecast.Text
