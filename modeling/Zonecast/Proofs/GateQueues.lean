/-
Gates against queues. The table of gates, with its clones, counts and lines, does what one queue for
each name would do: the calls that hold a clone of the gate of a name, in the order in which they
took it. Going to a gate, leaving it and being abandoned each do to the queue of the name what they
say and nothing to other queues, and a call has its turn just if it is the first of its queue.

What makes this so is that every clone is of the gate that the table has under its name, now and for
as long as the clone is held: a gate is taken out of the table only by a call that finds no other
reference than the table's and its own, so nobody who still waits at it is left with a gate that is
not in the table, and no second gate of the name is made meanwhile.
-/
import Mathlib.Data.List.Nodup
import Zonecast.Directory.Gates

namespace Zonecast.Directory

theorem Clone.isOf_iff {clone : Clone} {name : String} {process : Nat} :
    clone.isOf name process = true ↔ clone.name = name ∧ clone.process = process := by
  rw [Clone.isOf, Bool.and_eq_true, beq_iff_eq, beq_iff_eq]

namespace Gates

variable {gates : Gates} {name other : String} {process task : Nat} {gate : Gate}

/-! ### Queues -/

/-- The processes whose calls for a name hold a clone, in the order in which they took it. -/
def queue (gates : Gates) (name : String) : List Nat :=
  (gates.clones.filter fun clone => clone.name == name).map (·.process)

/-- The process is the first in the queue of a name. -/
def IsFront (gates : Gates) (name : String) (process : Nat) : Prop :=
  (gates.queue name).head? = some process

theorem mem_queue : process ∈ gates.queue name ↔
    ∃ clone ∈ gates.clones, clone.name = name ∧ clone.process = process := by
  unfold queue
  simp only [List.mem_map, List.mem_filter, beq_iff_eq, and_assoc]

theorem held?_eq_none : gates.held? name process = none ↔ process ∉ gates.queue name := by
  rw [held?, Option.map_eq_none_iff, List.find?_eq_none, mem_queue]
  simp only [Clone.isOf_iff, not_exists, not_and]

theorem exists_of_held? (held : gates.held? name process = some gate) :
    ∃ clone ∈ gates.clones, clone.name = name ∧ clone.process = process ∧ clone.gate = gate := by
  obtain ⟨clone, found, same⟩ := Option.map_eq_some_iff.mp held
  have suits : clone.isOf name process = true :=
    List.find?_some (p := fun clone : Clone => clone.isOf name process) found
  obtain ⟨named, own⟩ := Clone.isOf_iff.mp suits
  exact ⟨clone, List.mem_of_find?_eq_some found, named, own, same⟩

theorem mem_queue_of_held? (held : gates.held? name process = some gate) :
    process ∈ gates.queue name := by
  obtain ⟨clone, member, named, own, _⟩ := exists_of_held? held
  exact mem_queue.mpr ⟨clone, member, named, own⟩

theorem clones_ensure : (gates.ensure name).2.clones = gates.clones := by
  unfold ensure
  split <;> rfl

theorem clones_enter : (gates.enter name process).clones =
    gates.clones ++ [⟨process, name, (gates.ensure name).1⟩] := by
  have same : (gates.ensure name).2.clones = gates.clones := clones_ensure
  rw [← same]
  rfl

theorem queue_enter : (gates.enter name process).queue other =
    if name = other then gates.queue name ++ [process] else gates.queue other := by
  unfold queue
  rw [clones_enter, List.filter_append, List.map_append]
  by_cases same : name = other
  · subst same
    rw [if_pos rfl, List.filter_singleton, beq_self_eq_true]
    rfl
  · rw [if_neg same, List.filter_singleton, beq_eq_false_iff_ne.mpr same]
    exact List.append_nil _

theorem mem_queue_enter : task ∈ (gates.enter name process).queue other ↔
    task ∈ gates.queue other ∨ name = other ∧ task = process := by
  rw [queue_enter]
  by_cases same : name = other
  · subst same
    rw [if_pos rfl, List.mem_append, List.mem_singleton, and_iff_right rfl]
  · rw [if_neg same]
    exact (or_iff_left fun last => same last.1).symm

/-- What a filter of the clones makes of a queue. -/
theorem map_filter_clones (keep : Clone → Bool) (stays : Nat → Bool) (clones : List Clone)
    (agrees : ∀ clone ∈ clones, clone.name = name → keep clone = stays clone.process) :
    ((clones.filter keep).filter fun clone => clone.name == name).map (·.process) =
      ((clones.filter fun clone => clone.name == name).map (·.process)).filter stays := by
  rw [List.filter_map, List.filter_filter, List.filter_filter]
  refine congrArg (List.map _) (List.filter_congr fun clone member => ?_)
  by_cases named : clone.name = name
  · rw [agrees clone member named, Bool.and_comm]
    rfl
  · rw [beq_eq_false_iff_ne.mpr named, Bool.and_false, Bool.false_and]

theorem clones_leave : (gates.leave name process).clones =
    gates.clones.filter fun clone => !clone.isOf name process := by
  unfold leave
  cases held : gates.held? name process with
  | none =>
    rw [held?, Option.map_eq_none_iff, List.find?_eq_none] at held
    exact (List.filter_eq_self.mpr fun clone member => by
      rw [Bool.eq_false_iff.mpr (held clone member)]; rfl).symm
  | some => rfl

theorem queue_leave : (gates.leave name process).queue other =
    if name = other then (gates.queue name).filter (· != process) else gates.queue other := by
  unfold queue
  rw [clones_leave]
  by_cases same : name = other
  · subst same
    rw [if_pos rfl]
    refine map_filter_clones _ (· != process) gates.clones fun clone _ named => ?_
    rw [Clone.isOf, named, beq_self_eq_true, Bool.true_and]
    rfl
  · rw [if_neg same, map_filter_clones _ (fun _ => true) gates.clones]
    · exact List.filter_true _
    · intro clone _ named
      rw [Clone.isOf, named, beq_eq_false_iff_ne.mpr (Ne.symm same)]
      rfl

theorem queue_abandon : (gates.abandon process).queue name =
    (gates.queue name).filter (· != process) :=
  map_filter_clones _ (· != process) gates.clones fun _ _ _ => rfl

/-- The first of a queue stays so as others come, -/
theorem isFront_enter (front : gates.IsFront name process) :
    (gates.enter other task).IsFront name process := by
  unfold IsFront at front ⊢
  rw [queue_enter]
  split
  · rename_i same
    rw [same, List.head?_append, front]
    rfl
  · exact front

theorem head?_filter_ne {members : List Nat} (front : members.head? = some process)
    (different : process ≠ task) : (members.filter (· != task)).head? = some process := by
  obtain ⟨rest, rfl⟩ := List.head?_eq_some_iff.mp front
  rw [List.filter_cons, if_pos (bne_iff_ne.mpr different), List.head?_cons]

/-- leave, -/
theorem isFront_leave (front : gates.IsFront name process) (different : process ≠ task) :
    (gates.leave other task).IsFront name process := by
  unfold IsFront at front ⊢
  rw [queue_leave]
  split
  · rename_i same
    exact head?_filter_ne (same ▸ front) different
  · exact front

/-- or are abandoned. -/
theorem isFront_abandon (front : gates.IsFront name process) (different : process ≠ task) :
    (gates.abandon task).IsFront name process := by
  unfold IsFront at front ⊢
  rw [queue_abandon]
  exact head?_filter_ne front different

theorem eq_of_isFront (first : gates.IsFront name process) (second : gates.IsFront name task) :
    process = task :=
  Option.some.inj (first.symm.trans second)

/-- Who stands in a queue, and once at most, is alone if nobody else stands there. -/
theorem queue_eq_singleton_iff (once : (gates.queue name).Nodup)
    (own : process ∈ gates.queue name) :
    gates.queue name = [process] ↔ ∀ other ∈ gates.queue name, other = process := by
  constructor
  · intro alone other member
    rw [alone] at member
    exact List.mem_singleton.mp member
  · intro alone
    have others : (gates.queue name).erase process = [] := by
      rw [once.erase_eq_filter, List.filter_eq_nil_iff]
      intro other member
      rw [alone other member, bne_self_eq_false]
      exact Bool.false_ne_true
    have whole := List.perm_cons_erase own
    rw [others] at whole
    exact List.perm_singleton.mp whole

/-! ### The table -/

/-- The names that have a gate in the table. -/
def names (gates : Gates) : List String :=
  gates.table.map Prod.fst

/-- No name and no gate is twice in the table, and the gates in it were made. Every clone is of the
gate in the table under its name. Whoever holds a clone stands in the line before its gate. -/
structure Sound (gates : Gates) : Prop where
  names : gates.names.Nodup
  apart : (gates.table.map Prod.snd).Nodup
  made : ∀ entry ∈ gates.table, entry.2.serial < gates.made
  current : ∀ clone ∈ gates.clones, (clone.name, clone.gate) ∈ gates.table
  lines : gates.lines = gates.clones.map fun clone => (clone.gate, clone.process)

theorem sound_empty : Sound empty where
  names := List.nodup_nil
  apart := List.nodup_nil
  made := nofun
  current := nofun
  lines := rfl

theorem mem_of_gate? (found : gates.gate? name = some gate) : (name, gate) ∈ gates.table := by
  obtain ⟨⟨key, value⟩, member, same⟩ := Option.map_eq_some_iff.mp found
  have named : key = name := eq_of_beq
    (List.find?_some (p := fun entry : String × Gate => entry.1 == name) member)
  cases same
  exact named ▸ List.mem_of_find?_eq_some member

theorem gate?_eq_none : gates.gate? name = none ↔ name ∉ gates.names := by
  rw [gate?, Option.map_eq_none_iff, List.find?_eq_none, names, List.mem_map]
  simp only [beq_iff_eq, not_exists, not_and]

theorem mem_names_enter :
    other ∈ (gates.enter name process).names ↔ other = name ∨ other ∈ gates.names := by
  show other ∈ (gates.ensure name).2.names ↔ _
  unfold Gates.ensure
  cases found : gates.gate? name with
  | some gate =>
    refine ⟨.inr, fun either => either.elim (fun same => ?_) id⟩
    rw [same]
    exact List.mem_map_of_mem (mem_of_gate? found)
  | none => exact List.mem_cons

/-- If just the clones for a name are of a gate, then the queue of the name stands before it. -/
theorem line_eq_queue
    (lines : gates.lines = gates.clones.map fun clone => (clone.gate, clone.process))
    (own : ∀ clone ∈ gates.clones, clone.gate = gate ↔ clone.name = name) :
    gates.line gate = gates.queue name := by
  rw [line, queue, lines, List.filter_map, List.map_map]
  refine congrArg (List.map _) (List.filter_congr fun clone member => ?_)
  exact Bool.eq_iff_iff.mpr (by
    rw [Function.comp_apply, beq_iff_eq, beq_iff_eq]
    exact own clone member)

section Sound

variable (sound : gates.Sound)

include sound

theorem Sound.gate?_eq_some : gates.gate? name = some gate ↔ (name, gate) ∈ gates.table := by
  refine ⟨mem_of_gate?, fun member => ?_⟩
  cases found : gates.gate? name with
  | none => exact absurd (List.mem_map_of_mem member) (gate?_eq_none.mp found)
  | some value =>
    have same := List.inj_on_of_nodup_map sound.names (mem_of_gate? found) member rfl
    exact congrArg (fun entry => some entry.2) same

/-- A gate is in the table under one name only. -/
theorem Sound.eq_of_mem (first : (name, gate) ∈ gates.table)
    (second : (other, gate) ∈ gates.table) : name = other :=
  congrArg Prod.fst (List.inj_on_of_nodup_map sound.apart first second rfl)

/-- Clones are of one gate if they are for one name, and only then. -/
theorem Sound.gate_eq_iff {clone : Clone} (member : clone ∈ gates.clones)
    (there : (name, gate) ∈ gates.table) : clone.gate = gate ↔ clone.name = name := by
  constructor
  · rintro rfl
    exact sound.eq_of_mem (sound.current clone member) there
  · rintro rfl
    exact congrArg Prod.snd (List.inj_on_of_nodup_map sound.names (sound.current clone member)
      there rfl)

/-- What a call holds is the gate in the table under its name. -/
theorem Sound.gate?_of_held? (held : gates.held? name process = some gate) :
    gates.gate? name = some gate := by
  obtain ⟨clone, member, rfl, _, rfl⟩ := exists_of_held? held
  exact sound.gate?_eq_some.mpr (sound.current clone member)

/-- The line before a gate is the queue of its name. -/
theorem Sound.line_eq (there : (name, gate) ∈ gates.table) :
    gates.line gate = gates.queue name :=
  line_eq_queue sound.lines fun _ member => sound.gate_eq_iff member there

/-- A call has its turn just if its process is the first in the queue of its name. -/
theorem Sound.hasTurn_iff : gates.hasTurn name process = true ↔ gates.IsFront name process := by
  rw [hasTurn, Option.any_eq_true]
  constructor
  · rintro ⟨gate, held, first⟩
    rw [sound.line_eq (mem_of_gate? (sound.gate?_of_held? held)), beq_iff_eq] at first
    exact first
  · intro front
    cases held : gates.held? name process with
    | none => exact absurd (List.mem_of_head? front) (held?_eq_none.mp held)
    | some gate =>
      refine ⟨gate, rfl, ?_⟩
      rw [sound.line_eq (mem_of_gate? (sound.gate?_of_held? held)), beq_iff_eq]
      exact front

/-- The references to a gate are the table's and those of all in the queue. -/
theorem Sound.references_eq (there : (name, gate) ∈ gates.table) :
    gates.references gate = 1 + (gates.queue name).length := by
  have once : gates.table.countP (fun entry => entry.2 == gate) = 1 := by
    have counted := List.count_eq_one_of_mem sound.apart (List.mem_map_of_mem there)
    rw [List.count, List.countP_map] at counted
    exact counted
  rw [references, once, queue, List.length_map, ← List.countP_eq_length_filter]
  refine congrArg (1 + ·) (List.countP_congr fun clone member => ?_)
  rw [beq_iff_eq, beq_iff_eq]
  exact sound.gate_eq_iff member there

/-- A call that holds a clone finds no other reference than the table's and its own just if it is
alone in its queue. -/
theorem Sound.references_eq_two (held : gates.held? name process = some gate) :
    gates.references gate = 2 ↔ gates.queue name = [process] := by
  rw [sound.references_eq (mem_of_gate? (sound.gate?_of_held? held))]
  have member := mem_queue_of_held? held
  constructor
  · intro counted
    have single : (gates.queue name).length = 1 := by omega
    obtain ⟨only, whole⟩ := List.length_eq_one_iff.mp single
    rw [whole] at member ⊢
    rw [List.mem_singleton.mp member]
  · intro alone
    rw [alone]
    rfl

/-! ### Going, leaving and being abandoned -/

theorem Sound.ensure (name : String) : (gates.ensure name).2.Sound ∧
    (name, (gates.ensure name).1) ∈ (gates.ensure name).2.table := by
  unfold Gates.ensure
  cases found : gates.gate? name with
  | some gate => exact ⟨sound, mem_of_gate? found⟩
  | none =>
    -- The new gate is unlike all that were made before.
    have new : (⟨gates.made⟩ : Gate) ∉ gates.table.map Prod.snd := by
      intro member
      obtain ⟨entry, there, same⟩ := List.mem_map.mp member
      have early := sound.made entry there
      rw [same] at early
      exact Nat.lt_irrefl _ early
    refine ⟨⟨List.nodup_cons.mpr ⟨gate?_eq_none.mp found, sound.names⟩,
      List.nodup_cons.mpr ⟨new, sound.apart⟩, fun entry member => ?_,
      fun clone member => List.mem_cons_of_mem _ (sound.current clone member), sound.lines⟩,
      List.mem_cons_self⟩
    rcases List.mem_cons.mp member with rfl | old
    · exact Nat.lt_succ_self _
    · exact Nat.lt_succ_of_lt (sound.made entry old)

theorem Sound.enter : (gates.enter name process).Sound := by
  obtain ⟨ensured, there⟩ := sound.ensure name
  refine ⟨ensured.names, ensured.apart, ensured.made, fun clone member => ?_, ?_⟩
  · rcases List.mem_append.mp member with old | new
    · exact ensured.current clone old
    · obtain rfl := List.mem_singleton.mp new
      exact there
  · show (gates.ensure name).2.lines ++ [_] = ((gates.ensure name).2.clones ++ [_]).map _
    rw [List.map_append, ensured.lines]
    rfl

/-- A call that leaves takes the gate out of the table only if it was alone at it, so those that
stay find it there. -/
theorem Sound.leave : (gates.leave name process).Sound := by
  unfold Gates.leave
  cases held : gates.held? name process with
  | none => exact sound
  | some gate =>
    have there := mem_of_gate? (sound.gate?_of_held? held)
    have sublist : (if gates.references gate == 2 then
        gates.table.filter fun entry => entry.1 != name else gates.table).Sublist gates.table := by
      split
      · exact List.filter_sublist
      · exact .refl _
    refine ⟨sound.names.sublist (sublist.map _), sound.apart.sublist (sublist.map _),
      fun entry member => sound.made entry (sublist.subset member), fun clone member => ?_, ?_⟩
    · obtain ⟨old, stays⟩ := List.mem_filter.mp member
      have present := sound.current clone old
      dsimp only
      split
      · rename_i counted
        refine List.mem_filter.mpr ⟨present, bne_iff_ne.mpr fun named => ?_⟩
        have alone := (sound.references_eq_two held).mp (eq_of_beq counted)
        have own : clone.process ∈ gates.queue name := mem_queue.mpr ⟨clone, old, named, rfl⟩
        rw [alone, List.mem_singleton] at own
        rw [Clone.isOf_iff.mpr ⟨named, own⟩] at stays
        cases stays
      · exact present
    · dsimp only
      rw [sound.lines, List.filter_map]
      refine congrArg (List.map _) (List.filter_congr fun clone member => ?_)
      refine congrArg (!·) (Bool.eq_iff_iff.mpr ?_)
      rw [beq_iff_eq, Prod.mk.injEq, sound.gate_eq_iff member there, Clone.isOf_iff]

/-- The turn passes to the one who has it then. -/
theorem Sound.successor?_iff (held : gates.held? name process = some gate) :
    gates.successor? name process = some task ↔
      (gates.leave name process).hasTurn name task = true := by
  have there := mem_of_gate? (sound.gate?_of_held? held)
  have line : (gates.leave name process).line gate = (gates.leave name process).queue name := by
    refine line_eq_queue sound.leave.lines fun clone member => ?_
    rw [clones_leave] at member
    exact sound.gate_eq_iff (List.mem_filter.mp member).1 there
  rw [sound.leave.hasTurn_iff, IsFront, ← line, successor?, held]
  exact Iff.rfl

theorem Sound.abandon : (gates.abandon process).Sound where
  names := sound.names
  apart := sound.apart
  made := sound.made
  current clone member := sound.current clone (List.mem_filter.mp member).1
  lines := by
    show gates.lines.filter _ = (gates.clones.filter _).map _
    rw [sound.lines, List.filter_map]
    rfl

/-! ### Which gates stay -/

/-- Leaving takes the gate of the name out of the table if nobody else stands at it, and no other
gate. -/
theorem Sound.mem_names_leave (member : process ∈ gates.queue name) :
    other ∈ (gates.leave name process).names ↔
      other ∈ gates.names ∧ (other = name → gates.queue name ≠ [process]) := by
  unfold Gates.leave
  cases held : gates.held? name process with
  | none => exact absurd member (held?_eq_none.mp held)
  | some gate =>
    have counted := sound.references_eq_two held
    unfold Gates.names
    dsimp only
    split
    · rename_i lone
      have alone := counted.mp (eq_of_beq lone)
      simp only [List.mem_map, List.mem_filter, bne_iff_ne]
      constructor
      · rintro ⟨entry, ⟨there, different⟩, rfl⟩
        exact ⟨⟨entry, there, rfl⟩, fun same => absurd same different⟩
      · rintro ⟨⟨entry, there, rfl⟩, others⟩
        exact ⟨entry, ⟨there, fun same => others same alone⟩, rfl⟩
    · rename_i shared
      have more : gates.queue name ≠ [process] := fun alone =>
        shared (beq_iff_eq.mpr (counted.mpr alone))
      exact (and_iff_left fun _ => more).symm

end Sound

end Gates

end Zonecast.Directory
