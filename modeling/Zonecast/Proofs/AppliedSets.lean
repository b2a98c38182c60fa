/-
What a patch does to a zone's record sets. A record set speaks of one name and one type, and
applying it takes nothing away elsewhere. So what a zone holds at a name and a type after a patch
is settled by the last set of the patch that speaks of them, and it is what the zone held before
if there is none.
-/
import Mathlib.Data.List.Induction
import Zonecast.Backend.Store
import Zonecast.Proofs.Changes

namespace Zonecast

open Zone

namespace Backend

/-- The sets at a name and a type. -/
def setsAt (sets : List RecordSet) (name type : String) : List RecordSet :=
  sets.filter fun set => set.name == name && set.type == type

/-- What a record set leaves behind where it is applied. -/
def left (set : RecordSet) : List RecordSet :=
  if set.changeType = some .delete then [] else [{ set with changeType := none }]

theorem applyRecordSet_eq (stored : List RecordSet) (set : RecordSet) :
    applyRecordSet stored set =
      (stored.filter fun other => !(other.name == set.name && other.type == set.type)) ++
        left set := by
  unfold applyRecordSet left
  split
  · rw [List.append_nil]
  · rfl

theorem mem_left (set kept : RecordSet) (member : kept ∈ left set) :
    kept.name = set.name ∧ kept.type = set.type := by
  unfold left at member
  split at member
  · cases member
  · rw [List.mem_singleton] at member
    subst member
    exact ⟨rfl, rfl⟩

/-- Sets elsewhere than at a set's name and type stay, in their order, when it is applied. -/
theorem filter_applyRecordSet (keep : String → String → Bool) (stored : List RecordSet)
    (set : RecordSet) (elsewhere : keep set.name set.type = false) :
    (applyRecordSet stored set).filter (fun other => keep other.name other.type) =
      stored.filter fun other => keep other.name other.type := by
  have nothing : (left set).filter (fun other => keep other.name other.type) = [] := by
    rw [List.filter_eq_nil_iff]
    intro kept member
    rw [(mem_left set kept member).1, (mem_left set kept member).2, elsewhere]
    exact Bool.false_ne_true
  rw [applyRecordSet_eq, List.filter_append, nothing, List.append_nil, List.filter_filter]
  refine List.filter_congr fun other _ => ?_
  by_cases here : other.name = set.name ∧ other.type = set.type
  · rw [here.1, here.2, elsewhere, Bool.false_and]
  · have apart : (other.name == set.name && other.type == set.type) = false := by
      rw [← Bool.not_eq_true]
      simpa using here
    rw [apart, Bool.not_false, Bool.and_true]

theorem setsAt_applyRecordSet_self (stored : List RecordSet) (set : RecordSet) :
    setsAt (applyRecordSet stored set) set.name set.type = left set := by
  have cleared : (stored.filter fun other =>
      !(other.name == set.name && other.type == set.type)).filter
        (fun other => other.name == set.name && other.type == set.type) = [] := by
    rw [List.filter_eq_nil_iff]
    intro other member present
    rw [List.mem_filter, present] at member
    exact Bool.false_ne_true member.2
  have stays : (left set).filter
      (fun other => other.name == set.name && other.type == set.type) = left set := by
    rw [List.filter_eq_self]
    intro kept member
    rw [(mem_left set kept member).1, (mem_left set kept member).2, BEq.rfl, BEq.rfl]
    rfl
  rw [setsAt, applyRecordSet_eq, List.filter_append, cleared, stays, List.nil_append]

/-- Sets at keys that a patch does not speak of stay, in their order. -/
theorem filter_applyRecordSets (keep : String → String → Bool) (stored sets : List RecordSet)
    (elsewhere : ∀ set ∈ sets, keep set.name set.type = false) :
    (applyRecordSets stored sets).filter (fun other => keep other.name other.type) =
      stored.filter fun other => keep other.name other.type := by
  unfold applyRecordSets
  induction sets generalizing stored with
  | nil => rfl
  | cons first rest inductionHypothesis =>
    rw [List.foldl_cons, inductionHypothesis _ fun set member =>
        elsewhere set (List.mem_cons_of_mem _ member)]
    exact filter_applyRecordSet keep stored first (elsewhere first List.mem_cons_self)

/-- The last set of a patch that speaks of a name and a type settles what is held there. -/
theorem setsAt_applyRecordSets (stored sets : List RecordSet) (name type : String) :
    setsAt (applyRecordSets stored sets) name type =
      (((setsAt sets name type).getLast?).map left).getD (setsAt stored name type) := by
  induction sets using List.reverseRecOn with
  | nil => rfl
  | append_singleton sets last inductionHypothesis =>
    rw [applyRecordSets, List.foldl_append, List.foldl_cons, List.foldl_nil]
    change setsAt (applyRecordSet (applyRecordSets stored sets) last) name type = _
    by_cases here : last.name = name ∧ last.type = type
    · obtain ⟨rfl, rfl⟩ := here
      have listed : setsAt (sets ++ [last]) last.name last.type =
          setsAt sets last.name last.type ++ [last] := by
        rw [setsAt, List.filter_append, List.filter_cons_of_pos (by simp), List.filter_nil, setsAt]
      rw [setsAt_applyRecordSet_self, listed, List.getLast?_concat, Option.map_some,
        Option.getD_some]
    · have apart : (last.name == name && last.type == type) = false := by
        rw [← Bool.not_eq_true]
        simpa using here
      have listed : setsAt (sets ++ [last]) name type = setsAt sets name type := by
        rw [setsAt, List.filter_append, List.filter_cons_of_neg (by simp [apart]), List.filter_nil,
          List.append_nil, setsAt]
      rw [listed, ← inductionHypothesis]
      exact filter_applyRecordSet (fun other otherType => other == name && otherType == type) _ last
        apart

end Backend

namespace Zone

/-! ### Changes as record sets -/

theorem toRecordSet_name (change : Change) : change.toRecordSet.name = change.name := by
  unfold Change.toRecordSet
  split <;> rfl

theorem toRecordSet_type (change : Change) : change.toRecordSet.type = change.type.text := by
  unfold Change.toRecordSet
  split <;> rfl

/-- What a change leaves behind: the set of its values, or nothing. -/
def Change.held (change : Change) : List RecordSet :=
  match change.mutation with
  | .replace values =>
    [⟨change.name, change.type.text, change.ttl, none, values.map (⟨·, false⟩), []⟩]
  | .delete => []

theorem left_toRecordSet (change : Change) : Backend.left change.toRecordSet = change.held := by
  unfold Change.toRecordSet Change.held
  cases change.mutation <;> rfl

/-- The name of a supported type is read back as that type. -/
theorem ofText_text (type : RecordType) (supported : type.isSupported = true) :
    RecordType.ofText type.text = type := by
  have all : ∀ type ∈ RecordType.supported, RecordType.ofText type.text = type := by decide
  exact all type ((RecordType.mem_supported_iff type).mpr supported)

/-- The sets that changes send for a supported key are those of the changes of the key. -/
theorem setsAt_map_toRecordSet (changes : List Change)
    (carried : ∀ change ∈ changes, change.type.isSupported = true) (name : String)
    (type : RecordType) (supported : type.isSupported = true) :
    Backend.setsAt (changes.map Change.toRecordSet) name type.text =
      (changes.filter (·.concerns name type)).map Change.toRecordSet := by
  rw [Backend.setsAt, List.filter_map]
  refine congrArg _ (List.filter_congr fun change member => ?_)
  rw [Function.comp_apply, toRecordSet_name, toRecordSet_type, Change.concerns, Bool.eq_iff_iff,
    Bool.and_eq_true, Bool.and_eq_true, beq_iff_eq, beq_iff_eq, beq_iff_eq]
  refine and_congr_right fun _ => ⟨fun same => ?_, fun same => same ▸ rfl⟩
  rw [← ofText_text change.type (carried change member), same, ofText_text type supported]

end Zone

end Zonecast
