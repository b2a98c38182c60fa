/-
What a list of staged operations comes to, key by key. A key is a name in canonical form and a
supported type. Staging an operation touches the change of no key but its own, so the change that
a key ends with depends on the operations of that key alone: their assertions, and whether any of
them removes it. Walking through a list therefore comes apart into one small walk for each key,
and that walk has a closed form, `settled`.

Two more facts make this a description of the whole list: no key has two changes, and every
change belongs to the name and the type of some operation.
-/
import Zonecast.Proofs.Distinct
import Zonecast.Zone.Change

namespace Zonecast.Zone

open Zonecast.Text

/-! ### What the operations of a key come to -/

/-- The time to live and the content that an operation asserts for a key. -/
def Operation.assertion? (name : String) (type : RecordType) : Operation → Option (UInt32 × String)
  | .assert other otherType ttl content =>
    if Name.canonical other = name ∧ otherType = type then some (ttl, content) else none
  | _ => none

/-- Whether an operation removes a key, where anything is asserted at the names in `asserted`. -/
def Operation.removes (asserted : List String) (name : String) (type : RecordType) :
    Operation → Bool
  | .assert _ _ _ _ => false
  | .remove other otherType => Name.canonical other = name ∧ otherType = type
  | .removeAll other => Name.canonical other = name ∧ name ∉ asserted

/-- The name that an operation speaks of, in canonical form. -/
def Operation.subject : Operation → String
  | .assert name _ _ _ | .remove name _ | .removeAll name => Name.canonical name

theorem mem_assertedNames (operations : List Operation) (name : String) :
    name ∈ assertedNames operations ↔
      ∃ other type ttl value, .assert other type ttl value ∈ operations ∧
        Name.canonical other = name := by
  unfold assertedNames
  rw [List.mem_filterMap]
  constructor
  · rintro ⟨operation, member, asserts⟩
    cases operation with
    | assert other type ttl value =>
      exact ⟨other, type, ttl, value, member, Option.some.inj asserts⟩
    | remove | removeAll => cases asserts
  · rintro ⟨other, type, ttl, value, member, rfl⟩
    exact ⟨_, member, rfl⟩

/-- Operations remove a type at a name, whatever is asserted. -/
def removesTyped (operations : List Operation) (name : String) (type : RecordType) : Prop :=
  ∃ other, Operation.remove other type ∈ operations ∧ Name.canonical other = name

/-- Everything asserted for a key, in order. -/
def assertions (name : String) (type : RecordType) (operations : List Operation) :
    List (UInt32 × String) :=
  operations.filterMap (·.assertion? name type)

/-- The change that deletes a key. -/
def deletion (name : String) (type : RecordType) : Change := ⟨name, type, 0, .delete⟩

/-- The change of a key, from what is asserted for it and whether it is removed. -/
def settled (name : String) (type : RecordType) (removed : Bool) :
    List (UInt32 × String) → Option Change
  | [] => if removed then some (deletion name type) else none
  | first :: rest =>
    some ⟨name, type, first.1, .replace (distinct ((first :: rest).map (·.2)))⟩

/-- The change of a key after one more operation. -/
def entryAfter (asserted : List String) (name : String) (type : RecordType)
    (entry : Option Change) (operation : Operation) : Option Change :=
  match operation.assertion? name type with
  | some (ttl, content) =>
    some ((entry.map fun change => change.addContent ttl content).getD
      ⟨name, type, ttl, .replace [content]⟩)
  | none =>
    if operation.removes asserted name type then entry.or (some (deletion name type)) else entry

/-! ### Changes and their keys -/

theorem Change.concerns_iff (change : Change) (name : String) (type : RecordType) :
    change.concerns name type = true ↔ change.name = name ∧ change.type = type := by
  simp [Change.concerns]

@[simp] theorem Change.addContent_name (change : Change) (ttl : UInt32) (content : String) :
    (change.addContent ttl content).name = change.name := by
  unfold Change.addContent
  split
  · split <;> rfl
  · rfl

@[simp] theorem Change.addContent_type (change : Change) (ttl : UInt32) (content : String) :
    (change.addContent ttl content).type = change.type := by
  unfold Change.addContent
  split
  · split <;> rfl
  · rfl

theorem key_of_find? (changes : List Change) (name : String) (type : RecordType)
    (change : Change) (found : changes.find? (·.concerns name type) = some change) :
    change.name = name ∧ change.type = type := by
  rw [← Change.concerns_iff]
  exact List.find?_some (p := fun other : Change => other.concerns name type) found

/-- Whether a change is found for a key says whether there is one. -/
theorem find?_eq_none_of_not_any (changes : List Change) (name : String) (type : RecordType)
    (absent : ¬ changes.any (·.concerns name type) = true) :
    changes.find? (·.concerns name type) = none := by
  rw [List.find?_eq_none]
  intro change member concerned
  exact absent (List.any_eq_true.mpr ⟨change, member, concerned⟩)

/-! ### One operation, seen from one key -/

/-- An assertion changes the entry of its own key and no other. -/
theorem find?_stageAssert (changes : List Change) (name other : String)
    (type otherType : RecordType) (ttl : UInt32) (content : String) :
    (stageAssert other otherType ttl content changes).find? (·.concerns name type) =
      if other = name ∧ otherType = type then
        some (((changes.find? (·.concerns name type)).map fun change =>
          change.addContent ttl content).getD ⟨name, type, ttl, .replace [content]⟩)
      else changes.find? (·.concerns name type) := by
  unfold stageAssert
  split
  · rename_i present
    have kept : ((·.concerns name type) ∘ fun change : Change =>
        if change.concerns other otherType then change.addContent ttl content else change) =
        (·.concerns name type) := by
      funext change
      simp only [Function.comp_apply]
      split <;> simp [Change.concerns]
    rw [List.find?_map, kept]
    split
    · rename_i same
      obtain ⟨rfl, rfl⟩ := same
      obtain ⟨change, found⟩ := Option.isSome_iff_exists.mp
        (List.find?_isSome.mpr (List.any_eq_true.mp present))
      rw [found, Option.map_some, Option.map_some, Option.getD_some,
        if_pos (List.find?_some found)]
    · rename_i apart
      cases found : changes.find? (·.concerns name type) with
      | none => rfl
      | some change =>
        have own := key_of_find? changes name type change found
        rw [Option.map_some, if_neg]
        rw [Change.concerns_iff, own.1, own.2]
        exact fun equal => apart ⟨equal.1.symm, equal.2.symm⟩
  · rename_i absent
    rw [List.find?_append, List.find?_singleton]
    by_cases same : other = name ∧ otherType = type
    · obtain ⟨rfl, rfl⟩ := same
      rw [find?_eq_none_of_not_any _ _ _ absent, if_pos (by simp [Change.concerns]),
        if_pos ⟨rfl, rfl⟩]
      rfl
    · rw [if_neg (by simpa [Change.concerns] using same), Option.or_none, if_neg same]

/-- A removal gives its own key a deletion where it has no change, and leaves the others. -/
theorem find?_stageRemove (changes : List Change) (name other : String)
    (type otherType : RecordType) :
    (stageRemove other changes otherType).find? (·.concerns name type) =
      if other = name ∧ otherType = type then
        (changes.find? (·.concerns name type)).or (some (deletion name type))
      else changes.find? (·.concerns name type) := by
  unfold stageRemove
  split
  · rename_i present
    split
    · rename_i same
      obtain ⟨rfl, rfl⟩ := same
      obtain ⟨change, found⟩ := Option.isSome_iff_exists.mp
        (List.find?_isSome.mpr (List.any_eq_true.mp present))
      rw [found]
      rfl
    · rfl
  · rw [List.find?_append, List.find?_singleton]
    by_cases same : other = name ∧ otherType = type
    · obtain ⟨rfl, rfl⟩ := same
      rw [if_pos (by simp [Change.concerns]), if_pos ⟨rfl, rfl⟩]
      rfl
    · rw [if_neg (by simpa [Change.concerns] using same), Option.or_none, if_neg same]

/-- Removing several types at a name is removing each of them. -/
theorem find?_stageRemove_all (types : List RecordType) (changes : List Change)
    (name other : String) (type : RecordType) :
    (types.foldl (stageRemove other) changes).find? (·.concerns name type) =
      if other = name ∧ type ∈ types then
        (changes.find? (·.concerns name type)).or (some (deletion name type))
      else changes.find? (·.concerns name type) := by
  induction types generalizing changes with
  | nil => simp
  | cons first rest inductionHypothesis =>
    rw [List.foldl_cons, inductionHypothesis, find?_stageRemove]
    by_cases here : other = name
    · by_cases head : first = type
      · by_cases tail : type ∈ rest <;> simp [here, head, tail]
      · have notHead : ¬ type = first := fun equal => head equal.symm
        simp [here, head, notHead]
    · simp [here]

/-- One operation changes the entry of a supported key as its own walk does. -/
theorem find?_stage (asserted : List String) (changes : List Change) (operation : Operation)
    (name : String) (type : RecordType) (supported : type.isSupported = true) :
    (stage asserted changes operation).find? (·.concerns name type) =
      entryAfter asserted name type (changes.find? (·.concerns name type)) operation := by
  cases operation with
  | assert other otherType ttl content =>
    simp only [stage, entryAfter, Operation.assertion?, Operation.removes]
    by_cases carried : otherType.isSupported = true
    · rw [if_pos carried, find?_stageAssert]
      split <;> rfl
    · have apart : ¬ (Name.canonical other = name ∧ otherType = type) :=
        fun equal => carried (equal.2 ▸ supported)
      rw [if_neg carried, if_neg apart]
      rfl
  | remove other otherType =>
    simp only [stage, entryAfter, Operation.assertion?, Operation.removes, decide_eq_true_eq]
    by_cases carried : otherType.isSupported = true
    · rw [if_pos carried, find?_stageRemove]
    · have apart : ¬ (Name.canonical other = name ∧ otherType = type) :=
        fun equal => carried (equal.2 ▸ supported)
      rw [if_neg carried, if_neg apart]
  | removeAll other =>
    have included : type ∈ RecordType.supported := (RecordType.mem_supported_iff type).mpr supported
    simp only [stage, entryAfter, Operation.assertion?, Operation.removes, decide_eq_true_eq]
    by_cases silenced : Name.canonical other ∈ asserted
    · have kept : ¬ (Name.canonical other = name ∧ name ∉ asserted) :=
        fun removal => removal.2 (removal.1 ▸ silenced)
      rw [if_pos silenced, if_neg kept]
    · rw [if_neg silenced, find?_stageRemove_all]
      by_cases here : Name.canonical other = name
      · subst here
        rw [if_pos ⟨rfl, included⟩, if_pos ⟨rfl, silenced⟩]
      · rw [if_neg fun both => here both.1, if_neg fun both => here both.1]

/-! ### The walk of one key -/

theorem settled_concat (name : String) (type : RecordType) (removed : Bool)
    (asserted : List (UInt32 × String)) (ttl : UInt32) (content : String) :
    settled name type removed (asserted ++ [(ttl, content)]) =
      some (((settled name type removed asserted).map fun change =>
        change.addContent ttl content).getD ⟨name, type, ttl, .replace [content]⟩) := by
  cases asserted with
  | nil => cases removed <;> rfl
  | cons first rest =>
    have values : distinct ((first :: rest ++ [(ttl, content)]).map (·.2)) =
        if content ∈ distinct ((first :: rest).map (·.2)) then
          distinct ((first :: rest).map (·.2))
        else distinct ((first :: rest).map (·.2)) ++ [content] := by
      rw [List.map_append, List.map_singleton, distinct_concat]
    rw [settled, Option.map_some, Option.getD_some, List.cons_append, settled,
      ← List.cons_append, values, Change.addContent]
    dsimp only
    split <;> rfl

/-- The walk of a key ends with its closed form. -/
theorem foldl_entryAfter (asserted : List String) (name : String) (type : RecordType)
    (operations : List Operation) :
    operations.foldl (entryAfter asserted name type) none =
      settled name type (operations.any (·.removes asserted name type))
        (assertions name type operations) := by
  induction operations using List.reverseRecOn with
  | nil => rfl
  | append_singleton operations last inductionHypothesis =>
    rw [List.foldl_append, List.foldl_cons, List.foldl_nil, inductionHypothesis, List.any_append,
      assertions, assertions, List.filterMap_append, List.any_cons, List.any_nil, Bool.or_false]
    cases asserts : last.assertion? name type with
    | some assertion =>
      obtain ⟨ttl, content⟩ := assertion
      have keeps : last.removes asserted name type = false := by
        cases last <;> simp_all [Operation.assertion?, Operation.removes]
      rw [List.filterMap_cons_some asserts, List.filterMap_nil, settled_concat, keeps,
        Bool.or_false, entryAfter, asserts]
    | none =>
      rw [List.filterMap_cons_none asserts, List.filterMap_nil, List.append_nil, entryAfter,
        asserts]
      dsimp only
      cases removal : last.removes asserted name type with
      | false => rw [Bool.or_false, if_neg Bool.false_ne_true]
      | true =>
        rw [Bool.or_true, if_pos rfl]
        cases operations.filterMap (·.assertion? name type) with
        | nil => cases operations.any (·.removes asserted name type) <;> rfl
        | cons first rest => rfl

theorem find?_foldl_stage (asserted : List String) (operations : List Operation)
    (changes : List Change) (name : String) (type : RecordType)
    (supported : type.isSupported = true) :
    (operations.foldl (stage asserted) changes).find? (·.concerns name type) =
      operations.foldl (entryAfter asserted name type)
        (changes.find? (·.concerns name type)) := by
  induction operations generalizing changes with
  | nil => rfl
  | cons first rest inductionHypothesis =>
    rw [List.foldl_cons, List.foldl_cons, inductionHypothesis, find?_stage _ _ _ _ _ supported]

/-- The change that a supported key ends with. -/
theorem find?_changes (operations : List Operation) (name : String) (type : RecordType)
    (supported : type.isSupported = true) :
    (changes operations).find? (·.concerns name type) =
      settled name type (operations.any (·.removes (assertedNames operations) name type))
        (assertions name type operations) := by
  rw [changes, find?_foldl_stage _ _ _ _ _ supported, List.find?_nil, foldl_entryAfter]

/-! ### Keys -/

/-- The name and the type of a change. -/
def Change.key (change : Change) : String × RecordType := (change.name, change.type)

theorem Change.concerns_iff_key (change : Change) (name : String) (type : RecordType) :
    change.concerns name type = true ↔ change.key = (name, type) := by
  rw [Change.concerns_iff, Change.key, Prod.mk.injEq]

theorem any_concerns_iff (changes : List Change) (name : String) (type : RecordType) :
    changes.any (·.concerns name type) = true ↔ (name, type) ∈ changes.map Change.key := by
  simp only [List.any_eq_true, Change.concerns_iff_key, List.mem_map]

/-- An assertion keeps all keys and may add its own. -/
theorem keys_stageAssert (changes : List Change) (keys : List (String × RecordType))
    (known : changes.map Change.key = distinct keys) (name : String) (type : RecordType)
    (ttl : UInt32) (content : String) :
    (stageAssert name type ttl content changes).map Change.key =
      distinct (keys ++ [(name, type)]) := by
  have present := any_concerns_iff changes name type
  rw [distinct_concat, ← known]
  unfold stageAssert
  by_cases listed : (name, type) ∈ changes.map Change.key
  · rw [if_pos (present.mpr listed), if_pos listed, List.map_map]
    refine List.map_congr_left fun change _ => ?_
    simp only [Function.comp_apply, Change.key]
    split <;> simp
  · rw [if_neg (mt present.mp listed), if_neg listed, List.map_append]
    rfl

/-- A removal keeps all keys and may add its own. -/
theorem keys_stageRemove (changes : List Change) (keys : List (String × RecordType))
    (known : changes.map Change.key = distinct keys) (name : String) (type : RecordType) :
    (stageRemove name changes type).map Change.key = distinct (keys ++ [(name, type)]) := by
  have present := any_concerns_iff changes name type
  rw [distinct_concat, ← known]
  unfold stageRemove
  by_cases listed : (name, type) ∈ changes.map Change.key
  · rw [if_pos (present.mpr listed), if_pos listed]
  · rw [if_neg (mt present.mp listed), if_neg listed, List.map_append]
    rfl

/-- The keys that an operation gives a change, unless they have one already. -/
def Operation.keys (asserted : List String) : Operation → List (String × RecordType)
  | .assert name type _ _ | .remove name type =>
    if type.isSupported then [(Name.canonical name, type)] else []
  | .removeAll name =>
    if Name.canonical name ∈ asserted then []
    else RecordType.supported.map fun type => (Name.canonical name, type)

theorem keys_stageRemove_all (types : List RecordType) (name : String) (changes : List Change)
    (keys : List (String × RecordType)) (known : changes.map Change.key = distinct keys) :
    (types.foldl (stageRemove name) changes).map Change.key =
      distinct (keys ++ types.map fun type => (name, type)) := by
  induction types generalizing changes keys with
  | nil => rw [List.foldl_nil, List.map_nil, List.append_nil, known]
  | cons first rest inductionHypothesis =>
    have next := keys_stageRemove changes keys known name first
    rw [List.foldl_cons, inductionHypothesis _ _ next, List.map_cons, List.append_assoc,
      List.singleton_append]

/-- An operation adds its keys to those that have a change. -/
theorem keys_stage (asserted : List String) (changes : List Change) (operation : Operation)
    (keys : List (String × RecordType)) (known : changes.map Change.key = distinct keys) :
    (stage asserted changes operation).map Change.key =
      distinct (keys ++ operation.keys asserted) := by
  cases operation with
  | assert name type ttl content =>
    rw [stage, Operation.keys]
    split
    · exact keys_stageAssert changes keys known _ type ttl content
    · rw [known, List.append_nil]
  | remove name type =>
    rw [stage, Operation.keys]
    split
    · exact keys_stageRemove changes keys known _ type
    · rw [known, List.append_nil]
  | removeAll name =>
    rw [stage, Operation.keys]
    split
    · rw [known, List.append_nil]
    · exact keys_stageRemove_all _ _ _ _ known

/-- Changes stand in the order in which their keys first come up. -/
theorem keys_changes (operations : List Operation) :
    (changes operations).map Change.key =
      distinct (operations.flatMap (·.keys (assertedNames operations))) := by
  have walked (asserted : List String) : (operations.foldl (stage asserted) []).map Change.key =
      distinct (operations.flatMap (·.keys asserted)) := by
    induction operations using List.reverseRecOn with
    | nil => rfl
    | append_singleton operations last inductionHypothesis =>
      rw [List.foldl_append, List.foldl_cons, List.foldl_nil, List.flatMap_append,
        List.flatMap_singleton, keys_stage _ _ _ _ inductionHypothesis]
  exact walked (assertedNames operations)

/-- No key has two changes. -/
theorem nodup_keys_changes (operations : List Operation) :
    ((changes operations).map Change.key).Nodup :=
  keys_changes operations ▸ nodup_distinct _

/-- The keys of an operation are supported ones of the name that it speaks of. -/
theorem Operation.mem_keys {operation : Operation} {asserted : List String}
    {key : String × RecordType} (member : key ∈ operation.keys asserted) :
    key.1 = operation.subject ∧ key.2.isSupported = true := by
  cases operation with
  | assert name type ttl content =>
    obtain ⟨carried, single⟩ := List.mem_ite_nil_right.mp member
    exact List.mem_singleton.mp single ▸ ⟨rfl, carried⟩
  | remove name type =>
    obtain ⟨carried, single⟩ := List.mem_ite_nil_right.mp member
    exact List.mem_singleton.mp single ▸ ⟨rfl, carried⟩
  | removeAll name =>
    obtain ⟨_, listed⟩ := List.mem_ite_nil_left.mp member
    obtain ⟨type, among, rfl⟩ := List.mem_map.mp listed
    exact ⟨rfl, (RecordType.mem_supported_iff type).mp among⟩

/-- Every change is of a supported type, at the name of some operation. -/
theorem origin_of_mem_changes (operations : List Operation) (change : Change)
    (member : change ∈ changes operations) :
    change.type.isSupported = true ∧ ∃ operation ∈ operations, operation.subject = change.name := by
  have key : change.key ∈ (changes operations).map Change.key := List.mem_map_of_mem member
  rw [keys_changes, mem_distinct, List.mem_flatMap] at key
  obtain ⟨operation, listed, own⟩ := key
  obtain ⟨name, supported⟩ := Operation.mem_keys own
  exact ⟨supported, operation, listed, name.symm⟩

/-- The changes of a key are the one that is found for it. -/
theorem filter_concerns (changes : List Change) (name : String) (type : RecordType)
    (distinctKeys : (changes.map Change.key).Nodup) :
    changes.filter (·.concerns name type) = (changes.find? (·.concerns name type)).toList := by
  induction changes with
  | nil => rfl
  | cons first rest inductionHypothesis =>
    rw [List.map_cons, List.nodup_cons] at distinctKeys
    by_cases concerned : first.concerns name type = true
    · have alone : rest.filter (·.concerns name type) = [] := by
        rw [List.filter_eq_nil_iff]
        intro other member again
        rw [Change.concerns_iff_key] at concerned again
        exact distinctKeys.1 (concerned ▸ again ▸ List.mem_map_of_mem member)
      rw [List.filter_cons, List.find?_cons, if_pos concerned, alone, concerned]
      rfl
    · rw [List.filter_cons, List.find?_cons, if_neg concerned, inductionHypothesis distinctKeys.2]
      rw [Bool.not_eq_true] at concerned
      rw [concerned]

end Zonecast.Zone
