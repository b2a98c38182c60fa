/-
The memory of zone ids. A look at it either finds all ids as they were or forgets all of them, and
storing an id replaces that of its name only.

A process that loads through the memory is taken apart here into the calls that it makes.
-/
import Mathlib.Logic.Function.Basic
import Zonecast.Directory.Memory

namespace Zonecast.Directory

open Process

variable {I : Interface} {ε : Type}

/-! ### Remembered ids -/

theorem mem_of_get? {cache : Cache} {name id : String} (found : cache.get? name = some id) :
    (name, id) ∈ cache.entries := by
  unfold Cache.get? at found
  obtain ⟨entry, member, rfl⟩ := Option.map_eq_some_iff.mp found
  have named := List.find?_some member
  rw [beq_iff_eq] at named
  exact named ▸ List.mem_of_find?_eq_some member

theorem not_mem_of_get? {cache : Cache} {name : String} (missing : cache.get? name = none)
    (id : String) : (name, id) ∉ cache.entries := by
  unfold Cache.get? at missing
  rw [Option.map_eq_none_iff, List.find?_eq_none] at missing
  exact fun member => missing _ member (beq_self_eq_true name)

/-- A look at the memory leaves everything as it was before the time has come; otherwise it forgets
everything and fixes the time anew. -/
theorem renew_cases (cache : Cache) (horizon : Int) (now : Instant) :
    (∃ expiry, cache.expiry = some expiry ∧ expiry.le now = false ∧
      cache.renew horizon now = cache) ∨
    ((∀ expiry, cache.expiry = some expiry → expiry.le now = true) ∧
      cache.renew horizon now = ⟨[], some (now.addMillis horizon)⟩) := by
  unfold Cache.renew
  cases fixed : cache.expiry with
  | none => exact .inr ⟨nofun, rfl⟩
  | some expiry =>
    cases come : expiry.le now with
    | false => exact .inl ⟨expiry, rfl, come, if_neg (by rw [come]; exact Bool.false_ne_true)⟩
    | true =>
      refine .inr ⟨fun other same => ?_, if_pos come⟩
      obtain rfl := Option.some.inj same
      exact come

theorem entries_renew_subset (cache : Cache) (horizon : Int) (now : Instant) :
    (cache.renew horizon now).entries ⊆ cache.entries := by
  rcases renew_cases cache horizon now with ⟨_, _, _, same⟩ | ⟨_, forgotten⟩
  · rw [same]
    exact List.Subset.refl _
  · rw [forgotten]
    exact List.nil_subset _

theorem mem_of_lookup {memory : Memory} {now : Instant} {name id : String}
    (found : (memory.lookup now name).1 = some id) : (name, id) ∈ memory.cache.entries :=
  entries_renew_subset _ _ _ (mem_of_get? found)

theorem mem_entries_store {cache : Cache} {name id : String} {entry : String × String} :
    entry ∈ (cache.store name id).entries ↔
      entry = (name, id) ∨ entry ∈ cache.entries ∧ entry.1 ≠ name := by
  rw [Cache.store, List.mem_cons, List.mem_filter, bne_iff_ne]

/-- Dropping one name does not touch the others. -/
theorem find?_filter_other {α : Type} (entries : List (String × α)) {name other : String}
    (different : name ≠ other) :
    (entries.filter fun entry => entry.1 != name).find? (fun entry => entry.1 == other) =
      entries.find? fun entry => entry.1 == other := by
  rw [List.find?_filter]
  congr 1
  funext entry
  by_cases same : entry.1 = other
  · simp [same, different.symm]
  · simp [same]

/-- What is remembered for a name once an id was stored. -/
theorem get?_store (cache : Cache) (name id other : String) :
    (cache.store name id).get? other = if name = other then some id else cache.get? other := by
  unfold Cache.store Cache.get?
  dsimp only
  by_cases same : name = other
  · rw [List.find?_cons, beq_iff_eq.mpr same, if_pos same]
    rfl
  · rw [List.find?_cons, beq_eq_false_iff_ne.mpr same, if_neg same]
    dsimp only
    rw [find?_filter_other _ same]

/-! ### Loading through the memory -/

/-- What is left of a turn once the zone is loaded. -/
def remember (name : String) : Except ε String → Process (Cached I) (Except ε String)
  | .ok id => .call (I := Cached I) (.store name id) fun _ => .done (.ok id)
  | .error error => .done (.error error)

/-- A process gives up its turn and ends with its result. -/
def depart (name : String) (result : Except ε String) :
    Process (Cached I) (Except ε String) :=
  .call (I := Cached I) (.leave name) fun _ => .done result

theorem loadInTurn_eq (name : String) (load : Process I (Except ε String)) :
    loadInTurn name load = .call (I := Cached I) (.lookup name) fun reply : Option String =>
      match reply with
      | some id => .done (.ok id)
      | none => (load.embed (loading I)).bind (remember name) := by
  refine congrArg (Process.call (I := Cached I) (.lookup name)) (funext fun reply => ?_)
  change Option String at reply
  cases reply with
  | some id => rfl
  | none =>
    refine congrArg (Process.bind (load.embed (loading I))) (funext fun result => ?_)
    cases result <;> rfl

theorem getOrLoad_eq (name : String) (load : Process I (Except ε String)) :
    getOrLoad name load = .call (I := Cached I) (.lookup name) fun reply : Option String =>
      match reply with
      | some id => .done (.ok id)
      | none => .call (I := Cached I) (.enter name) fun _ =>
        (loadInTurn name load).bind (depart name) := by
  refine congrArg (Process.call (I := Cached I) (.lookup name)) (funext fun reply => ?_)
  change Option String at reply
  cases reply <;> rfl

/-- The memory once a process has come with a call, but before it is answered. -/
def arrive (number : Nat) : CachedCall I.Call → Memory → Memory
  | .enter name, memory => memory.enter name number
  | _, memory => memory

/-! ### Numbered processes -/

/-- Only the task of one number is replaced. -/
theorem of_update {α : Type} {tasks : Nat → Option α} {number other : Nat} {entry : Option α}
    {task : α} (present : Function.update tasks number entry other = some task) :
    (other = number ∧ entry = some task) ∨ (other ≠ number ∧ tasks other = some task) := by
  by_cases same : other = number
  · subst same
    rw [Function.update_self] at present
    exact .inl ⟨rfl, present⟩
  · rw [Function.update_of_ne same] at present
    exact .inr ⟨same, present⟩

end Zonecast.Directory
