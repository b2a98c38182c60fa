/-
What calls do to the keys of a zone. The backend that holds them is left open: it lists them in
any order, puts a new key anywhere, and may fail a call with or without having done what it was
asked. It is only taken for granted that a new key gets a number that no key of the zone ever had.

Keys that sign the zone are never switched off, so their numbers can be listed in the order in which
they first signed. A key is superseded once another comes after it in that list. If only superseded
keys are deleted, the last key of the list remains, and so does any key signing key.
-/
import Mathlib.Data.List.Nodup
import Zonecast.Upkeep.Signing

namespace Zonecast.Upkeep

open Zone

/-! ### Keys of a zone -/

/-- The keys that the backend holds for a zone, and the numbers that keys of the zone ever had. -/
structure Keyring where
  keys : List SigningKey
  used : List UInt32

namespace Keyring

/-- A key, which is active or not if it has this number. -/
def switch (number : UInt32) (active : Bool) (key : SigningKey) : SigningKey :=
  if key.id = some number then { key with active } else key

/-- The key of a number is active or not. -/
def switching (ring : Keyring) (number : UInt32) (active : Bool) : Keyring where
  keys := ring.keys.map (switch number active)
  used := ring.used

/-- The key of a number is gone. -/
def without (ring : Keyring) (number : UInt32) : Keyring where
  keys := ring.keys.filter fun key => key.id != some number
  used := ring.used

@[simp] theorem id_switch (number : UInt32) (active : Bool) (key : SigningKey) :
    (switch number active key).id = key.id := by
  unfold switch
  split <;> rfl

@[simp] theorem role_switch (number : UInt32) (active : Bool) (key : SigningKey) :
    (switch number active key).role = key.role := by
  unfold switch
  split <;> rfl

theorem active_switch (number : UInt32) (active : Bool) (key : SigningKey) :
    (switch number active key).active = if key.id = some number then active else key.active := by
  unfold switch
  split <;> rfl

end Keyring

/-- Whether a call is about the keys of a zone. -/
def concernsKeys (zone : String) : Backend.Call → Bool
  | .listKeys other | .createKey other _ | .setKeyActive other _ _ | .deleteKey other _ =>
    other == zone
  | _ => false

/-- What a call does to the keys of a zone, and what it is answered with if it is said to have
succeeded. -/
inductive Takes (zone : String) :
    (request : Backend.Call) → Backend.Value request → Keyring → Keyring → Prop
  | listed (ring : Keyring) (keys : List SigningKey) (same : keys.Perm ring.keys) :
    Takes zone (.listKeys zone) keys ring ring
  | created (before after : List SigningKey) (used : List UInt32) (key : SigningKey)
      (number : UInt32) (ds : List String) (fresh : number ∉ used) :
    Takes zone (.createKey zone key) { key with id := some number, ds } ⟨before ++ after, used⟩
      ⟨before ++ { key with id := some number, ds } :: after, number :: used⟩
  | switched (ring : Keyring) (number : UInt32) (active : Bool)
      (held : ∃ key ∈ ring.keys, key.id = some number) :
    Takes zone (.setKeyActive zone number active) () ring (ring.switching number active)
  | deleted (ring : Keyring) (number : UInt32) :
    Takes zone (.deleteKey zone number) () ring (ring.without number)
  | elsewhere (ring : Keyring) (request : Backend.Call) (value : Backend.Value request)
      (apart : concernsKeys zone request = false) : Takes zone request value ring ring

/-- A call of upkeep and its reply, with the keys of a zone before and after. A backend call may
succeed, fail having done what it was asked, or fail having done nothing. -/
inductive Answered (zone : String) :
    (request : Call) → Zonecast.Upkeep.Reply request → Keyring → Keyring → Prop
  | served {request : Backend.Call} {value : Backend.Value request} {ring after : Keyring}
      (takes : Takes zone request value ring after) :
    Answered zone (.backend request) (.ok value) ring after
  | lost {request : Backend.Call} {value : Backend.Value request} {ring after : Keyring}
      (error : Backend.Error) (takes : Takes zone request value ring after) :
    Answered zone (.backend request) (.error error) ring after
  | refused (ring : Keyring) (request : Backend.Call) (error : Backend.Error) :
    Answered zone (.backend request) (.error error) ring ring
  | read (ring : Keyring) (instant : Instant) : Answered zone .now instant ring ring
  | countedFailure (ring : Keyring) (check : Check) :
    Answered zone (.countFailure check) () ring ring
  | countedRectifyFailure (ring : Keyring) : Answered zone .countRectifyFailure () ring ring

/-! ### Histories -/

/-- The keys of a zone, and the numbers of its zone signing keys in the order in which they were
first active. -/
structure History where
  ring : Keyring
  order : List UInt32

/-- A number comes before another in an order, if that is in it. -/
def Ahead (order : List UInt32) (number other : UInt32) : Prop :=
  ∃ before after, order = before ++ number :: after ∧ (other ∈ order → other ∈ after)

/-- Some number comes after this one. -/
def Superseded (order : List UInt32) (number : UInt32) : Prop :=
  ∃ before next after, order = before ++ number :: next :: after

/-- The order after a number, if that is of a key that signs from now on. -/
def extended (order : List UInt32) (number : UInt32) (signs : Bool) : List UInt32 :=
  if signs then order ++ [number] else order

theorem prefix_extended (order : List UInt32) (number : UInt32) (signs : Bool) :
    order <+: extended order number signs := by
  cases signs with
  | true => exact List.prefix_append order [number]
  | false => exact List.prefix_rfl

theorem mem_extended {order : List UInt32} {number other : UInt32} {signs : Bool} :
    other ∈ extended order number signs ↔ other ∈ order ∨ signs = true ∧ other = number := by
  cases signs with
  | true =>
    show other ∈ order ++ [number] ↔ _
    rw [List.mem_append, List.mem_singleton]
    exact or_congr_right ⟨fun same => ⟨rfl, same⟩, fun signing => signing.2⟩
  | false =>
    exact ⟨Or.inl, fun member => member.resolve_right fun signing =>
      Bool.false_ne_true signing.1⟩

theorem nodup_extended {order : List UInt32} {number : UInt32} {signs : Bool}
    (once : order.Nodup) (fresh : signs = true → number ∉ order) :
    (extended order number signs).Nodup := by
  cases signs with
  | true => exact List.nodup_append_comm.mp (List.nodup_cons.mpr ⟨fresh rfl, once⟩)
  | false => exact once

/-- How the keys of a zone go on: the order goes on at its end, and a number that was used does not
come back, nor with another role. -/
structure Later (past now : History) : Prop where
  order : past.order <+: now.order
  used : ∀ number ∈ past.ring.used, number ∈ now.ring.used
  kept : ∀ key ∈ now.ring.keys, ∀ number ∈ past.ring.used, key.id = some number →
    ∃ old ∈ past.ring.keys, old.id = some number ∧ old.role = key.role

namespace Later

theorem refl (history : History) : Later history history where
  order := List.prefix_rfl
  used := fun _ member => member
  kept := fun key member _ _ same => ⟨key, member, same, rfl⟩

theorem trans {past now next : History} (first : Later past now) (second : Later now next) :
    Later past next where
  order := first.order.trans second.order
  used := fun number member => second.used number (first.used number member)
  kept := by
    intro key member number used same
    obtain ⟨middle, held, middleSame, middleRole⟩ :=
      second.kept key member number (first.used number used) same
    obtain ⟨old, oldHeld, oldSame, oldRole⟩ := first.kept middle held number used middleSame
    exact ⟨old, oldHeld, oldSame, oldRole.trans middleRole⟩

/-- What was superseded stays so. -/
theorem superseded {past now : History} (later : Later past now) {number : UInt32}
    (superseded : Superseded past.order number) : Superseded now.order number := by
  obtain ⟨before, next, after, split⟩ := superseded
  obtain ⟨more, whole⟩ := later.order
  refine ⟨before, next, after ++ more, ?_⟩
  rw [← whole, split, List.append_assoc]
  rfl

end Later

/-- The keys of a zone are in order: numbers are distinct, exactly the zone signing keys that were
activated are active, and the last of those is held, as is a certain active key signing key. -/
structure Sound (anchor : UInt32) (history : History) : Prop where
  numbered : ∀ key ∈ history.ring.keys, ∃ number ∈ history.ring.used, key.id = some number
  distinct : (history.ring.keys.map (·.id)).Nodup
  once : history.order.Nodup
  spent : ∀ number ∈ history.order, number ∈ history.ring.used
  active_iff : ∀ key ∈ history.ring.keys, key.role = .zoneSigning → ∀ number,
    key.id = some number → (key.active = true ↔ number ∈ history.order)
  latest : ∃ key ∈ history.ring.keys, key.role = .zoneSigning ∧
    ∃ number, key.id = some number ∧ history.order.getLast? = some number
  anchored : ∃ key ∈ history.ring.keys, key.id = some anchor ∧ key.role = .keySigning ∧
    key.active = true
  apart : anchor ∉ history.order

namespace Sound

variable {anchor : UInt32} {history : History}

/-- A number is that of one key only. -/
theorem eq_of_id (sound : Sound anchor history) {key other : SigningKey}
    (held : key ∈ history.ring.keys) (otherHeld : other ∈ history.ring.keys)
    (same : key.id = other.id) : key = other :=
  List.inj_on_of_nodup_map sound.distinct held otherHeld same

/-- A superseded number is not the last. -/
theorem ne_of_superseded (sound : Sound anchor history) {number last : UInt32}
    (superseded : Superseded history.order number) (latest : history.order.getLast? = some last) :
    last ≠ number := by
  obtain ⟨before, next, after, split⟩ := superseded
  have once := sound.once
  rw [split] at once latest
  rw [List.getLast?_append_cons, List.getLast?_cons_cons] at latest
  rintro rfl
  have later : last ∈ next :: after := List.mem_of_getLast? latest
  exact (List.nodup_cons.mp (List.nodup_append.mp once).2.1).1 later

end Sound

/-! ### Calls -/

section Calls

variable {zone : String} {anchor : UInt32} {order : List UInt32}

/-- A new key leaves the keys in order. -/
theorem sound_created {before after : List SigningKey} {used : List UInt32} {stored : SigningKey}
    {number : UInt32} (sound : Sound anchor ⟨⟨before ++ after, used⟩, order⟩)
    (fresh : number ∉ used) (id : stored.id = some number) :
    ∃ order', Later ⟨⟨before ++ after, used⟩, order⟩
        ⟨⟨before ++ stored :: after, number :: used⟩, order'⟩ ∧
      Sound anchor ⟨⟨before ++ stored :: after, number :: used⟩, order'⟩ := by
  let signs := stored.role == .zoneSigning && stored.active
  have held : ∀ key, key ∈ before ++ stored :: after ↔ key = stored ∨ key ∈ before ++ after := by
    intro key
    rw [List.perm_middle.mem_iff, List.mem_cons]
  have unused : ∀ key ∈ before ++ after, key.id ≠ some number := by
    intro key member same
    obtain ⟨other, spent, id⟩ := sound.numbered key member
    exact fresh (Option.some.inj (id.symm.trans same) ▸ spent)
  have unordered : number ∉ order := fun member => fresh (sound.spent number member)
  refine ⟨extended order number signs, ⟨prefix_extended _ _ _,
    fun _ member => List.mem_cons_of_mem _ member, ?_⟩, ?_, ?_,
    nodup_extended sound.once fun _ => unordered, ?_, ?_, ?_, ?_, ?_⟩
  · intro key member other spent same
    rcases (held key).mp member with rfl | old
    · exact absurd (Option.some.inj (same.symm.trans id) ▸ spent) fresh
    · exact ⟨key, old, same, rfl⟩
  · intro key member
    rcases (held key).mp member with rfl | old
    · exact ⟨number, List.mem_cons_self, id⟩
    · obtain ⟨other, spent, same⟩ := sound.numbered key old
      exact ⟨other, List.mem_cons_of_mem _ spent, same⟩
  · refine (List.perm_middle.map _).nodup_iff.mpr (List.nodup_cons.mpr ⟨fun member => ?_,
      sound.distinct⟩)
    obtain ⟨key, old, same⟩ := List.mem_map.mp member
    exact unused key old (same.trans id)
  · intro other member
    rcases mem_extended.mp member with old | ⟨_, rfl⟩
    · exact List.mem_cons_of_mem _ (sound.spent other old)
    · exact List.mem_cons_self
  · intro key member role other same
    rw [mem_extended]
    rcases (held key).mp member with rfl | old
    · obtain rfl : other = number := Option.some.inj (same.symm.trans id)
      have signing : signs = key.active := by
        show (key.role == .zoneSigning && key.active) = _
        rw [role]
        rfl
      rw [signing]
      exact ⟨fun active => Or.inr ⟨active, rfl⟩,
        fun member => (member.resolve_left unordered).1⟩
    · rw [sound.active_iff key old role other same]
      refine ⟨Or.inl, fun member => member.resolve_right ?_⟩
      rintro ⟨_, rfl⟩
      exact unused key old same
  · cases signing : signs with
    | true =>
      have parts : stored.role = .zoneSigning ∧ stored.active = true := by
        rwa [Bool.and_eq_true, beq_iff_eq] at signing
      exact ⟨stored, (held stored).mpr (Or.inl rfl), parts.1, number, id,
        List.getLast?_concat⟩
    | false =>
      obtain ⟨key, old, rest⟩ := sound.latest
      exact ⟨key, (held key).mpr (Or.inr old), rest⟩
  · obtain ⟨key, old, rest⟩ := sound.anchored
    exact ⟨key, (held key).mpr (Or.inr old), rest⟩
  · intro member
    obtain ⟨key, old, same, _⟩ := sound.anchored
    rcases mem_extended.mp member with ordered | ⟨_, rfl⟩
    · exact sound.apart ordered
    · exact unused key old same

/-- Activating a key leaves the keys in order. -/
theorem sound_switched {ring : Keyring} {number : UInt32} (sound : Sound anchor ⟨ring, order⟩)
    (held : ∃ key ∈ ring.keys, key.id = some number) :
    ∃ order', Later ⟨ring, order⟩ ⟨ring.switching number true, order'⟩ ∧
      Sound anchor ⟨ring.switching number true, order'⟩ := by
  obtain ⟨switched, there, id⟩ := held
  have spent : number ∈ ring.used := by
    obtain ⟨other, spent, same⟩ := sound.numbered switched there
    exact Option.some.inj (same.symm.trans id) ▸ spent
  let signs := switched.role == .zoneSigning && !order.contains number
  have signing : signs = true ↔ switched.role = .zoneSigning ∧ number ∉ order := by
    show (switched.role == .zoneSigning && !order.contains number) = true ↔ _
    rw [Bool.and_eq_true, beq_iff_eq, Bool.not_eq_true', List.contains_eq_mem,
      decide_eq_false_iff_not]
  refine ⟨extended order number signs, ⟨prefix_extended _ _ _, fun _ member => member, ?_⟩,
    ?_, ?_, nodup_extended sound.once fun signs => (signing.mp signs).2, ?_, ?_, ?_, ?_, ?_⟩
  · intro key member other _ same
    obtain ⟨old, oldHeld, rfl⟩ := List.mem_map.mp member
    exact ⟨old, oldHeld, (Keyring.id_switch _ _ _).symm.trans same, by rw [Keyring.role_switch]⟩
  · intro key member
    obtain ⟨old, oldHeld, rfl⟩ := List.mem_map.mp member
    rw [Keyring.id_switch]
    exact sound.numbered old oldHeld
  · have kept : (ring.switching number true).keys.map (·.id) = ring.keys.map (·.id) := by
      unfold Keyring.switching
      rw [List.map_map]
      exact List.map_congr_left fun key _ => Keyring.id_switch _ _ _
    rw [kept]
    exact sound.distinct
  · intro other member
    rcases mem_extended.mp member with old | ⟨_, rfl⟩
    · exact sound.spent other old
    · exact spent
  · intro key member role other same
    obtain ⟨old, oldHeld, rfl⟩ := List.mem_map.mp member
    rw [Keyring.id_switch] at same
    rw [Keyring.role_switch] at role
    rw [Keyring.active_switch, mem_extended]
    by_cases this : old.id = some number
    · have equal : number = other := Option.some.inj (this.symm.trans same)
      rw [sound.eq_of_id oldHeld there (this.trans id.symm)] at role
      rw [if_pos this, ← equal]
      refine ⟨fun _ => ?_, fun _ => rfl⟩
      by_cases ordered : number ∈ order
      · exact Or.inl ordered
      · exact Or.inr ⟨signing.mpr ⟨role, ordered⟩, rfl⟩
    · rw [if_neg this, sound.active_iff old oldHeld role other same]
      refine ⟨Or.inl, fun member => member.resolve_right ?_⟩
      rintro ⟨_, equal⟩
      exact this (equal ▸ same)
  · cases case : signs with
    | true =>
      exact ⟨Keyring.switch number true switched, List.mem_map_of_mem there,
        (Keyring.role_switch _ _ _).trans (signing.mp case).1, number,
        (Keyring.id_switch _ _ _).trans id, List.getLast?_concat⟩
    | false =>
      obtain ⟨key, keyHeld, role, last, keyId, latest⟩ := sound.latest
      exact ⟨Keyring.switch number true key, List.mem_map_of_mem keyHeld,
        (Keyring.role_switch _ _ _).trans role, last, (Keyring.id_switch _ _ _).trans keyId,
        latest⟩
  · obtain ⟨key, keyHeld, keyId, role, active⟩ := sound.anchored
    refine ⟨Keyring.switch number true key, List.mem_map_of_mem keyHeld,
      (Keyring.id_switch _ _ _).trans keyId, (Keyring.role_switch _ _ _).trans role, ?_⟩
    rw [Keyring.active_switch, active, ite_self]
  · intro member
    rcases mem_extended.mp member with ordered | ⟨signs, rfl⟩
    · exact sound.apart ordered
    · obtain ⟨key, keyHeld, keyId, role, _⟩ := sound.anchored
      obtain rfl := sound.eq_of_id keyHeld there (keyId.trans id.symm)
      rw [(signing.mp signs).1] at role
      cases role

/-- Deleting a superseded key leaves the keys in order. -/
theorem sound_deleted {ring : Keyring} {number : UInt32} (sound : Sound anchor ⟨ring, order⟩)
    (superseded : Superseded order number) :
    Later ⟨ring, order⟩ ⟨ring.without number, order⟩ ∧
      Sound anchor ⟨ring.without number, order⟩ := by
  have held : ∀ key, key ∈ (ring.without number).keys ↔
      key ∈ ring.keys ∧ key.id ≠ some number := by
    intro key
    unfold Keyring.without
    rw [List.mem_filter, bne_iff_ne]
  have spent : number ∈ order := by
    obtain ⟨before, next, after, rfl⟩ := superseded
    exact List.mem_append_right _ List.mem_cons_self
  constructor
  · refine ⟨List.prefix_rfl, fun _ member => member, fun key member other _ same => ?_⟩
    exact ⟨key, ((held key).mp member).1, same, rfl⟩
  refine ⟨fun key member => sound.numbered key ((held key).mp member).1, ?_, sound.once,
    sound.spent, fun key member => sound.active_iff key ((held key).mp member).1, ?_, ?_,
    sound.apart⟩
  · exact sound.distinct.sublist (List.filter_sublist.map _)
  · obtain ⟨key, member, role, last, id, latest⟩ := sound.latest
    refine ⟨key, (held key).mpr ⟨member, ?_⟩, role, last, id, latest⟩
    rw [id]
    exact fun same => sound.ne_of_superseded superseded latest (Option.some.inj same)
  · obtain ⟨key, member, id, rest⟩ := sound.anchored
    refine ⟨key, (held key).mpr ⟨member, ?_⟩, id, rest⟩
    rw [id]
    exact fun same => sound.apart (Option.some.inj same ▸ spent)

end Calls

end Zonecast.Upkeep
