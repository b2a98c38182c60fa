/-
Why a signed zone stays signed while its keys are rolled over, however many passes do so at once.
A pass decides by a list of keys that may be stale when it acts. What it can rely on all the same
is that the key it is to delete signed before the one it is to activate ever did. Once the
activation has succeeded, the old key is therefore superseded, whatever other passes have done in
the meantime, and it stays superseded. So every pass deletes superseded keys only, and never the
key that was activated last.
-/
import Zonecast.Proofs.Keyrings

namespace Zonecast.Upkeep

open Process Zone

/-! ### Passes that do no harm -/

/-- What may be asked of the backend: to delete superseded keys, and to switch none off. -/
def Permitted (order : List UInt32) : Call → Prop
  | .backend (.setKeyActive _ _ active) => active = true
  | .backend (.deleteKey _ number) => Superseded order number
  | _ => True

/-- A permitted call leaves the keys in order, whether it is said to have succeeded or not. -/
theorem sound_of_answered {zone : String} {anchor : UInt32} {order : List UInt32} {request : Call}
    {reply : Zonecast.Upkeep.Reply request} {ring after : Keyring}
    (sound : Sound anchor ⟨ring, order⟩) (permitted : Permitted order request)
    (answered : Answered zone request reply ring after) :
    ∃ order', Later ⟨ring, order⟩ ⟨after, order'⟩ ∧ Sound anchor ⟨after, order'⟩ := by
  have taken : ∀ (request : Backend.Call) (value : Backend.Value request),
      Permitted order (.backend request) → Takes zone request value ring after →
      ∃ order', Later ⟨ring, order⟩ ⟨after, order'⟩ ∧ Sound anchor ⟨after, order'⟩ := by
    intro request value permitted takes
    cases takes with
    | listed | elsewhere => exact ⟨order, .refl _, sound⟩
    | created before after used key number ds fresh => exact sound_created sound fresh rfl
    | switched _ number active held =>
      obtain rfl : active = true := permitted
      exact sound_switched sound held
    | deleted _ number => exact ⟨order, sound_deleted sound permitted⟩
  cases answered with
  | served takes => exact taken _ _ permitted takes
  | lost error takes => exact taken _ _ permitted takes
  | refused | read | countedFailure | countedRectifyFailure => exact ⟨order, .refl _, sound⟩

/-- The process asks for what is permitted only, whatever others have made of the keys by the time
it asks, as long as they leave them in order. -/
def Harmless (zone : String) (anchor : UInt32) {α : Type} : Process Upkeep α → History → Prop
  | .done _, _ => True
  | .call request next, past => ∀ now, Later past now → Sound anchor now →
    Permitted now.order request ∧ ∀ reply after, Answered zone request reply now.ring after.ring →
      Later now after → Sound anchor after → Harmless zone anchor (next reply) after

section Rules

variable {zone : String} {anchor : UInt32} {α : Type} {past now : History}

/-- A process that does no harm does none later on. -/
theorem Harmless.later {process : Process Upkeep α} (harmless : Harmless zone anchor process past)
    (later : Later past now) : Harmless zone anchor process now := by
  cases process with
  | done value => trivial
  | call request next => exact fun next more => harmless next (later.trans more)

theorem run_ask_bind (request : Backend.Call) (next : Backend.Value request → Step α) :
    (ask request >>= next).run =
      .call (I := Upkeep) (.backend request) fun
        reply : Except Backend.Error (Backend.Value request) =>
        match reply with
        | .ok value => (next value).run
        | .error error => .done (.error (.backend error)) := by
  refine congrArg (Process.call (I := Upkeep) (.backend request)) (funext fun reply => ?_)
  cases reply <;> rfl

/-- A backend call that fails ends the process; one that succeeds has done what it was asked. -/
theorem harmless_ask_bind {request : Backend.Call} {next : Backend.Value request → Step α}
    (permitted : ∀ now, Later past now → Sound anchor now → Permitted now.order (.backend request))
    (rest : ∀ now value after, Later past now → Sound anchor now →
      Takes zone request value now.ring after.ring → Later now after → Sound anchor after →
      Harmless zone anchor (next value).run after) :
    Harmless zone anchor (ask request >>= next).run past := by
  rw [run_ask_bind]
  intro now later sound
  refine ⟨permitted now later sound, fun reply after answered onwards whole => ?_⟩
  obtain ⟨ring, order⟩ := after
  obtain ⟨held, before⟩ := now
  cases answered with
  | served takes => exact rest _ _ _ later sound takes onwards whole
  | lost | refused => trivial

/-- A backend call that is the last of a process. -/
theorem harmless_ask {request : Backend.Call}
    (permitted : ∀ now, Later past now → Sound anchor now →
      Permitted now.order (.backend request)) :
    Harmless zone anchor (ask request).run past :=
  fun now later sound => ⟨permitted now later sound, fun _ _ _ _ _ => trivial⟩

/-- A call that is neither to switch nor to delete a key, whatever came of it. -/
theorem harmless_call {request : Call} {next : Zonecast.Upkeep.Reply request → Process Upkeep α}
    (permitted : ∀ order, Permitted order request)
    (rest : ∀ reply after, Later past after → Harmless zone anchor (next reply) after) :
    Harmless zone anchor (.call (I := Upkeep) request next) past :=
  fun _ later _ => ⟨permitted _, fun reply _ _ onwards _ => rest reply _ (later.trans onwards)⟩

end Rules

/-! ### The check of a zone's keys -/

section Check

variable {anchor : UInt32} {past now : History} {zone : Detail}

theorem harmless_recordRotation (state : Rotation) (rectify : Option Bool) :
    Harmless zone.id anchor (recordRotation zone state rectify).run past :=
  harmless_ask fun _ _ _ => trivial

theorem harmless_enableSigning : Harmless zone.id anchor (enableSigning zone).run past := by
  refine harmless_ask_bind (fun _ _ _ => trivial) fun _ _ _ _ _ _ _ _ => ?_
  refine harmless_ask_bind (fun _ _ _ => trivial) fun _ _ _ _ _ _ _ _ => ?_
  refine harmless_ask_bind (fun _ _ _ => trivial) fun _ _ _ _ _ _ _ _ => ?_
  refine harmless_call (fun _ => trivial) fun instant _ _ => ?_
  refine harmless_ask_bind (fun _ _ _ => trivial) fun _ _ _ _ _ _ _ _ => ?_
  refine harmless_call (fun _ => trivial) fun reply _ _ => ?_
  cases reply with
  | ok value => trivial
  | error error => exact harmless_call (fun _ => trivial) fun _ _ _ => trivial

theorem harmless_beginRollover (defaults : Defaults) (instant : Instant) :
    Harmless zone.id anchor (beginRollover defaults zone instant).run past :=
  harmless_ask_bind (fun _ _ _ => trivial) fun _ _ _ _ _ _ _ _ => harmless_recordRotation _ _

/-- What a pass knows of the key that it is to activate and of the one that it is to delete. -/
structure Planned (history : History) (new old : UInt32) : Prop where
  used : new ∈ history.ring.used
  role : ∀ key ∈ history.ring.keys, key.id = some new → key.role = .zoneSigning
  ahead : Ahead history.order old new

/-- That knowledge does not become stale. -/
theorem Planned.later {new old : UInt32} (planned : Planned past new old)
    (later : Later past now) : Planned now new old := by
  refine ⟨later.used _ planned.used, fun key member same => ?_, ?_⟩
  · obtain ⟨before, held, id, role⟩ := later.kept key member new planned.used same
    exact role.symm.trans (planned.role before held id)
  · obtain ⟨before, after, split, ahead⟩ := planned.ahead
    obtain ⟨more, whole⟩ := later.order
    refine ⟨before, after ++ more, ?_, fun member => ?_⟩
    · rw [← whole, split, List.append_assoc]
      rfl
    · rw [← whole] at member
      rcases List.mem_append.mp member with earlier | last
      · exact List.mem_append_left _ (ahead earlier)
      · exact List.mem_append_right _ last

/-- An inactive and an active zone signing key of a list make a plan. -/
theorem planned_of_listed (sound : Sound anchor past) {keys : List SigningKey}
    (listed : keys.Perm past.ring.keys) {successor active : SigningKey} {new old : UInt32}
    (successorListed : successor ∈ keys) (inactive : successor.active = false)
    (successorRole : successor.role = .zoneSigning) (successorId : successor.id = some new)
    (activeListed : active ∈ keys) (signing : active.active = true)
    (activeRole : active.role = .zoneSigning) (activeId : active.id = some old) :
    Planned past new old := by
  have held := listed.mem_iff.mp successorListed
  have ordered : old ∈ past.order :=
    (sound.active_iff active (listed.mem_iff.mp activeListed) activeRole old activeId).mp signing
  have unordered : new ∉ past.order := by
    rw [← sound.active_iff successor held successorRole new successorId, inactive]
    exact Bool.false_ne_true
  refine ⟨?_, fun key member same => ?_, ?_⟩
  · obtain ⟨number, used, id⟩ := sound.numbered successor held
    exact Option.some.inj (id.symm.trans successorId) ▸ used
  · rw [sound.eq_of_id member held (same.trans successorId.symm)]
    exact successorRole
  · obtain ⟨before, after, split⟩ := List.append_of_mem ordered
    exact ⟨before, after, split, fun member => absurd member unordered⟩

/-- A list of the keys of a zone holds those that the backend holds then. -/
theorem perm_of_listed {name : String} {keys : List SigningKey} {ring after : Keyring}
    (takes : Takes name (.listKeys name) keys ring after) : keys.Perm after.keys := by
  cases takes with
  | listed _ _ same => exact same
  | elsewhere _ _ _ apart =>
    have same : (name == name) = false := apart
    rw [beq_self_eq_true] at same
    cases same

/-- Once the activation has succeeded, the key to be deleted is superseded. -/
theorem Planned.superseded {name : String} {value : Unit} {new old : UInt32}
    (planned : Planned past new old)
    (activated : Takes name (.setKeyActive name new true) value past.ring now.ring)
    (later : Later past now) (sound : Sound anchor now) : Superseded now.order old := by
  obtain ⟨before, after, split, ahead⟩ := (planned.later later).ahead
  have activeNow : new ∈ now.order := by
    obtain ⟨ring, order⟩ := past
    obtain ⟨held, since⟩ := now
    cases activated with
    | switched _ _ _ there =>
      obtain ⟨key, member, id⟩ := there
      refine (sound.active_iff (Keyring.switch new true key) (List.mem_map_of_mem member)
        ((Keyring.role_switch _ _ _).trans (planned.role key member id)) new
        ((Keyring.id_switch _ _ _).trans id)).mp ?_
      rw [Keyring.active_switch, if_pos id]
    | elsewhere _ _ _ apart =>
      have same : (name == name) = false := apart
      rw [beq_self_eq_true] at same
      cases same
  cases after with
  | nil => exact absurd (ahead activeNow) List.not_mem_nil
  | cons next after => exact ⟨before, next, after, split⟩

theorem harmless_finishRollover (sound : Sound anchor past) {keys : List SigningKey}
    (listed : keys.Perm past.ring.keys) {active : SigningKey} (activeListed : active ∈ keys)
    (signing : active.active = true) (activeRole : active.role = .zoneSigning)
    (later : Later past now) (instant : Instant) :
    Harmless zone.id anchor (finishRollover zone keys active instant).run now := by
  unfold finishRollover
  dsimp only
  split
  · rename_i new old successorId activeId
    obtain ⟨successor, found, id⟩ := Option.bind_eq_some_iff.mp successorId
    have properties := List.find?_some found
    rw [Bool.and_eq_true, Bool.not_eq_true', beq_iff_eq] at properties
    have planned := (planned_of_listed sound listed (List.mem_of_find?_eq_some found) properties.1
      properties.2 id activeListed signing activeRole activeId).later later
    refine harmless_ask_bind (fun _ _ _ => rfl)
      fun here _ activated onwards _ takes more whole => ?_
    have superseded := (planned.later onwards).superseded takes more whole
    refine harmless_ask_bind (fun _ still _ => still.superseded superseded)
      fun _ _ _ _ _ _ _ _ => ?_
    exact harmless_recordRotation _ _
  · trivial

theorem harmless_checkSigning (defaults : Defaults) :
    Harmless zone.id anchor (checkSigning defaults zone).run past := by
  unfold checkSigning
  split
  · exact harmless_enableSigning
  · refine harmless_ask_bind (fun _ _ _ => trivial) fun here keys there _ _ takes _ sound => ?_
    have listed := perm_of_listed takes
    dsimp only
    split
    · rename_i keySigning active _ found
      have properties := List.find?_some found
      rw [Bool.and_eq_true, beq_iff_eq] at properties
      refine harmless_call (fun _ => trivial) fun instant after later => ?_
      show Harmless zone.id anchor (rotate defaults zone keys active instant).run after
      unfold rotate
      split
      · exact harmless_recordRotation _ _
      · split
        · exact harmless_beginRollover _ _
        · trivial
      · split
        · exact harmless_finishRollover sound listed (List.mem_of_find?_eq_some found)
            properties.1 properties.2 later _
        · trivial
    · trivial

end Check

/-! ### Many passes -/

/-- A signed zone: its keys have distinct numbers, and there is an active key of each role. -/
structure Signed (ring : Keyring) : Prop where
  numbered : ∀ key ∈ ring.keys, ∃ number ∈ ring.used, key.id = some number
  distinct : (ring.keys.map (·.id)).Nodup
  keySigning : ∃ key ∈ ring.keys, key.active = true ∧ key.role = .keySigning
  zoneSigning : ∃ key ∈ ring.keys, key.active = true ∧ key.role = .zoneSigning

/-- The keys of a zone, and the passes under way with what is left of each. -/
structure Scene where
  ring : Keyring
  passes : List (Process Upkeep (Except Error Unit))

/-- What can happen next: a pass starts, with any reading of the zone; a pass makes its next call
and goes on from the reply; or a pass makes its next call and is abandoned. -/
inductive Happens (zone : String) : Scene → Scene → Prop
  | started (ring : Keyring) (passes : List (Process Upkeep (Except Error Unit)))
      (defaults : Defaults) (reading : Detail) (same : reading.id = zone) :
    Happens zone ⟨ring, passes⟩ ⟨ring, passes ++ [(checkSigning defaults reading).run]⟩
  | answered {ring after : Keyring} (earlier later : List (Process Upkeep (Except Error Unit)))
      (request : Call)
      (next : Zonecast.Upkeep.Reply request → Process Upkeep (Except Error Unit))
      (reply : Zonecast.Upkeep.Reply request)
      (answered : Answered zone request reply ring after) :
    Happens zone ⟨ring, earlier ++ .call (I := Upkeep) request next :: later⟩
      ⟨after, earlier ++ next reply :: later⟩
  | abandoned {ring after : Keyring} (earlier later : List (Process Upkeep (Except Error Unit)))
      (request : Call)
      (next : Zonecast.Upkeep.Reply request → Process Upkeep (Except Error Unit))
      (reply : Zonecast.Upkeep.Reply request)
      (answered : Answered zone request reply ring after) :
    Happens zone ⟨ring, earlier ++ .call (I := Upkeep) request next :: later⟩
      ⟨after, earlier ++ later⟩

/-- All that can come of the keys of a zone. -/
inductive Reaches (zone : String) (ring : Keyring) : Scene → Prop
  | start : Reaches zone ring ⟨ring, []⟩
  | onwards {scene next : Scene} (reached : Reaches zone ring scene)
      (happens : Happens zone scene next) : Reaches zone ring next

/-- The keys are in order, and no pass does harm. -/
def Kept (zone : String) (anchor : UInt32) (scene : Scene) : Prop :=
  ∃ order, Sound anchor ⟨scene.ring, order⟩ ∧
    ∀ pass ∈ scene.passes, Harmless zone anchor pass ⟨scene.ring, order⟩

/-- The keys of a signed zone are in order, the zone signing keys that are active in any. -/
theorem sound_of_signed {ring : Keyring} (signed : Signed ring) :
    ∃ anchor order, Sound anchor ⟨ring, order⟩ := by
  have unique : ∀ key ∈ ring.keys, ∀ other ∈ ring.keys, key.id = other.id → key = other :=
    fun key held other otherHeld => List.inj_on_of_nodup_map signed.distinct held otherHeld
  let order := (ring.keys.filter fun key => key.active && key.role == .zoneSigning).filterMap (·.id)
  have ordered : ∀ number, number ∈ order ↔ ∃ key ∈ ring.keys,
      key.active = true ∧ key.role = .zoneSigning ∧ key.id = some number := by
    intro number
    show number ∈ List.filterMap _ _ ↔ _
    simp only [List.mem_filterMap, List.mem_filter, Bool.and_eq_true, beq_iff_eq, and_assoc]
  obtain ⟨anchoring, anchored, active, role⟩ := signed.keySigning
  obtain ⟨anchor, _, anchorId⟩ := signed.numbered anchoring anchored
  refine ⟨anchor, order, signed.numbered, signed.distinct, ?_, fun number member => ?_,
    fun key held keyRole number id => ?_, ?_, ⟨anchoring, anchored, anchorId, role, active⟩,
    fun member => ?_⟩
  · refine List.pairwise_filterMap.mpr ((List.pairwise_map.mp (signed.distinct.sublist
      (List.filter_sublist.map _))).imp fun different number id other otherId same => ?_)
    exact different (id.trans (same ▸ otherId.symm))
  · obtain ⟨key, held, _, _, id⟩ := (ordered number).mp member
    obtain ⟨other, used, same⟩ := signed.numbered key held
    exact Option.some.inj (same.symm.trans id) ▸ used
  · rw [ordered]
    refine ⟨fun keyActive => ⟨key, held, keyActive, keyRole, id⟩, ?_⟩
    rintro ⟨other, otherHeld, otherActive, _, otherId⟩
    rw [unique key held other otherHeld (id.trans otherId.symm)]
    exact otherActive
  · obtain ⟨key, held, keyActive, keyRole⟩ := signed.zoneSigning
    obtain ⟨number, _, id⟩ := signed.numbered key held
    have some : order ≠ [] := List.ne_nil_of_mem ((ordered number).mpr
      ⟨key, held, keyActive, keyRole, id⟩)
    obtain ⟨last, lastHeld, _, lastRole, lastId⟩ := (ordered _).mp (List.getLast_mem some)
    exact ⟨last, lastHeld, lastRole, _, lastId, List.getLast?_eq_some_getLast some⟩
  · obtain ⟨key, held, _, keyRole, id⟩ := (ordered anchor).mp member
    rw [unique key held anchoring anchored (id.trans anchorId.symm), role] at keyRole
    cases keyRole

theorem signed_of_sound {anchor : UInt32} {history : History} (sound : Sound anchor history) :
    Signed history.ring where
  numbered := sound.numbered
  distinct := sound.distinct
  keySigning := by
    obtain ⟨key, held, _, role, active⟩ := sound.anchored
    exact ⟨key, held, active, role⟩
  zoneSigning := by
    obtain ⟨key, held, role, number, id, latest⟩ := sound.latest
    exact ⟨key, held,
      (sound.active_iff key held role number id).mpr (List.mem_of_getLast? latest), role⟩

/-- A pass that does no harm makes its next call. The keys stay in order, the others do no harm as
before, and it does none whatever it goes on from. -/
theorem kept_of_answered {zone : String} {anchor : UInt32} {ring after : Keyring}
    {earlier later : List (Process Upkeep (Except Error Unit))} {request : Call}
    {next : Zonecast.Upkeep.Reply request → Process Upkeep (Except Error Unit)}
    {reply : Zonecast.Upkeep.Reply request}
    (kept : Kept zone anchor ⟨ring, earlier ++ .call (I := Upkeep) request next :: later⟩)
    (answered : Answered zone request reply ring after) :
    ∃ order, Sound anchor ⟨after, order⟩ ∧
      (∀ pass ∈ earlier ++ later, Harmless zone anchor pass ⟨after, order⟩) ∧
      Harmless zone anchor (next reply) ⟨after, order⟩ := by
  obtain ⟨order, sound, harmless⟩ := kept
  obtain ⟨permitted, rest⟩ := harmless _ (List.mem_append_right _ List.mem_cons_self) _ (.refl _)
    sound
  obtain ⟨order', onwards, whole⟩ := sound_of_answered sound permitted answered
  refine ⟨order', whole, fun pass member => ?_, rest reply ⟨after, order'⟩ answered onwards whole⟩
  have listed : pass ∈ earlier ++ .call (I := Upkeep) request next :: later := by
    rw [List.perm_middle.mem_iff]
    exact List.mem_cons_of_mem _ member
  exact (harmless pass listed).later onwards

/-- Nothing that happens breaks the order of the keys or makes a pass harmful. -/
theorem kept_of_happens {zone : String} {anchor : UInt32} {scene next : Scene}
    (kept : Kept zone anchor scene) (happens : Happens zone scene next) :
    Kept zone anchor next := by
  cases happens with
  | started ring passes defaults reading same =>
    obtain ⟨order, sound, harmless⟩ := kept
    refine ⟨order, sound, fun pass member => ?_⟩
    rcases List.mem_append.mp member with old | new
    · exact harmless pass old
    · obtain rfl := List.mem_singleton.mp new
      subst same
      exact harmless_checkSigning defaults
  | answered earlier later request next reply answered =>
    obtain ⟨order, sound, others, own⟩ := kept_of_answered kept answered
    refine ⟨order, sound, fun pass member => ?_⟩
    rw [List.perm_middle.mem_iff, List.mem_cons] at member
    rcases member with rfl | other
    · exact own
    · exact others pass other
  | abandoned earlier later request next reply answered =>
    obtain ⟨order, sound, others, _⟩ := kept_of_answered kept answered
    exact ⟨order, sound, others⟩

/-- Signing is never lost. Whatever comes of the keys of a signed zone, while any number of passes
check them at once, call by call in any order, at any times and with any readings of the zone,
and with backend calls that fail as they like or are the last of their pass, the zone is signed:
it has an active key signing key and an active zone signing key. -/
theorem signed_of_reaches (zone : String) (ring : Keyring) (scene : Scene) (signed : Signed ring)
    (reached : Reaches zone ring scene) : Signed scene.ring := by
  obtain ⟨anchor, order, sound⟩ := sound_of_signed signed
  suffices kept : Kept zone anchor scene by
    obtain ⟨_, whole, _⟩ := kept
    exact signed_of_sound whole
  induction reached with
  | start => exact ⟨order, sound, List.forall_mem_nil _⟩
  | onwards _ happens inductionHypothesis => exact kept_of_happens inductionHypothesis happens

/-! ### Two passes over one rollover -/

/-- A key with this number. -/
def exampleKey (number : UInt32) (role : KeyRole) (active : Bool) : SigningKey :=
  ⟨some number, role, active, true, some keyAlgorithm, some 2048, []⟩

/-- A signed zone with a successor that is not active yet. -/
def exampleRing : Keyring where
  keys := [exampleKey 1 .keySigning true, exampleKey 2 .zoneSigning true,
    exampleKey 3 .zoneSigning false]
  used := [1, 2, 3]

/-- The zone as it is read, with the tag of a rollover whose time has come. -/
def exampleReading : Detail where
  id := "test."
  name := "test."
  kind := none
  serial := some 1
  signed := true
  account := some "ZSK-ACTIVATE:0"
  recordSets := []

def exampleDefaults : Defaults :=
  ⟨"a.nic.test.", "hostmaster.nic.test.", ["a.nic.test."], 3600, true, true⟩

/-- What is left of a check of that zone once the keys are listed and the clock is read. -/
def exampleSwitch : Process Upkeep (Except Error Unit) :=
  (finishRollover exampleReading exampleRing.keys (exampleKey 2 .zoneSigning true)
    (Instant.ofMillis 0)).run

/-- A check of that zone lists the keys, reads the clock and then switches keys. -/
theorem run_exampleReading :
    ∃ (listed : Except Backend.Error (List SigningKey) → Process Upkeep (Except Error Unit))
      (timed : Instant → Process Upkeep (Except Error Unit)),
      (checkSigning exampleDefaults exampleReading).run =
          .call (I := Upkeep) (.backend (.listKeys "test.")) listed ∧
        listed (.ok exampleRing.keys) = .call (I := Upkeep) .now timed ∧
        timed (Instant.ofMillis 0) = exampleSwitch := by
  have due : Rotation.ofAccount exampleReading.account = .activating (Instant.ofMillis 0) := by
    decide +kernel
  refine ⟨_, _, run_ask_bind _ _, rfl, ?_⟩
  show (rotate exampleDefaults exampleReading exampleRing.keys (exampleKey 2 .zoneSigning true)
    (Instant.ofMillis 0)).run = exampleSwitch
  unfold rotate
  rw [due]
  rfl

/-- A pass can start and come to switching keys. -/
theorem reaches_exampleSwitch {passes : List (Process Upkeep (Except Error Unit))}
    (reached : Reaches "test." exampleRing ⟨exampleRing, passes⟩) :
    Reaches "test." exampleRing ⟨exampleRing, passes ++ [exampleSwitch]⟩ := by
  obtain ⟨listed, timed, check, reading, switching⟩ := run_exampleReading
  have list : Answered "test." (.backend (.listKeys "test.")) (.ok exampleRing.keys) exampleRing
      exampleRing := .served (.listed _ _ (.refl _))
  have started := reached.onwards (.started _ _ exampleDefaults exampleReading rfl)
  rw [check] at started
  have known : Reaches "test." exampleRing
      ⟨exampleRing, passes ++ [listed (.ok exampleRing.keys)]⟩ :=
    started.onwards (.answered passes [] (.backend (.listKeys "test.")) listed _ list)
  rw [reading] at known
  have due : Reaches "test." exampleRing ⟨exampleRing, passes ++ [timed (Instant.ofMillis 0)]⟩ :=
    known.onwards (.answered passes [] .now timed (Instant.ofMillis 0) (.read _ _))
  rw [switching] at due
  exact due

/-- Two passes over one rollover. Both are about to activate the successor. One does; the other does
so as well but is told that it failed; then the first deletes the old key. -/
theorem rolledOver_exampleRing :
    ∃ scene, Reaches "test." exampleRing scene ∧
      scene.ring.keys = [exampleKey 1 .keySigning true, exampleKey 3 .zoneSigning true] ∧
      Signed scene.ring := by
  have signed : Signed exampleRing :=
    ⟨by decide, by decide, ⟨_, List.mem_cons_self, rfl, rfl⟩,
      ⟨_, List.mem_cons_of_mem _ List.mem_cons_self, rfl, rfl⟩⟩
  have both := reaches_exampleSwitch (reaches_exampleSwitch .start)
  have held : ∃ key ∈ exampleRing.keys, key.id = some 3 := by decide
  have heldStill : ∃ key ∈ (exampleRing.switching 3 true).keys, key.id = some 3 := by decide
  have activated := both.onwards (.answered [] [exampleSwitch]
    (.backend (.setKeyActive "test." 3 true)) _ (.ok ()) (.served (.switched _ 3 true held)))
  have repeated := activated.onwards (.answered [_] []
    (.backend (.setKeyActive "test." 3 true)) _ (.error (.transport "set_cryptokey_active"))
    (.lost _ (.switched _ 3 true heldStill)))
  have deleted := repeated.onwards (.answered [] [_] (.backend (.deleteKey "test." 2)) _ (.ok ())
    (.served (.deleted _ 2)))
  exact ⟨_, deleted, by decide, signed_of_reaches _ _ _ signed deleted⟩

end Zonecast.Upkeep
