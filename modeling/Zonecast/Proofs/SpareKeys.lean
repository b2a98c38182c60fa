/-
How many zone signing keys a zone can come to hold. A rollover holds two at a time: the successor
is created when the old key expires, and the old key is deleted when the successor takes over. But
that a successor was created is known from the tag only, and the tag is stored by a call of its
own. If that call fails, the next pass creates another successor. So each such failure leaves one
spare key more, and nothing else does: whatever other calls fail, and wherever a pass is looked at
halfway, there is one zone signing key, or two while a rollover goes on, besides the spare ones.
-/
import Zonecast.Proofs.InterruptedRollover
import Zonecast.Proofs.UnfinishedPasses

namespace Zonecast.Upkeep

open Process Zone

/-! ### Counting keys -/

/-- The zone signing keys of a zone, active or not. -/
def zoneKeys (ring : Keyring) : List SigningKey :=
  ring.keys.filter fun key => key.role == .zoneSigning

/-- Those that do not sign. -/
def inactiveZoneKeys (ring : Keyring) : List SigningKey :=
  (zoneKeys ring).filter fun key => !key.active

section Counts

variable {ring : Keyring} {zone : String}

theorem mem_zoneKeys {key : SigningKey} :
    key ∈ zoneKeys ring ↔ key ∈ ring.keys ∧ key.role = .zoneSigning := by
  rw [zoneKeys, List.mem_filter, beq_iff_eq]

/-- A successor is one key more. -/
theorem length_zoneKeys_created {stored : SigningKey} {after : Keyring}
    (created : Takes zone (.createKey zone successorKey) stored ring after) :
    (zoneKeys after).length = (zoneKeys ring).length + 1 := by
  cases created with
  | created before after used key number ds fresh =>
    have successor : (({ successorKey with id := some number, ds } : SigningKey).role ==
        .zoneSigning) = true := rfl
    rw [zoneKeys, List.filter_append, List.filter_cons, if_pos successor, zoneKeys,
      List.filter_append, List.length_append, List.length_append, List.length_cons, Nat.add_assoc]
  | elsewhere _ _ _ apart => exact absurd apart self_ne_false

theorem length_zoneKeys_switching (ring : Keyring) (number : UInt32) (active : Bool) :
    (zoneKeys (ring.switching number active)).length = (zoneKeys ring).length := by
  have same : ((fun key : SigningKey => key.role == .zoneSigning) ∘ Keyring.switch number active) =
      fun key => key.role == .zoneSigning := by
    funext key
    rw [Function.comp_apply, Keyring.role_switch]
  rw [zoneKeys, Keyring.switching, List.filter_map, same, List.length_map, zoneKeys]

theorem length_zoneKeys_without_le (number : UInt32) :
    (zoneKeys (ring.without number)).length ≤ (zoneKeys ring).length :=
  (List.filter_sublist.filter _).length_le

/-- Deleting a zone signing key leaves one less. -/
theorem length_zoneKeys_without_lt {number : UInt32} {key : SigningKey} (held : key ∈ ring.keys)
    (role : key.role = .zoneSigning) (id : key.id = some number) :
    (zoneKeys (ring.without number)).length < (zoneKeys ring).length := by
  have left : zoneKeys (ring.without number) =
      (zoneKeys ring).filter fun key => key.id != some number := by
    rw [zoneKeys, Keyring.without, zoneKeys, List.filter_comm]
  rw [left]
  refine List.length_filter_lt_length_iff_exists.mpr ⟨key, mem_zoneKeys.mpr ⟨held, role⟩, ?_⟩
  rw [id, bne_self_eq_false]
  exact Bool.false_ne_true

/-- So does a rollover that is finished. -/
theorem length_zoneKeys_rolled_lt {keys : List SigningKey} {active : SigningKey} {old : UInt32}
    (listing : Listing ring keys active) (id : active.id = some old) (new : UInt32) :
    (zoneKeys ((ring.switching new true).without old)).length < (zoneKeys ring).length := by
  obtain ⟨held, _, role⟩ := held_of_listed listing listing.first
  rw [← length_zoneKeys_switching ring new true]
  exact length_zoneKeys_without_lt (List.mem_map_of_mem held)
    ((Keyring.role_switch _ _ _).trans role) ((Keyring.id_switch _ _ _).trans id)

/-- One zone signing key is active. -/
theorem length_inactiveZoneKeys_lt (signed : Signed ring) :
    (inactiveZoneKeys ring).length < (zoneKeys ring).length := by
  obtain ⟨key, held, active, role⟩ := signed.zoneSigning
  refine List.length_filter_lt_length_iff_exists.mpr ⟨key, mem_zoneKeys.mpr ⟨held, role⟩, ?_⟩
  rw [active]
  exact Bool.false_ne_true

end Counts

/-! ### Passes -/

/-- The call created a successor. -/
def createsSuccessor (zone : String) : Exchange Upkeep → Bool
  | ⟨.backend (.createKey other key), .ok _⟩ =>
    other == zone && key.role == .zoneSigning && !key.active
  | _ => false

/-- The call stored a tag that names the time of a successor. -/
def recordsSuccessor (zone : String) : Exchange Upkeep → Bool
  | ⟨.backend (.updateZone other settings), .ok _⟩ =>
    other == zone && match Rotation.ofAccount settings.account with
      | .activating _ => true
      | _ => false
  | _ => false

/-- A successor was created, but no tag that says so was stored. -/
def unrecorded (zone : String) (exchanges : List (Exchange Upkeep)) : Bool :=
  exchanges.any (createsSuccessor zone) && !exchanges.any (recordsSuccessor zone)

/-- A signed zone with at most so many spare keys: besides those there is one zone signing key, and
another if the account names the time of a successor. -/
structure Trim (spare : Nat) (held : Holding) : Prop extends Marked held where
  few : (zoneKeys held.ring).length ≤ 2 + spare
  fewer : (∀ since, Rotation.ofAccount held.account ≠ .activating since) →
    (zoneKeys held.ring).length ≤ 1 + spare

section Passes

variable {defaults : Defaults} {zone : String} {before after : Holding} {pass : Pass} {spare : Nat}

theorem Trim.mono {held : Holding} {more : Nat} (trim : Trim spare held) (le : spare ≤ more) :
    Trim more held where
  toMarked := trim.toMarked
  few := Nat.le_trans trim.few (Nat.add_le_add_left le 2)
  fewer := fun expiring => Nat.le_trans (trim.fewer expiring) (Nat.add_le_add_left le 1)

theorem Trim.of_expiring (trim : Trim spare before) {since : Instant}
    (state : Rotation.ofAccount before.account = .expiring since) :
    (zoneKeys before.ring).length ≤ 1 + spare := by
  refine trim.fewer fun other activates => ?_
  cases state.symm.trans activates

theorem Trim.of_fewer {held : Holding} (marked : Marked held)
    (fewer : (zoneKeys held.ring).length ≤ 1 + spare) : Trim spare held where
  toMarked := marked
  few := by omega
  fewer := fun _ => fewer

/-- A pass records a state by one call, and if that stores the time of a successor, the account
names one. -/
theorem exists_recording {state : Rotation} {account account' : Option String}
    {exchanges : List (Exchange Upkeep)} {result : Except Error Unit}
    (records : Records zone state account exchanges account' result) :
    ∃ exchange, exchanges = [exchange] ∧ (recordsSuccessor zone exchange = true →
      ∃ since, Rotation.ofAccount account' = .activating since) := by
  cases records with
  | stored =>
    refine ⟨_, rfl, fun recorded => ?_⟩
    obtain ⟨_, names⟩ := Bool.and_eq_true_iff.mp recorded
    split at names
    · rename_i since state
      exact ⟨since, state⟩
    · cases names
  | failed error => exact ⟨_, rfl, fun recorded => nomatch recorded⟩

theorem createsSuccessor_served (zone : String) (stored : SigningKey) :
    createsSuccessor zone (served (.createKey zone successorKey) stored) = true :=
  Bool.and_eq_true_iff.mpr ⟨Bool.and_eq_true_iff.mpr ⟨beq_self_eq_true zone, rfl⟩, rfl⟩

theorem unrecorded_pair {creation recording : Exchange Upkeep}
    (creates : createsSuccessor zone creation = true)
    (other : recordsSuccessor zone creation = false) :
    unrecorded zone [creation, recording] = !recordsSuccessor zone recording := by
  rw [unrecorded, List.any_cons, creates, Bool.true_or, Bool.true_and, List.any_cons, other,
    Bool.false_or, List.any_cons, List.any_nil, Bool.or_false]

/-- A successor that is recorded is the one that the tag names, one that is not is a spare key. -/
theorem trim_of_records {stored : SigningKey} {state : Rotation} {account : Option String}
    {exchanges : List (Exchange Upkeep)} {result : Except Error Unit} (marked : Marked after)
    (fewer : (zoneKeys before.ring).length ≤ 1 + spare)
    (created : Takes zone (.createKey zone successorKey) stored before.ring after.ring)
    (records : Records zone state account exchanges after.account result) :
    Trim (spare + (unrecorded zone
      (served (.createKey zone successorKey) stored :: exchanges)).toNat) after := by
  have more := length_zoneKeys_created created
  obtain ⟨exchange, rfl, names⟩ := exists_recording records
  rw [unrecorded_pair (createsSuccessor_served zone stored) rfl]
  cases recorded : recordsSuccessor zone exchange with
  | true =>
    obtain ⟨since, activates⟩ := names recorded
    refine ⟨marked, ?_, fun expiring => absurd activates (expiring since)⟩
    rw [more]
    omega
  | false =>
    refine .of_fewer marked ?_
    rw [more]
    show _ ≤ 1 + (spare + 1)
    omega

/-- A pass leaves at most one more spare key, and only if it created a successor that it did not
record. -/
theorem trim_of_checks (trim : Trim spare before)
    (checks : Checks defaults zone before pass after) :
    Trim (spare + (unrecorded zone pass.exchanges).toNat) after := by
  have marked := marked_of_checks trim.toMarked checks
  rcases (checks_iff trim.toMarked).mp checks with
    ⟨_, _, rfl, _⟩ | ⟨keys, active, rest, listing, calls, turn⟩
  · exact trim.mono (Nat.le_add_right _ _)
  have same : unrecorded zone pass.exchanges = unrecorded zone rest := by
    rw [calls]
    rfl
  rw [same]
  generalize pass.result = result at turn
  cases turn with
  | waiting | unpublished | stranded | unactivated => exact trim.mono (Nat.le_add_right _ _)
  | tracked state records =>
    have untracked : ∀ since, Rotation.ofAccount before.account ≠ .activating since := by
      intro since activates
      cases state.symm.trans activates
    exact Trim.mono ⟨marked, trim.few, fun _ => trim.fewer untracked⟩ (Nat.le_add_right _ _)
  | published since state due created records =>
    exact trim_of_records marked (trim.of_expiring state) created records
  | undeleted =>
    have count := length_zoneKeys_switching before.ring
    refine Trim.mono ⟨marked, ?_, fun expiring => ?_⟩ (Nat.le_add_right _ _)
    · exact Nat.le_trans (Nat.le_of_eq (count _ _)) trim.few
    · exact Nat.le_trans (Nat.le_of_eq (count _ _)) (trim.fewer expiring)
  | finished since state due next newId oldId records =>
    refine Trim.mono (.of_fewer marked ?_) (Nat.le_add_right _ _)
    have most : (zoneKeys before.ring).length ≤ (1 + spare).succ := Nat.le_trans trim.few (by omega)
    exact Nat.le_of_lt_succ
      (Nat.lt_of_lt_of_le (length_zoneKeys_rolled_lt listing oldId _) most)

end Passes

/-! ### Halfway through a pass -/

section Moments

variable {defaults : Defaults} {zone : String} {instant : Instant} {held moment : Holding}
  {exchanges : List (Exchange Upkeep)} {reading : Detail} {spare most : Nat}

/-- However its calls are met, no more zone signing keys than these are seen during a process. -/
def Limits (zone : String) (instant : Instant) (most : Nat)
    (process : Process Upkeep (Except Error Unit)) (held : Holding) : Prop :=
  process.Upholds (Replies zone instant) (fun _ => True)
    (fun moment => (zoneKeys moment.ring).length ≤ most) held

/-- A call that fails leaves the keys as they are. -/
theorem limits_ask_bind {request : Backend.Call} {next : Backend.Value request → Step Unit}
    (within : (zoneKeys held.ring).length ≤ most)
    (rest : ∀ value after, Serves zone request value held after →
      Limits zone instant most (next value).run after) :
    Limits zone instant most (ask request >>= next).run held := by
  refine upholds_ask_bind within trivial (fun error after replies => ?_)
    fun value after replies => ?_
  · cases replies
    exact within
  · cases replies with
    | served serves => exact rest value after serves

theorem limits_recordRotation (id : reading.id = zone) (state : Rotation)
    (within : (zoneKeys held.ring).length ≤ most) :
    Limits zone instant most (recordRotation reading state none).run held := by
  subst id
  refine upholds_ask within trivial fun reply after replies => ?_
  cases replies with
  | served serves =>
    obtain rfl := serves_updateZone.mp serves
    exact within
  | refused => exact within

theorem limits_beginRollover (id : reading.id = zone)
    (within : (zoneKeys held.ring).length + 1 ≤ most) :
    Limits zone instant most (beginRollover defaults reading instant).run held := by
  subst id
  refine limits_ask_bind (Nat.le_of_succ_le within) fun stored after serves => ?_
  obtain ⟨ring, created, rfl⟩ := serves_createKey.mp serves
  refine limits_recordRotation rfl _ ?_
  rw [length_zoneKeys_created created]
  exact within

theorem limits_finishRollover (id : reading.id = zone) {keys : List SigningKey}
    {active : SigningKey} (within : (zoneKeys held.ring).length ≤ most) :
    Limits zone instant most (finishRollover reading keys active instant).run held := by
  subst id
  unfold finishRollover
  dsimp only
  split
  · rename_i new old _ _
    refine limits_ask_bind within fun value after serves => ?_
    obtain ⟨_, rfl⟩ := serves_setKeyActive.mp serves
    have switched : (zoneKeys (held.ring.switching new true)).length ≤ most := by
      rw [length_zoneKeys_switching]
      exact within
    refine limits_ask_bind switched fun value after serves => ?_
    obtain rfl := serves_deleteKey.mp serves
    exact limits_recordRotation rfl _ (Nat.le_trans (length_zoneKeys_without_le old) switched)
  · exact within

theorem limits_rotate (trim : Trim spare held) (fresh : Read zone held reading)
    (keys : List SigningKey) (active : SigningKey) :
    Limits zone instant (2 + spare) (rotate defaults reading keys active instant).run held := by
  unfold rotate
  rw [fresh.account]
  split
  · exact limits_recordRotation fresh.id _ trim.few
  · rename_i since state
    split
    · have fewer := trim.of_expiring state
      exact limits_beginRollover fresh.id (by omega)
    · exact trim.few
  · split
    · exact limits_finishRollover fresh.id trim.few
    · exact trim.few

/-- During a pass there are never more zone signing keys than a rollover and the spare keys take. -/
theorem limits_checkSigning (trim : Trim spare held) (fresh : Read zone held reading) :
    Limits zone instant (2 + spare) (checkSigning defaults reading).run held := by
  rw [checkSigning_of_signed (fresh.signed.trans trim.marked), fresh.id]
  refine limits_ask_bind trim.few fun keys after serves => ?_
  obtain ⟨same, rfl⟩ := serves_listKeys.mp serves
  obtain ⟨active, listing⟩ := exists_listing trim.signed same
  rw [checkListed_of_listing trim.signed listing]
  refine ⟨trim.few, trivial, fun reply after replies => ?_⟩
  cases replies
  exact limits_rotate trim fresh keys active

/-- A process that does no harm has the keys in order at every moment. -/
theorem sound_of_proceeds {anchor : UInt32} {order : List UInt32} {α : Type}
    {process : Process Upkeep α} (harmless : Harmless zone anchor process ⟨held.ring, order⟩)
    (sound : Sound anchor ⟨held.ring, order⟩)
    (proceeds : Proceeds (Replies zone instant) process held exchanges moment) :
    ∃ order', Sound anchor ⟨moment.ring, order'⟩ := by
  induction proceeds generalizing order with
  | left => exact ⟨order, sound⟩
  | call replies rest inductionHypothesis =>
    have answered := answered_of_replies replies
    obtain ⟨permitted, harmlessRest⟩ := harmless _ (.refl _) sound
    obtain ⟨order', later, whole⟩ := sound_of_answered sound permitted answered
    exact inductionHypothesis (harmlessRest _ ⟨_, order'⟩ answered later whole) whole

/-- A signed zone is signed at every moment of a pass. -/
theorem signed_of_proceeds (signed : Signed held.ring) (id : reading.id = zone)
    (proceeds : Proceeds (Replies zone instant) (checkSigning defaults reading).run held exchanges
      moment) : Signed moment.ring := by
  obtain ⟨anchor, order, sound⟩ := sound_of_signed signed
  obtain ⟨order', whole⟩ := sound_of_proceeds (id ▸ harmless_checkSigning defaults) sound proceeds
  exact signed_of_sound whole

end Moments

/-! ### Many passes -/

section Courses

variable {defaults : Defaults} {zone : String} {start held : Holding} {passes : List Pass}

/-- Each pass that created a successor but did not record it leaves a spare key. -/
theorem trim_of_course {spare : Nat} (trim : Trim spare start)
    (course : Course defaults zone start passes held) :
    Trim (spare + passes.countP fun pass => unrecorded zone pass.exchanges) held := by
  induction course generalizing spare with
  | nil => exact trim
  | cons checks rest inductionHypothesis =>
    rename_i pass passes
    have whole := inductionHypothesis (trim_of_checks trim checks)
    rw [Nat.add_assoc] at whole
    refine whole.mono (Nat.add_le_add_left (Nat.le_of_eq ?_) spare)
    rw [List.countP_cons, Nat.add_comm]
    cases unrecorded zone pass.exchanges <;> rfl

/-- Zone signing keys pile up only as tags fail to be stored. Start from a signed zone with one zone
signing key and the time at which it expires. Whatever calls fail in passes one after the other, at
every moment of a further pass there are at most two zone signing keys, one of them inactive,
besides one more for each earlier pass that created a successor but stored no tag that names its
time. -/
theorem spare_keys_of_course (defaults : Defaults) (zone : String) (start held moment : Holding)
    (passes : List Pass) (reading : Detail) (instant : Instant)
    (exchanges : List (Exchange Upkeep)) (expiring : Expiring start)
    (single : (zoneKeys start.ring).length = 1)
    (course : Course defaults zone start passes held) (fresh : Read zone held reading)
    (proceeds : Proceeds (Replies zone instant) (checkSigning defaults reading).run held exchanges
      moment) :
    (zoneKeys moment.ring).length ≤
        2 + passes.countP (fun pass => unrecorded zone pass.exchanges) ∧
      (inactiveZoneKeys moment.ring).length ≤
        1 + passes.countP fun pass => unrecorded zone pass.exchanges := by
  have begins : Trim 0 start := .of_fewer expiring.toMarked (Nat.le_of_eq single)
  have trim := trim_of_course begins course
  rw [Nat.zero_add] at trim
  obtain ⟨few, _⟩ := (limits_checkSigning trim fresh).of_proceeds proceeds
  have signing := length_inactiveZoneKeys_lt (signed_of_proceeds trim.signed fresh.id proceeds)
  exact ⟨few, by omega⟩

end Courses

/-! ### A spare key -/

/-- The test zone with a successor that no tag names. -/
def exampleSpare : Holding :=
  { exampleHeld with ring := exampleBegun.ring }

/-- The second successor as it is stored. -/
def exampleOther : SigningKey := { successorKey with id := some 4, ds := [] }

/-- That zone once a second successor is published. -/
def examplePiled : Holding where
  ring := ⟨exampleSpare.ring.keys ++ [exampleOther], 4 :: exampleSpare.ring.used⟩
  signed := true
  account := some (Rotation.activating
    ((Instant.ofMillis 1000).addMillis (activationDelay exampleDefaults))).toAccount

/-- The successor is created, the tag cannot be stored. -/
def exampleUntagged : Pass :=
  examplePass (.ofMillis 0) exampleHeld
    [served (.createKey "test." successorKey) exampleSuccessor,
      refused (.updateZone "test." ⟨exampleBegun.account, none⟩) (.transport "update_zone")]
    (.error (.backend (.transport "update_zone")))

/-- A second later no call fails. -/
def exampleRetagged : Pass :=
  examplePass (.ofMillis 1000) exampleSpare
    [served (.createKey "test." successorKey) exampleOther,
      served (.updateZone "test." ⟨examplePiled.account, none⟩) ()] (.ok ())

theorem checks_exampleUntagged :
    Checks exampleDefaults "test." exampleHeld exampleUntagged exampleSpare := by
  refine (checks_iff expiring_exampleHeld.toMarked).mpr (Or.inr ⟨exampleHeld.ring.keys,
    exampleKey 2 .zoneSigning true, _, ⟨.refl _, rfl⟩, rfl, ?_⟩)
  exact .published _ (Rotation.ofAccount_expiring (by decide)) (by decide)
    (.created exampleHeld.ring.keys [] [1, 2] successorKey 3 [] (by decide)) (.failed _)

theorem checks_exampleRetagged :
    Checks exampleDefaults "test." exampleSpare exampleRetagged examplePiled := by
  have marked := marked_of_checks expiring_exampleHeld.toMarked checks_exampleUntagged
  refine (checks_iff marked).mpr (Or.inr ⟨exampleSpare.ring.keys,
    exampleKey 2 .zoneSigning true, _, ⟨.refl _, rfl⟩, rfl, ?_⟩)
  exact .published _ (Rotation.ofAccount_expiring (by decide)) (by decide)
    (.created exampleSpare.ring.keys [] [3, 1, 2] successorKey 4 [] (by decide)) .stored

/-- Keys that pile up. The tag of a successor cannot be stored, and the next pass creates another
one. -/
theorem piled_exampleHeld :
    Expiring exampleHeld ∧ (zoneKeys exampleHeld.ring).length = 1 ∧
      Course exampleDefaults "test." exampleHeld [exampleUntagged, exampleRetagged]
        examplePiled ∧
      InOrder [exampleUntagged, exampleRetagged] ∧
      (zoneKeys examplePiled.ring).length = 3 ∧
      (inactiveZoneKeys examplePiled.ring).length = 2 := by
  refine ⟨expiring_exampleHeld, rfl,
    .cons checks_exampleUntagged (.cons checks_exampleRetagged (.nil _)), ?_, rfl, rfl⟩
  unfold InOrder
  decide

/-- One tag was not stored, and there is one spare key. -/
theorem spare_key_exampleHeld :
    [exampleUntagged].countP (fun pass => unrecorded "test." pass.exchanges) = 1 ∧
      (∃ reading, Read "test." exampleSpare reading ∧
        Proceeds (Replies "test." (.ofMillis 1000)) (checkSigning exampleDefaults reading).run
          exampleSpare exampleRetagged.exchanges examplePiled) ∧
      (zoneKeys examplePiled.ring).length ≤ 3 ∧
      (inactiveZoneKeys examplePiled.ring).length ≤ 2 := by
  obtain ⟨reading, fresh, path⟩ := checks_exampleRetagged
  have spare := spare_keys_of_course exampleDefaults "test." exampleHeld exampleSpare examplePiled
    [exampleUntagged] reading (.ofMillis 1000) exampleRetagged.exchanges expiring_exampleHeld rfl
    (.cons checks_exampleUntagged (.nil _)) fresh path.proceeds
  exact ⟨rfl, ⟨reading, fresh, path.proceeds⟩, spare⟩

end Zonecast.Upkeep
